import DataBinding.Proofs.Model.Subscribers
import DataBinding.Proofs.Runs.Discipline

/-!
# What runs do to the model

Whatever a host does, the model of its store changes by six operations only. A relation between models that is
reflexive and transitive and holds along each of them is a `ModelDiscipline`, and holds between the models before
and after every run.
-/

set_option autoImplicit false

namespace DataBinding

/-- A relation between models that holds along every change of a model. -/
structure ModelDiscipline (R : Model → Model → Prop) : Prop where
  refl : ∀ m, R m m
  trans : ∀ {m₁ m₂ m₃}, R m₁ m₂ → R m₂ m₃ → R m₁ m₃
  subscribers : ∀ m cell f, R m (m.updateSubscribers cell f)
  observed : ∀ m json, R m (Model.observe json m).2
  newObject : ∀ m, R m m.newObject.2
  putPlain : ∀ m object key value, (∀ cell, m.slot? object key ≠ some (.reactive cell)) →
    R m (m.putPlain object key value)
  setCellValue : ∀ m cell value, R m (m.setCellValue cell value)

namespace ModelDiscipline

variable {ρ σ : Type} {R : Model → Model → Prop}

/-- A discipline of models holds along the subscribing of somebody to some cells. -/
theorem subscribeAll (hR : ModelDiscipline R) (m : Model) (cells : List CellId) (id : SubscriberId) :
    R m (cells.foldl (fun m cell => m.subscribe cell id) m) := by
  induction cells generalizing m with
  | nil => exact hR.refl m
  | cons cell rest ih => exact hR.trans (hR.subscribers m cell _) (ih _)

/-- A discipline of models holds along every step of a run. -/
theorem step (hR : ModelDiscipline R) {s s' : Store ρ σ} (hstep : Step s s') : R s.model s'.model := by
  cases hstep with
  | made => exact hR.subscribeAll _ _ _
  | abandoned => exact hR.subscribeAll _ _ _
  | storedPlain object key value hplain => exact hR.putPlain _ object key value hplain
  | observed json => exact hR.observed _ json
  | newObject => exact hR.newObject _
  | tracked cells =>
    unfold Store.subscribeCollector
    split
    · exact hR.refl _
    · exact hR.subscribeAll _ _ _
  | pruned cell => exact hR.subscribers _ cell _
  | _ => exact hR.refl _

/-- What holds along every change of a model holds along everything that a host does. -/
theorem host (hR : ModelDiscipline R) : HostDiscipline fun s s' : Store ρ σ => R s.model s'.model where
  toWriteDiscipline := .of_storing ⟨fun s => hR.refl s.model, hR.trans, hR.step⟩
    fun s cell value => hR.setCellValue s.model cell value
  subscribed s cell id := hR.subscribeAll s.model [cell] id
  collected s _ := hR.refl s.model
  activated s _ _ := hR.refl s.model

end ModelDiscipline

end DataBinding
