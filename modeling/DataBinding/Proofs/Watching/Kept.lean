import DataBinding.Proofs.Runs.Discipline
import DataBinding.Proofs.Watching.Books

/-!
# What was not written is as it was

The journal only grows, and it names every property that is written. So a property that no event since an
earlier store has written is as it was then: `Store.Kept` says so of two stores, and `kept` shows it of
whatever a host does.
-/

set_option autoImplicit false

namespace DataBinding

namespace Store

variable {ρ σ : Type} {s s₁ s' : Store ρ σ}

/-- The journal has gone on, and what no event since has written is as it was. -/
def Kept (s s' : Store ρ σ) : Prop :=
  ∃ events, s'.journal = events ++ s.journal ∧
    s.model.Onward (fun p => ∃ event ∈ events, event.Writes p) s'.model

namespace Kept

/-- One event accounts for a change of what it writes. -/
theorem of_cons {event : Event} (hjournal : s'.journal = event :: s.journal)
    (honward : s.model.Onward event.Writes s'.model) : s.Kept s' :=
  ⟨[event], hjournal, honward.mono fun _ hp => ⟨event, List.mem_singleton_self _, hp⟩⟩

/-- Nothing was written at all. -/
theorem of_unwritten (events : List Event) (hjournal : s'.journal = events ++ s.journal)
    (honward : s.model.Onward (fun _ => False) s'.model) : s.Kept s' :=
  ⟨events, hjournal, honward.mono fun _ hp => hp.elim⟩

/-- Events that come without a change of the model keep everything. -/
theorem of_same (events : List Event) (hjournal : s'.journal = events ++ s.journal)
    (hmodel : s'.model = s.model) : s.Kept s' :=
  of_unwritten events hjournal (.of_eq hmodel)

/-- No change at all keeps everything. -/
theorem refl (s : Store ρ σ) : s.Kept s := of_same [] rfl rfl

/-- What two changes leave unwritten is kept by both together. -/
theorem trans (h₁ : s.Kept s₁) (h₂ : s₁.Kept s') : s.Kept s' := by
  obtain ⟨events₁, hjournal₁, honward₁⟩ := h₁
  obtain ⟨events₂, hjournal₂, honward₂⟩ := h₂
  refine ⟨events₂ ++ events₁, by rw [hjournal₂, hjournal₁, List.append_assoc], ?_⟩
  refine (honward₁.trans honward₂).mono fun p hp => ?_
  rcases hp with ⟨event, hevent, hwrites⟩ | ⟨event, hevent, hwrites⟩
  · exact ⟨event, List.mem_append_left _ hevent, hwrites⟩
  · exact ⟨event, List.mem_append_right _ hevent, hwrites⟩

/-- The journal only grows. -/
theorem suffix (h : s.Kept s') : s.journal <:+ s'.journal := by
  obtain ⟨events, hjournal, -⟩ := h
  exact ⟨events, hjournal.symm⟩

end Kept

/-- A store into a cell is in the journal. -/
theorem kept_storeCell (s : Store ρ σ) (cell : CellId) (value : Value) :
    s.Kept (s.storeCell cell value) :=
  .of_cons rfl (Model.onward_setCellValue s.model cell value)

/-- Subscriptions write no property. -/
theorem kept_subscribeAll (s : Store ρ σ) (cells : List CellId) (id : SubscriberId) :
    s.Kept (s.withModel fun m => cells.foldl (fun m cell => m.subscribe cell id) m) :=
  .of_unwritten [] rfl (Model.onward_foldl_subscribe cells id s.model)

/-- Every step writes what its events say. -/
theorem kept_step (hstep : Step s s') : s.Kept s' := by
  cases hstep with
  | noted | agreed | textWritten | valueWritten => exact .of_same [_] rfl rfl
  | delivered => exact .of_same [_, _] rfl rfl
  | made | abandoned => exact .of_unwritten [_] rfl (Model.onward_foldl_subscribe _ _ _)
  | storedPlain object key value hplain =>
    exact .of_cons rfl (Model.onward_putPlain s.model object key value hplain)
  | observed json =>
    exact .of_unwritten [] rfl (Model.onward_of_within (Model.observe_within json s.model))
  | newObject =>
    exact .of_unwritten [] rfl (Model.onward_of_within (.pushObject s.model []))
  | tracked cells =>
    unfold subscribeCollector
    split
    · exact .refl s
    · exact kept_subscribeAll s cells _
  | pruned cell => exact .of_unwritten [] rfl (Model.onward_updateSubscribers s.model cell _)
  | _ => exact .of_same [] rfl rfl

/-- Everything that a host does writes what its events say. -/
theorem kept : HostDiscipline (Kept : Store ρ σ → Store ρ σ → Prop) where
  toWriteDiscipline := .of_storing ⟨.refl, .trans, kept_step⟩ fun s cell value => kept_storeCell s cell value
  subscribed s cell id := kept_subscribeAll s [cell] id
  collected _ _ := .of_same [] rfl rfl
  activated _ _ _ := .of_same [] rfl rfl

end Store

end DataBinding
