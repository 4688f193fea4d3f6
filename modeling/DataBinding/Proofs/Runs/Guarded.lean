import DataBinding.Proofs.Runs.Below

/-!
# Guarded runs

A guard lets no run write a value into an object that the value is or contains. If a guarded run comes back, the
guard had no occasion to interfere: the run without the guard comes to the same. No object contains itself at its
end then, nor at any store that it goes through.
-/

set_option autoImplicit false

namespace DataBinding

namespace Model

variable {m : Model} {id : ObjectId} {key : String} {value : Value}

/-- Every reactive key has a cell of its own, and no object contains itself. -/
structure Orderly (m : Model) : Prop where
  owned : m.Owned
  loopless : m.Loopless

/-- Storing a value keeps a model orderly if the value does not include the object where it goes. -/
theorem Orderly.store (h : m.Orderly) (hvalue : ¬ m.Includes value id) : (m.store id key value).Orderly :=
  ⟨h.owned.store id key value, h.loopless.store h.owned hvalue⟩

/-- Being orderly is durable: only a stored object could close a loop. -/
theorem durable_orderly : Durable Orderly where
  subscribers h cell f := ⟨h.owned.updateSubscribers cell f, h.loopless.of_alike (.updateSubscribers _ cell f)⟩
  observed h json := ⟨observe_owned json h.owned, h.loopless.observe h.owned json⟩
  newObject h := ⟨h.owned.pushObject (spare_nil _), h.loopless.newObject h.owned⟩
  leaf h id _ _ hleaf := h.store (not_includes_leaf hleaf id)

end Model

variable {ρ σ α : Type}

/-- An operation writes a value under a key of an object. -/
def Op.Places (m : Model) : Op ρ σ → ObjectId → Value → Prop
  | .assign path root written, id, value =>
    (m.followKeys path.text path.parents root).outcome = .ok (.object id) ∧ value = written
  | .setKey object _ written, id, value => id = object ∧ value = written
  | .setCell cell written, id, value => (∃ key, (key, Slot.reactive cell) ∈ m.fields id) ∧ value = written
  | _, _, _ => False

/-- An operation writes nothing into an object that is, or contains, this object. -/
def Op.ClosesNoLoop (m : Model) (op : Op ρ σ) : Prop := ∀ id value, op.Places m id value → ¬ m.Includes value id

open Classical in
/-- Carries out an operation, unless it closes a loop: then the guard lets nothing come back. -/
noncomputable def Run.guarded (respond : Respond ρ σ) (depth : Nat) (op : Op ρ σ) : Run ρ σ op.Answer := fun s =>
  if op.ClosesNoLoop s.model then perform respond depth op s else none

/-- What a host does when a reaction is called for, if each operation that it asks for is guarded. -/
noncomputable def Host.guarded (host : Host ρ σ) : Nat → Respond ρ σ
  | 0 => fun _ _ => Run.diverge
  | depth + 1 => fun reaction stimulus =>
    (host.script reaction stimulus).runWith (Run.guarded (host.guarded depth) depth)

/-- Runs a script of a host, and guards each operation that the script or a reaction asks for. -/
noncomputable def Script.runGuarded (host : Host ρ σ) (depth : Nat) (script : Script ρ σ α) : Run ρ σ α :=
  script.runWith (Run.guarded (host.guarded depth) depth)

/-- The guard lets an operation through that closes no loop. -/
theorem Run.guarded_eq {respond : Respond ρ σ} {depth : Nat} {op : Op ρ σ} {s : Store ρ σ}
    (h : op.ClosesNoLoop s.model) : guarded respond depth op s = perform respond depth op s := if_pos h

/-- What comes back from a guarded operation comes back without the guard. -/
theorem Run.guarded_below {respond₁ respond₂ : Respond ρ σ} (hrespond : Respond.Below Model.Orderly respond₁ respond₂)
    (depth : Nat) (op : Op ρ σ) {s : Store ρ σ} (hs : s.model.Orderly) :
    Below Model.Orderly s (guarded respond₁ depth op) (perform respond₂ depth op) := by
  intro result s' hrun
  unfold guarded at hrun
  split at hrun
  · next hguard =>
    refine perform_below Model.durable_orderly hs hrespond depth op ?_ ?_ ?_ result s' hrun
    · rintro path root value rfl id hfound
      refine (Model.durable_orderly.subscribeCollector hs _).store fun hincludes => ?_
      refine hguard id value ⟨hfound, rfl⟩ ?_
      unfold Store.subscribeCollector at hincludes
      split at hincludes
      · exact hincludes
      · exact (Model.includes_of_alike (.subscribeAll s.model _ _)).1 hincludes
    · rintro object key value rfl
      exact hs.store (hguard object value ⟨rfl, rfl⟩)
    · rintro cell value rfl
      exact ⟨hs.owned.setCellValue cell value,
        hs.loopless.setCellValue hs.owned fun id key hfield => hguard id value ⟨⟨key, hfield⟩, rfl⟩⟩
  · cases hrun

section Supervised

variable {R : Store ρ σ → Store ρ σ → Prop}
  (hR : ∀ u u' : Store ρ σ, u.model.Orderly → u'.model.Orderly → R u u')
  (instead : (op : Op ρ σ) → Run ρ σ op.Answer) (host : Host ρ σ)

include hR

/-- A guarded host is below the supervised one at every depth: what the guard lets through keeps the model
orderly, so no check fails. -/
theorem Host.guarded_below (depth : Nat) :
    Respond.Below Model.Orderly (host.guarded depth) (host.supervised R instead depth) := by
  induction depth with
  | zero => exact fun _ _ _ _ => Run.below_diverge _
  | succ depth ih =>
    intro reaction stimulus s hs
    refine Script.runWith_below (fun op u hu => ?_) _ hs
    exact Run.below_supervised hR hu (Run.guarded_below ih depth op hu) (instead op)

/-- A guarded run is below the supervised one. -/
theorem Script.runGuarded_below (depth : Nat) (script : Script ρ σ α) {s : Store ρ σ} (hs : s.model.Orderly) :
    Run.Below Model.Orderly s (script.runGuarded host depth) (script.runSupervised R instead host depth) := by
  refine Script.runWith_below (fun op u hu => ?_) script hs
  exact Run.below_supervised hR hu (Run.guarded_below (host.guarded_below hR instead depth) depth op hu) (instead op)

end Supervised

variable {host : Host ρ σ} {depth : Nat} {script : Script ρ σ α} {s s' t : Store ρ σ} {result : Except Error α}

/-- A guarded run that comes back is the run without the guard, and its model is orderly at the end. -/
theorem Script.run_of_runGuarded (hs : s.model.Orderly) (h : script.runGuarded host depth s = some (result, s')) :
    script.run host depth s = some (result, s') ∧ s'.model.Orderly := by
  have hplain : script.runSupervised (fun _ _ => True) (fun _ => Run.diverge) host depth s = script.run host depth s :=
    Script.run_supervised (P := fun _ => True) (Q := fun _ => True)
      ⟨fun _ => trivial, fun _ => trivial, fun _ _ => trivial, fun _ _ => trivial, fun _ _ _ => trivial⟩
      (fun _ _ _ _ _ _ _ _ _ _ => trivial) (host.asks_of_all fun _ => trivial) _ (script.asks_of_all fun _ => trivial)
      depth trivial
  rw [← hplain]
  exact script.runGuarded_below (fun _ _ _ _ => trivial) _ host depth hs _ _ h

/-- The model is orderly in every store that a guarded run goes through. -/
theorem Script.orderly_of_goesThrough (hs : s.model.Orderly)
    (h : script.runGuarded host depth s = some (result, s')) (hthrough : script.GoesThrough host depth s t) :
    t.model.Orderly := by
  rcases hthrough with rfl | hdiffers
  · exact hs
  · by_contra hbad
    -- Somebody who waits where the model is not orderly waits for nothing.
    refine hdiffers ?_
    have hwaits := script.runGuarded_below (R := fun u u' => u ≠ t ∧ u' ≠ t)
      (fun u u' hu hu' => ⟨fun heq => hbad (heq ▸ hu), fun heq => hbad (heq ▸ hu')⟩)
      (fun _ => Run.diverge) host depth hs _ _ h
    rw [hwaits.1, (Script.run_of_runGuarded hs h).1]

end DataBinding
