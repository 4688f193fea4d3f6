import DataBinding.Proofs.Model.Lookups
import DataBinding.Proofs.Model.Targets
import DataBinding.Proofs.Runs.Outcomes

/-!
# Where a write goes, and what comes of it

A write through a path or of a key goes to a cell if the property there is reactive. It does nothing if the
cell holds that value, and otherwise the value is stored, a cycle of notifications starts in
`Store.cycleStart`, and the write comes to what the cycle comes to.
-/

set_option autoImplicit false

namespace DataBinding

variable {ρ σ : Type}

/-! ## Targets -/

/-- The cell that an operation writes, and the value. -/
def Op.target? (m : Model) : Op ρ σ → Option (CellId × Value)
  | .assign path root value => (m.target? path root).map (·, value)
  | .setKey object key value => (m.cellAt? object key).map (·, value)
  | .setCell cell value => some (cell, value)
  | _ => none

namespace Run

variable {s s' : Store ρ σ} {tell : SubscriberId → Run ρ σ Unit} {cell : CellId} {value root : Value}
  {path : Path}

/-- A write through a path to a cell is a write of the cell. -/
theorem assign_eq_setCell (hidle : s.collector = none) (htarget : s.model.target? path root = some cell)
    (value : Value) : assign tell path root value s = setCell tell cell value s := by
  obtain ⟨id, hfound, hslot⟩ := Model.target?_eq_some_iff.1 htarget
  rw [assign_found hidle hfound, setKey_reactive hslot]

/-- An operation that writes a cell comes to what the write of the cell comes to. -/
theorem setCell_of_perform {respond : Respond ρ σ} {depth : Nat} {op : Op ρ σ} {outcome : Except Error op.Answer}
    (hidle : s.collector = none) (htarget : op.target? s.model = some (cell, value))
    (h : perform respond depth op s = some (outcome, s')) :
    ∃ result, setCell (update respond) cell value s = some (result, s') ∧
      ∀ e, outcome = .error e ↔ result = .error e := by
  cases op with
  | assign path root written =>
    obtain ⟨found, hfound, heq⟩ := Option.map_eq_some_iff.1 htarget
    obtain ⟨rfl, rfl⟩ := Prod.mk.inj heq
    exact ⟨outcome, (assign_eq_setCell hidle hfound written).symm.trans h, fun _ => .rfl⟩
  | setKey object key written =>
    obtain ⟨found, hfound, heq⟩ := Option.map_eq_some_iff.1 htarget
    obtain ⟨rfl, rfl⟩ := Prod.mk.inj heq
    exact ⟨outcome, (setKey_reactive (Model.cellAt?_eq_some_iff.1 hfound) written).symm.trans h,
      fun _ => .rfl⟩
  | setCell target written =>
    obtain ⟨rfl, rfl⟩ := Prod.mk.inj (Option.some.inj htarget)
    exact ⟨outcome, h, fun _ => .rfl⟩
  | _ => cases htarget

end Run

/-! ## Cycles -/

/-- The store in which the cycle of a stored value starts: whoever is not live is out of the list. -/
def Store.cycleStart (s : Store ρ σ) (cell : CellId) (value : Value) : Store ρ σ :=
  (s.storeCell cell value).withModel (·.updateSubscribers cell (·.filter s.isLive))

namespace Run

variable {s s' : Store ρ σ} {tell : SubscriberId → Run ρ σ Unit} {cell : CellId} {value : Value}

/-- The cycle of a stored value tells everybody who is in the list when it starts. -/
theorem notify_storeCell (tell : SubscriberId → Run ρ σ Unit) (cell : CellId) (value : Value) (s : Store ρ σ) :
    notify tell cell (s.storeCell cell value) =
      each ((s.cycleStart cell value).model.cell cell).subscribers (visit tell) (s.cycleStart cell value) := rfl

/-- A write that changes a cell goes on from where the value is stored. -/
theorem setCell_other (hother : (s.model.cell cell).value.strictEq value = false) :
    setCell tell cell value s =
      (do writing (notify tell cell); done true : Run ρ σ Bool) (s.storeCell cell value) := by
  unfold setCell
  rw [look_bind, if_neg (by rw [hother]; exact Bool.false_ne_true), change_bind]
  rfl

/-- A write that changes a cell comes back if its cycle does. -/
theorem setCell_changed (hother : (s.model.cell cell).value.strictEq value = false)
    (heach : each ((s.cycleStart cell value).model.cell cell).subscribers (visit tell)
      (s.cycleStart cell value) = some (.ok (), s')) :
    setCell tell cell value s = some (.ok true, s') := by
  rw [setCell_other hother, bind_apply]
  unfold writing
  rw [notify_storeCell, heach]
  rfl

end Run

/-- The write of a cell does nothing, or starts a cycle and comes to what the cycle comes to. -/
theorem Store.setCell_cases {s s' : Store ρ σ} {tell : SubscriberId → Run ρ σ Unit} {cell : CellId}
    {value : Value} {result : Except Error Bool} (hrun : Run.setCell tell cell value s = some (result, s')) :
    ((s.model.cell cell).value.strictEq value = true ∧ result = .ok false ∧ s' = s) ∨
      ∃ outcome s₁, Run.each ((s.cycleStart cell value).model.cell cell).subscribers
          (Run.visit tell) (s.cycleStart cell value) = some (outcome, s₁) ∧
        ((outcome = .ok () ∧ result = .ok true ∧ s' = s₁) ∨
          ∃ e, result = .error e ∧ s' = s₁.record (.writeFailed e)) := by
  cases hsame : (s.model.cell cell).value.strictEq value with
  | true =>
    rw [Run.setCell_same hsame] at hrun
    cases hrun
    exact .inl ⟨rfl, rfl, rfl⟩
  | false =>
    rw [Run.setCell_other hsame, Run.bind_apply] at hrun
    unfold Run.writing at hrun
    rw [Run.notify_storeCell] at hrun
    refine .inr ?_
    cases heach : Run.each ((s.cycleStart cell value).model.cell cell).subscribers
        (Run.visit tell) (s.cycleStart cell value) with
    | none =>
      rw [heach] at hrun
      cases hrun
    | some outcome =>
      obtain ⟨e | ⟨⟨⟩⟩, s₁⟩ := outcome
      · rw [heach] at hrun
        cases hrun
        exact ⟨_, _, rfl, .inr ⟨e, rfl, rfl⟩⟩
      · rw [heach] at hrun
        cases hrun
        exact ⟨_, _, rfl, .inl ⟨rfl, rfl, rfl⟩⟩

/-! ## Keys -/

/-- The store once a plain key has been stored. -/
def Store.storePlain (s : Store ρ σ) (id : ObjectId) (key : String) (value : Value) : Store ρ σ :=
  (s.withModel (·.putPlain id key value)).record (.storedPlain id key value)

/-- The store once a value is stored under a key of an object, before anybody is told. -/
def Store.storeKey (s : Store ρ σ) (id : ObjectId) (key : String) (value : Value) : Store ρ σ :=
  match s.model.cellAt? id key with
  | some cell => s.storeCell cell value
  | none => s.storePlain id key value

/-- The model once a value is stored under a key is that in which it is stored there. -/
theorem Store.model_storeKey (s : Store ρ σ) (id : ObjectId) (key : String) (value : Value) :
    (s.storeKey id key value).model = s.model.store id key value := by
  unfold storeKey Model.store
  cases s.model.cellAt? id key <;> rfl

namespace Run

/-- Writing a key without a cell comes to this, whatever telling a subscriber would do. -/
theorem setKey_plain {s : Store ρ σ} {id : ObjectId} {key : String} (hplain : s.model.cellAt? id key = none)
    (tell : SubscriberId → Run ρ σ Unit) (value : Value) :
    setKey tell id key value s =
      if (s.model.get? id key).any (·.strictEq value) then some (.ok false, s)
      else some (.ok true, s.storePlain id key value) := by
  unfold Model.get?
  cases hslot : s.model.slot? id key with
  | none =>
    rw [setKey_missing hslot]
    rfl
  | some slot =>
    cases slot with
    | reactive cell => exact absurd hslot (Model.cellAt?_eq_none_iff.1 hplain cell)
    | plain current =>
      have hany : ((some (.plain current)).map s.model.slotValue).any (·.strictEq value) = current.strictEq value := rfl
      rw [hany]
      cases hsame : current.strictEq value with
      | true => exact setKey_plain_same hslot hsame
      | false => exact setKey_plain_other hslot hsame

/-- Tells the subscribers of a cell, if there is one, that it was written. -/
def tellOf (tell : SubscriberId → Run ρ σ Unit) : Option CellId → Run ρ σ Unit
  | some cell => writing (notify tell cell)
  | none => done ()

/-- A write of a key stores the value before it does anything else, unless the value is there already. -/
theorem setKey_storeKey {s : Store ρ σ} {id : ObjectId} {key : String} {value : Value}
    (hother : ∀ current, s.model.get? id key = some current → current.strictEq value = false)
    (tell : SubscriberId → Run ρ σ Unit) :
    setKey tell id key value s =
      (do tellOf tell (s.model.cellAt? id key); done true : Run ρ σ Bool) (s.storeKey id key value) := by
  unfold Store.storeKey
  cases hcell : s.model.cellAt? id key with
  | some cell =>
    have hslot := Model.cellAt?_eq_some_iff.1 hcell
    have hget : s.model.get? id key = some (s.model.cell cell).value := by
      unfold Model.get?
      rw [hslot]
      rfl
    rw [setKey_reactive hslot, setCell_other (hother _ hget)]
    rfl
  | none =>
    rw [setKey_plain hcell, if_neg]
    · rfl
    · rw [Option.any_eq_true]
      rintro ⟨current, hget, hsame⟩
      rw [hother current hget] at hsame
      cases hsame

end Run

end DataBinding
