import DataBinding.Proofs.Model.Onward

/-!
# Paths to cells

A path leads to a cell if its last key is reactive. It can lead through the same cell before: then what is in
the cell leads back to itself. In a model without cycles this does not happen, so writing the cell does not
change where the path leads (`target?_of_onward`), and whoever reads the path reads the cell once
(`Acyclic.count_follow`).
-/

set_option autoImplicit false

namespace DataBinding.Model

/-- The cell that a write through a path goes to, if the property there is reactive. -/
def target? (m : Model) (path : Path) (root : Value) : Option CellId :=
  match (m.followKeys path.text path.parents root).outcome with
  | .ok (.object id) => m.cellAt? id path.last
  | _ => none

/-- No object is found by following keys from itself. -/
def Acyclic (m : Model) : Prop :=
  ∀ (id : ObjectId) (text : String) (keys : List String), keys ≠ [] →
    (m.followKeys text keys (.object id)).outcome ≠ .ok (.object id)

variable {m m' : Model} {root value : Value} {path : Path} {cell : CellId} {text : String}
  {keys : List String} {written : Property → Prop}

/-! ## Targets -/

/-- The cell behind a key is that of its reactive slot. -/
theorem cellAt?_eq_some_iff {object : ObjectId} {key : String} :
    m.cellAt? object key = some cell ↔ m.slot? object key = some (.reactive cell) := by
  unfold cellAt?
  constructor
  · intro h
    split at h
    · next found hslot => rw [hslot, Option.some.inj h]
    · cases h
  · intro h
    rw [h]

/-- What the target of a path is. -/
theorem target?_eq_some_iff : m.target? path root = some cell ↔
    ∃ id, (m.followKeys path.text path.parents root).outcome = .ok (.object id) ∧
      m.slot? id path.last = some (.reactive cell) := by
  unfold target?
  constructor
  · intro h
    split at h
    · next id hfound => exact ⟨id, hfound, cellAt?_eq_some_iff.1 h⟩
    · cases h
  · rintro ⟨id, hfound, hslot⟩
    rw [hfound]
    exact cellAt?_eq_some_iff.2 hslot

/-- Following one key more than leads to an object. -/
theorem followKeys_concat {last : String} {id : ObjectId}
    (hfound : (m.followKeys text keys root).outcome = .ok (.object id))
    (hslot : m.slot? id last = some (.reactive cell)) :
    m.followKeys text (keys ++ [last]) root =
      ⟨(m.followKeys text keys root).cells ++ [cell], .ok (m.cell cell).value⟩ := by
  induction keys generalizing root with
  | nil =>
    obtain rfl : root = .object id := Except.ok.inj hfound
    rw [List.nil_append, followKeys_reactive hslot]
    rfl
  | cons key rest ih =>
    cases root with
    | object first =>
      rw [List.cons_append]
      cases hfirst : m.slot? first key with
      | none =>
        rw [followKeys_missing hfirst] at hfound
        cases hfound
      | some slot =>
        cases slot with
        | reactive other =>
          rw [followKeys_reactive hfirst] at hfound ⊢
          rw [followKeys_reactive hfirst, ih hfound]
          rfl
        | plain value =>
          rw [followKeys_plain hfirst] at hfound ⊢
          rw [followKeys_plain hfirst, ih hfound]
    | _ => cases hfound

/-- What is read at a path to a cell. -/
theorem follow_of_target? (h : m.target? path root = some cell) :
    m.follow path root =
      ⟨(m.followKeys path.text path.parents root).cells ++ [cell], .ok (m.cell cell).value⟩ := by
  obtain ⟨id, hfound, hslot⟩ := target?_eq_some_iff.1 h
  exact followKeys_concat hfound hslot

/-- A path with a target leads to the value of the target. -/
theorem peek_of_target? (h : m.target? path root = some cell) :
    m.peek path root = .ok (m.cell cell).value := by
  unfold peek
  rw [follow_of_target? h]

/-- The target of a path is a cell of the model. -/
theorem lt_size_of_target? (hsound : m.Sound) (h : m.target? path root = some cell) :
    cell.index < m.cells.size := by
  obtain ⟨id, -, hslot⟩ := target?_eq_some_iff.1 h
  exact hsound id path.last cell hslot

/-! ## Writing where a path does not lead through -/

/-- A path that resolves leads through the same properties as long as none of them is written. -/
theorem trail_of_onward (h : Onward written m m') (hsound : m.Sound)
    (hfound : (m.followKeys text keys root).outcome = .ok value)
    (hstill : ∀ p ∈ m.trail keys root, ¬ written p) : m'.trail keys root = m.trail keys root := by
  induction keys generalizing root with
  | nil => rfl
  | cons key rest ih =>
    cases root with
    | object id =>
      cases hslot : m.slot? id key with
      | none =>
        rw [followKeys_missing hslot] at hfound
        cases hfound
      | some slot =>
        cases slot with
        | plain current =>
          rw [followKeys_plain hslot] at hfound
          rw [trail_plain hslot] at hstill ⊢
          obtain ⟨current', hslot', hsame⟩ := h.plain hslot
          obtain rfl := hsame (hstill _ List.mem_cons_self)
          rw [trail_plain hslot', ih hfound fun p hp => hstill p (List.mem_cons_of_mem _ hp)]
        | reactive other =>
          rw [followKeys_reactive hslot] at hfound
          rw [trail_reactive hslot] at hstill ⊢
          have hvalue := h.value (hsound id key other hslot) (hstill _ List.mem_cons_self)
          rw [trail_reactive (h.reactive hslot), hvalue,
            ih hfound fun p hp => hstill p (List.mem_cons_of_mem _ hp)]
    | _ => rfl

/-- A path goes on leading to its cell if nothing is written that it leads through before. -/
theorem target?_of_onward (h : Onward written m m') (hsound : m.Sound)
    (htarget : m.target? path root = some cell)
    (hstill : ∀ p ∈ m.trail path.parents root, ¬ written p) : m'.target? path root = some cell := by
  obtain ⟨id, hfound, hslot⟩ := target?_eq_some_iff.1 htarget
  refine target?_eq_some_iff.2 ⟨id, ?_, h.reactive hslot⟩
  exact followKeys_eq_of_onward h hsound path.text hfound
    (trail_of_onward h hsound hfound hstill ▸ hstill)

/-! ## Models without cycles -/

/-- Whoever is led somewhere through a cell is led there from what is in the cell. -/
theorem exists_rest_of_mem_trail (hfound : (m.followKeys text keys root).outcome = .ok value)
    (hmem : .cell cell ∈ m.trail keys root) :
    ∃ rest, (m.followKeys text rest (m.cell cell).value).outcome = .ok value := by
  induction keys generalizing root with
  | nil => cases hmem
  | cons key rest ih =>
    cases root with
    | object id =>
      cases hslot : m.slot? id key with
      | none =>
        rw [followKeys_missing hslot] at hfound
        cases hfound
      | some slot =>
        cases slot with
        | plain current =>
          rw [followKeys_plain hslot] at hfound
          rw [trail_plain hslot] at hmem
          rcases List.mem_cons.1 hmem with heq | hmem
          · cases heq
          · exact ih hfound hmem
        | reactive other =>
          rw [followKeys_reactive hslot] at hfound
          rw [trail_reactive hslot] at hmem
          rcases List.mem_cons.1 hmem with heq | hmem
          · cases heq
            exact ⟨rest, hfound⟩
          · exact ih hfound hmem
    | _ => cases hfound

/-- A cell that is read on the way is one that the path leads through. -/
theorem mem_trail_of_mem_cells (hmem : cell ∈ (m.followKeys text keys root).cells) :
    .cell cell ∈ m.trail keys root := by
  induction keys generalizing root with
  | nil => cases hmem
  | cons key rest ih =>
    cases root with
    | object id =>
      cases hslot : m.slot? id key with
      | none =>
        rw [followKeys_missing hslot] at hmem
        cases hmem
      | some slot =>
        cases slot with
        | plain current =>
          rw [followKeys_plain hslot] at hmem
          rw [trail_plain hslot]
          exact List.mem_cons_of_mem _ (ih hmem)
        | reactive other =>
          rw [followKeys_reactive hslot] at hmem
          rw [trail_reactive hslot]
          rcases List.mem_cons.1 hmem with rfl | hmem
          · exact List.mem_cons_self
          · exact List.mem_cons_of_mem _ (ih hmem)
    | _ => cases hmem

namespace Acyclic

/-- A path to a cell does not lead through the cell before. -/
theorem not_mem_trail (h : m.Acyclic) (htarget : m.target? path root = some cell) :
    .cell cell ∉ m.trail path.parents root := by
  intro hmem
  obtain ⟨id, hfound, hslot⟩ := target?_eq_some_iff.1 htarget
  obtain ⟨rest, hrest⟩ := exists_rest_of_mem_trail hfound hmem
  -- What is in the cell leads to the last object of the path, and so back to the cell.
  have hback := congrArg Reading.outcome (followKeys_concat hrest hslot)
  cases hvalue : (m.cell cell).value with
  | object first =>
    rw [hvalue] at hback
    exact h first path.text (rest ++ [path.last]) (by simp) hback
  | _ =>
    rw [hvalue] at hrest
    cases rest with
    | nil => cases hrest
    | cons key rest => cases hrest

/-- Whoever reads a path to a cell reads the cell once. -/
theorem count_follow (h : m.Acyclic) (htarget : m.target? path root = some cell) :
    (m.follow path root).cells.count cell = 1 := by
  have hbefore : cell ∉ (m.followKeys path.text path.parents root).cells := fun hmem =>
    h.not_mem_trail htarget (mem_trail_of_mem_cells hmem)
  rw [follow_of_target? htarget, List.count_append, List.count_eq_zero.2 hbefore, List.count_singleton_self]

end Acyclic

/-! ## Documents have no cycles -/

/-- What is under the keys of an object came before the object. -/
def Descending (m : Model) : Prop :=
  ∀ {object : ObjectId} {key : String} {slot : Slot} {child : ObjectId},
    m.slot? object key = some slot → m.slotValue slot = .object child → child.index < object.index

/-- Keys lead from an object to earlier ones. -/
theorem Descending.lt_of_followKeys (h : m.Descending) {id child : ObjectId} (hkeys : keys ≠ [])
    (hfound : (m.followKeys text keys (.object id)).outcome = .ok (.object child)) : child.index < id.index := by
  induction keys generalizing id with
  | nil => exact absurd rfl hkeys
  | cons key rest ih =>
    cases hslot : m.slot? id key with
    | none =>
      rw [followKeys_missing hslot] at hfound
      cases hfound
    | some slot =>
      rw [followKeys_slot hslot] at hfound
      cases rest with
      | nil => exact h hslot (Except.ok.inj hfound)
      | cons next rest =>
        cases hvalue : m.slotValue slot with
        | object between =>
          rw [hvalue] at hfound
          exact Nat.lt_trans (ih (List.cons_ne_nil next rest) hfound) (h hslot hvalue)
        | _ =>
          rw [hvalue] at hfound
          cases hfound

/-- Where everything under an object came before it, no way leads back to the object. -/
theorem Descending.acyclic (h : m.Descending) : m.Acyclic := fun _ _ _ hkeys hfound =>
  Nat.lt_irrefl _ (h.lt_of_followKeys hkeys hfound)

/-- An object whose values are there already can be added. -/
theorem descending_pushObject (h : m.Descending) {fields : List (String × Slot)}
    (hfields : ∀ key slot child, Keyed.get? key fields = some slot → m.slotValue slot = .object child →
      child.index < m.objects.size) :
    Descending { m with objects := m.objects.push fields } := by
  intro object key slot child hslot hvalue
  have hvalue : m.slotValue slot = .object child := by
    cases slot with
    | reactive cell => exact hvalue
    | plain value => exact hvalue
  simp only [slot?, Model.fields, Array.getD_eq_getD_getElem?, Array.getElem?_push] at hslot
  split at hslot
  · next hnew =>
    rw [hnew]
    exact hfields key slot child hslot hvalue
  · exact h (by simpa only [slot?, Model.fields, Array.getD_eq_getD_getElem?]) hvalue

/-- A new cell is behind no key yet, so it brings no child. -/
theorem descending_pushCell (h : m.Descending) (hsound : m.Sound) (cell : Cell) :
    Descending { m with cells := m.cells.push cell } := by
  intro object key slot child hslot hvalue
  cases slot with
  | plain value => exact h hslot hvalue
  | reactive other =>
    have hsame := cell_of_within (Within.pushCell m cell) (hsound object key other hslot)
    rw [slotValue, hsame] at hvalue
    exact h hslot hvalue

mutual

/-- A document that is observed adds no cycle, and if its value is an object it is there then. -/
theorem observe_descending : ∀ (json : Json) {m : Model}, m.Sound → m.Descending →
    (observe json m).2.Descending ∧
      ∀ child, (observe json m).1 = .object child → child.index < (observe json m).2.objects.size
  | .null, _, _, h => ⟨h, fun _ heq => by cases heq⟩
  | .bool _, _, _, h => ⟨h, fun _ heq => by cases heq⟩
  | .number _, _, _, h => ⟨h, fun _ heq => by cases heq⟩
  | .string _, _, _, h => ⟨h, fun _ heq => by cases heq⟩
  | .array _, _, _, h => ⟨h, fun _ heq => by cases heq⟩
  | .object members, m, hsound, h => by
    obtain ⟨hdescending, hfields⟩ := observeMembers_descending members hsound h
    refine ⟨descending_pushObject hdescending hfields, fun child heq => ?_⟩
    obtain rfl := Value.object.inj heq
    simp [observe]

/-- Members that are observed descend, and the objects among them came before any object that is made after
them. -/
theorem observeMembers_descending : ∀ (members : List (String × Json)) {m : Model}, m.Sound → m.Descending →
    (observeMembers members m).2.Descending ∧
      ∀ key slot child, Keyed.get? key (observeMembers members m).1 = some slot →
        (observeMembers members m).2.slotValue slot = .object child →
        child.index < (observeMembers members m).2.objects.size
  | [], _, _, h => ⟨h, fun _ _ _ hget => by cases hget⟩
  | (name, json) :: rest, m, hsound, h => by
    have hvalueSound := observe_sound json hsound
    obtain ⟨hvalue, hlt⟩ := observe_descending json hsound h
    obtain ⟨hrest, hfields⟩ := observeMembers_descending rest
      (sound_pushCell hvalueSound { value := (observe json m).1 }) (descending_pushCell hvalue hvalueSound _)
    have hwithin := observeMembers_within rest { (observe json m).2 with
      cells := (observe json m).2.cells.push { value := (observe json m).1 } }
    refine ⟨hrest, fun key slot child hget hchild => ?_⟩
    simp only [observeMembers, Keyed.get?] at hget
    split at hget
    · obtain rfl := Option.some.inj hget
      -- What the first member holds has not changed since it was observed.
      have hinside : (⟨(observe json m).2.cells.size⟩ : CellId).index <
          ((observe json m).2.cells.push { value := (observe json m).1 }).size := by simp
      have hcell := cell_of_within hwithin hinside
      have hobserved : (observe json m).1 = .object child := by
        rw [← hchild]
        simp only [observeMembers, slotValue, hcell]
        simp [Model.cell]
      exact Nat.lt_of_lt_of_le (hlt child hobserved) hwithin.objects_le
    · exact hfields key slot child hget hchild

end

/-- A document that is observed on its own has no cycles. -/
theorem acyclic_observe (json : Json) : (observe json {}).2.Acyclic := by
  have hsound : Sound {} := fun _ _ _ hslot => by cases hslot
  have hdescending : Descending {} := fun hslot => by cases hslot
  exact Descending.acyclic (observe_descending json hsound hdescending).1

end DataBinding.Model
