import DataBinding.Model.Basic

/-!
# How a model changes over time

A path leads from property to property: through cells, and through plain fields of objects. Objects and
keys never disappear, a reactive key keeps its cell, and a property keeps its value until it is written.
`Model.Onward written m m'` says so of an earlier and a later model, where `written` are the properties
that were written in between, and every operation of the model is shown to lead onward.

The main statement is `followKeys_eq_of_onward`: a path that resolved earlier and that leads only
through properties that have not been written since leads to the same value now.
-/

set_option autoImplicit false

namespace DataBinding

/-- Something that a path leads through: a cell, or a plain field of an object. -/
inductive Property where
  | cell (id : CellId)
  | field (object : ObjectId) (key : String)
  deriving DecidableEq

namespace Model

/-- The properties that keys lead through, up to the end or to where they lead no further. -/
def trail (m : Model) : List String → Value → List Property
  | key :: rest, .object id =>
    match m.slot? id key with
    | none => []
    | some (.plain value) => .field id key :: m.trail rest value
    | some (.reactive cell) => .cell cell :: m.trail rest (m.cell cell).value
  | _, _ => []

/-- Every reactive key has a cell of the model. -/
def Sound (m : Model) : Prop :=
  ∀ object key cell, m.slot? object key = some (.reactive cell) → cell.index < m.cells.size

/-- What is still so in a later model, if only these properties were written in between. -/
structure Onward (written : Property → Prop) (m m' : Model) : Prop where
  cells_le : m.cells.size ≤ m'.cells.size
  reactive : ∀ {object key cell}, m.slot? object key = some (.reactive cell) →
    m'.slot? object key = some (.reactive cell)
  plain : ∀ {object key value}, m.slot? object key = some (.plain value) →
    ∃ value', m'.slot? object key = some (.plain value') ∧
      (¬ written (.field object key) → value' = value)
  value : ∀ {cell : CellId}, cell.index < m.cells.size → ¬ written (.cell cell) →
    (m'.cell cell).value = (m.cell cell).value

variable {m m' m'' : Model} {written written' : Property → Prop}

/-- A model leads to itself, with nothing written. -/
theorem Onward.refl (m : Model) : Onward (fun _ => False) m m where
  cells_le := Nat.le_refl _
  reactive h := h
  plain h := ⟨_, h, fun _ => rfl⟩
  value _ _ := rfl

/-- A way onward is one also if more is said to have been written. -/
theorem Onward.mono (h : Onward written m m') (hsub : ∀ p, written p → written' p) :
    Onward written' m m' where
  cells_le := h.cells_le
  reactive := h.reactive
  plain hslot := by
    obtain ⟨value', hslot', heq⟩ := h.plain hslot
    exact ⟨value', hslot', fun hn => heq fun hw => hn (hsub _ hw)⟩
  value hlt hn := h.value hlt fun hw => hn (hsub _ hw)

/-- A model that did not change leads onward whatever was written elsewhere. -/
theorem Onward.of_eq (h : m' = m) : Onward written m m' := by
  subst h
  exact (Onward.refl _).mono fun p hp => hp.elim

/-- Two ways onward make one, on which what was written on either was written. -/
theorem Onward.trans (h₁ : Onward written m m') (h₂ : Onward written' m' m'') :
    Onward (fun p => written' p ∨ written p) m m'' where
  cells_le := Nat.le_trans h₁.cells_le h₂.cells_le
  reactive hslot := h₂.reactive (h₁.reactive hslot)
  plain hslot := by
    obtain ⟨value', hslot', heq⟩ := h₁.plain hslot
    obtain ⟨value'', hslot'', heq'⟩ := h₂.plain hslot'
    refine ⟨value'', hslot'', fun hn => ?_⟩
    rw [heq' fun hw => hn (.inl hw), heq fun hw => hn (.inr hw)]
  value hlt hn := by
    rw [h₂.value (Nat.lt_of_lt_of_le hlt h₁.cells_le) fun hw => hn (.inl hw),
      h₁.value hlt fun hw => hn (.inr hw)]

/-! ## Following a path -/

section OneKey

variable {id : ObjectId} {key : String}

/-- A key that an object does not have ends the way, and the error names it. -/
theorem followKeys_missing (h : m.slot? id key = none) (text : String) (rest : List String) :
    m.followKeys text (key :: rest) (.object id) = ⟨[], .error (.pathResolution text key)⟩ := by
  rw [followKeys, h]

/-- A plain key is followed without reading a cell. -/
theorem followKeys_plain {value : Value} (h : m.slot? id key = some (.plain value)) (text : String)
    (rest : List String) :
    m.followKeys text (key :: rest) (.object id) = m.followKeys text rest value := by
  rw [followKeys, h]

/-- A reactive key is followed by reading its cell first, and then what is in it. -/
theorem followKeys_reactive {cell : CellId} (h : m.slot? id key = some (.reactive cell))
    (text : String) (rest : List String) :
    m.followKeys text (key :: rest) (.object id) =
      ⟨cell :: (m.followKeys text rest (m.cell cell).value).cells,
        (m.followKeys text rest (m.cell cell).value).outcome⟩ := by
  rw [followKeys, h]

/-- A key leads to what is in its slot, whichever kind of slot it is. -/
theorem followKeys_slot {slot : Slot} (h : m.slot? id key = some slot)
    (text : String) (rest : List String) :
    (m.followKeys text (key :: rest) (.object id)).outcome =
      (m.followKeys text rest (m.slotValue slot)).outcome := by
  cases slot with
  | reactive cell => rw [followKeys_reactive h]; rfl
  | plain value => rw [followKeys_plain h]; rfl

/-- A plain key leads through a field. -/
theorem trail_plain {value : Value} (h : m.slot? id key = some (.plain value))
    (rest : List String) :
    m.trail (key :: rest) (.object id) = .field id key :: m.trail rest value := by
  rw [trail, h]

/-- A reactive key leads through its cell. -/
theorem trail_reactive {cell : CellId} (h : m.slot? id key = some (.reactive cell))
    (rest : List String) :
    m.trail (key :: rest) (.object id) = .cell cell :: m.trail rest (m.cell cell).value := by
  rw [trail, h]

end OneKey

/-- A path that resolved and whose properties were not written since resolves to the same value. -/
theorem followKeys_eq_of_onward (h : Onward written m m') (hsound : m.Sound) (text : String)
    {keys : List String} {root value : Value}
    (hfound : (m.followKeys text keys root).outcome = .ok value)
    (hstill : ∀ p ∈ m'.trail keys root, ¬ written p) :
    (m'.followKeys text keys root).outcome = .ok value := by
  -- Each property on the way holds what it held, so the next key is followed from the same value.
  induction keys generalizing root with
  | nil => exact hfound
  | cons key rest ih =>
    cases root with
    | object id =>
      cases hslot : m.slot? id key with
      | none =>
        rw [followKeys_missing hslot] at hfound
        cases hfound
      | some slot =>
        cases slot with
        | plain current =>
          obtain ⟨current', hslot', heq⟩ := h.plain hslot
          rw [trail_plain hslot'] at hstill
          rw [followKeys_plain hslot] at hfound
          rw [followKeys_plain hslot']
          have hsame : current' = current := heq (hstill _ List.mem_cons_self)
          subst hsame
          exact ih hfound fun p hp => hstill p (List.mem_cons_of_mem _ hp)
        | reactive cell =>
          have hslot' := h.reactive hslot
          rw [trail_reactive hslot'] at hstill
          rw [followKeys_reactive hslot] at hfound
          rw [followKeys_reactive hslot']
          have hsame := h.value (hsound id key cell hslot) (hstill _ List.mem_cons_self)
          rw [hsame] at hstill ⊢
          exact ih hfound fun p hp => hstill p (List.mem_cons_of_mem _ hp)
    | _ => cases hfound

/-- Following a path reads cells of the model only. -/
theorem followKeys_cells_lt (hsound : m.Sound) (text : String) (keys : List String) (root : Value)
    {cell : CellId} (hcell : cell ∈ (m.followKeys text keys root).cells) :
    cell.index < m.cells.size := by
  induction keys generalizing root with
  | nil => cases hcell
  | cons key rest ih =>
    cases root with
    | object id =>
      cases hslot : m.slot? id key with
      | none =>
        rw [followKeys_missing hslot] at hcell
        cases hcell
      | some slot =>
        cases slot with
        | plain value =>
          rw [followKeys_plain hslot] at hcell
          exact ih value hcell
        | reactive first =>
          rw [followKeys_reactive hslot] at hcell
          rcases List.mem_cons.1 hcell with rfl | hcell
          · exact hsound id key cell hslot
          · exact ih _ hcell
    | _ => cases hcell

/-- A path still leads to the same value if nothing that it leads through was written. -/
theorem peek_eq_of_onward (h : Onward written m m') (hsound : m.Sound) {path : Path}
    {root value : Value} (hfound : m.peek path root = .ok value)
    (hstill : ∀ p ∈ m'.trail path.segments root, ¬ written p) : m'.peek path root = .ok value :=
  followKeys_eq_of_onward h hsound path.text hfound hstill

/-! ## Models that only grow -/

/-- All objects and cells of a model are in another one as they are. -/
structure Within (m m' : Model) : Prop where
  objects : ∀ {i : Nat}, i < m.objects.size → m'.objects[i]? = m.objects[i]?
  cells : ∀ {i : Nat}, i < m.cells.size → m'.cells[i]? = m.cells[i]?
  objects_le : m.objects.size ≤ m'.objects.size
  cells_le : m.cells.size ≤ m'.cells.size
  arrays_le : m.arrays ≤ m'.arrays

/-- A model is within itself. -/
theorem Within.refl (m : Model) : Within m m :=
  ⟨fun _ => rfl, fun _ => rfl, Nat.le_refl _, Nat.le_refl _, Nat.le_refl _⟩

/-- A model within a model that is within another one is within that. -/
theorem Within.trans (h₁ : Within m m') (h₂ : Within m' m'') : Within m m'' where
  objects hlt := (h₂.objects (Nat.lt_of_lt_of_le hlt h₁.objects_le)).trans (h₁.objects hlt)
  cells hlt := (h₂.cells (Nat.lt_of_lt_of_le hlt h₁.cells_le)).trans (h₁.cells hlt)
  objects_le := Nat.le_trans h₁.objects_le h₂.objects_le
  cells_le := Nat.le_trans h₁.cells_le h₂.cells_le
  arrays_le := Nat.le_trans h₁.arrays_le h₂.arrays_le

/-- A model is within the one that has a new object besides. -/
theorem Within.pushObject (m : Model) (fields : List (String × Slot)) :
    Within m { m with objects := m.objects.push fields } where
  objects hlt := by simp [Array.getElem?_push_lt hlt, Array.getElem?_eq_getElem hlt]
  cells _ := rfl
  objects_le := by simp
  cells_le := Nat.le_refl _
  arrays_le := Nat.le_refl _

/-- A model is within the one that has a new cell besides. -/
theorem Within.pushCell (m : Model) (cell : Cell) :
    Within m { m with cells := m.cells.push cell } where
  objects _ := rfl
  cells hlt := by simp [Array.getElem?_push_lt hlt, Array.getElem?_eq_getElem hlt]
  objects_le := Nat.le_refl _
  cells_le := by simp
  arrays_le := Nat.le_refl _

mutual

/-- Observing a document only adds to the model, by induction on the document. -/
theorem observe_within : ∀ (json : Json) (m : Model), Within m (observe json m).2
  | .null, m => Within.refl m
  | .bool _, m => Within.refl m
  | .number _, m => Within.refl m
  | .string _, m => Within.refl m
  | .array _, _ => ⟨fun _ => rfl, fun _ => rfl, Nat.le_refl _, Nat.le_refl _, Nat.le_succ _⟩
  | .object members, m =>
    Within.trans (observeMembers_within members m) (Within.pushObject _ _)

/-- Observing members only adds to the model. -/
theorem observeMembers_within :
    ∀ (members : List (String × Json)) (m : Model), Within m (observeMembers members m).2
  | [], _ => Within.refl _
  | (_, json) :: rest, m =>
    Within.trans (observe_within json m)
      (Within.trans (Within.pushCell _ _) (observeMembers_within rest _))

end

/-! ## Each operation leads onward and keeps the model sound -/

/-- What is under a key stays there while the model only grows. -/
theorem slot?_of_within (h : Within m m') {object : ObjectId} {key : String} {slot : Slot}
    (hslot : m.slot? object key = some slot) : m'.slot? object key = some slot := by
  unfold slot? fields at hslot ⊢
  by_cases hlt : object.index < m.objects.size
  · rw [Array.getD_eq_getD_getElem?, h.objects hlt, ← Array.getD_eq_getD_getElem?]
    exact hslot
  · rw [Array.getD_eq_getD_getElem?, Array.getElem?_eq_none (by omega)] at hslot
    cases hslot

/-- A cell of a model stays as it is while the model only grows. -/
theorem cell_of_within (h : Within m m') {cell : CellId} (hlt : cell.index < m.cells.size) :
    m'.cell cell = m.cell cell := by
  unfold Model.cell
  rw [Array.getD_eq_getD_getElem?, h.cells hlt, ← Array.getD_eq_getD_getElem?]

/-- While a model only grows, nothing is written. -/
theorem onward_of_within (h : Within m m') : Onward (fun _ => False) m m' where
  cells_le := h.cells_le
  reactive hslot := slot?_of_within h hslot
  plain hslot := ⟨_, slot?_of_within h hslot, fun _ => rfl⟩
  value hlt _ := by rw [cell_of_within h hlt]

/-- A change of the subscribers of a cell shows in the list of that cell only. -/
theorem cell_updateSubscribers (m : Model) (id cell : CellId)
    (f : List SubscriberId → List SubscriberId) :
    (m.updateSubscribers id f).cell cell =
      if id = cell ∧ id.index < m.cells.size then
        { m.cell cell with subscribers := f (m.cell cell).subscribers }
      else m.cell cell := by
  unfold Model.cell updateSubscribers
  simp only [Array.getD_eq_getD_getElem?, Array.getElem?_modify]
  by_cases hid : id = cell
  · subst hid
    by_cases hlt : id.index < m.cells.size
    · simp [hlt]
    · simp [hlt]
  · have hne : id.index ≠ cell.index := fun heq => hid (by cases id; cases cell; simp_all)
    simp [hid, hne]

/-- A value that is stored in a cell shows in that cell only. -/
theorem cell_setCellValue (m : Model) (id cell : CellId) (value : Value) :
    (m.setCellValue id value).cell cell =
      if id = cell ∧ id.index < m.cells.size then { m.cell cell with value } else m.cell cell := by
  unfold Model.cell setCellValue
  simp only [Array.getD_eq_getD_getElem?, Array.getElem?_modify]
  by_cases hid : id = cell
  · subst hid
    by_cases hlt : id.index < m.cells.size
    · simp [hlt]
    · simp [hlt]
  · have hne : id.index ≠ cell.index := fun heq => hid (by cases id; cases cell; simp_all)
    simp [hid, hne]

/-- A change of subscribers writes no value. -/
theorem onward_updateSubscribers (m : Model) (id : CellId)
    (f : List SubscriberId → List SubscriberId) :
    Onward (fun _ => False) m (m.updateSubscribers id f) where
  cells_le := by simp [updateSubscribers]
  reactive hslot := hslot
  plain hslot := ⟨_, hslot, fun _ => rfl⟩
  value _ _ := by
    rw [cell_updateSubscribers]
    split <;> rfl

/-- Storing a value in a cell writes that cell only. -/
theorem onward_setCellValue (m : Model) (id : CellId) (value : Value) :
    Onward (· = .cell id) m (m.setCellValue id value) where
  cells_le := by simp [setCellValue]
  reactive hslot := hslot
  plain hslot := ⟨_, hslot, fun _ => rfl⟩
  value _ hn := by
    rw [cell_setCellValue, if_neg]
    rintro ⟨rfl, -⟩
    exact hn rfl

/-- A plain value that is stored shows under its key only. -/
theorem slot?_putPlain (m : Model) (id object : ObjectId) (key other : String) (value : Value) :
    (m.putPlain id key value).slot? object other =
      if id = object ∧ key = other ∧ id.index < m.objects.size then some (.plain value)
      else m.slot? object other := by
  unfold slot? fields putPlain
  simp only [Array.getD_eq_getD_getElem?, Array.getElem?_modify]
  by_cases hid : id = object
  · subst hid
    by_cases hlt : id.index < m.objects.size
    · simp only [if_true, Array.getElem?_eq_getElem hlt, Option.map_some, Option.getD_some,
        Keyed.get?_put, hlt, true_and, and_true]
    · simp [hlt]
  · have hne : id.index ≠ object.index := fun heq => hid (by cases id; cases object; simp_all)
    simp [hid, hne]

/-- Storing a plain value under a key that is not reactive writes that field only. -/
theorem onward_putPlain (m : Model) (id : ObjectId) (key : String) (value : Value)
    (hplain : ∀ cell, m.slot? id key ≠ some (.reactive cell)) :
    Onward (· = .field id key) m (m.putPlain id key value) where
  cells_le := Nat.le_refl _
  reactive {object other cell} hslot := by
    rw [slot?_putPlain, if_neg]
    · exact hslot
    · rintro ⟨rfl, rfl, -⟩
      exact hplain cell hslot
  plain {object other current} hslot := by
    rw [slot?_putPlain]
    split
    · next hsame =>
      refine ⟨value, rfl, fun hn => absurd ?_ hn⟩
      rw [hsame.1, hsame.2.1]
    · exact ⟨current, hslot, fun _ => rfl⟩
  value _ _ := rfl

/-- A plain value brings no cell into the model. -/
theorem sound_putPlain (h : m.Sound) (id : ObjectId) (key : String) (value : Value) :
    (m.putPlain id key value).Sound := by
  intro object other cell hslot
  rw [slot?_putPlain] at hslot
  split at hslot
  · cases hslot
  · exact h object other cell hslot

/-- The cells of a model are its own whoever is subscribed to them. -/
theorem sound_updateSubscribers (h : m.Sound) (id : CellId)
    (f : List SubscriberId → List SubscriberId) : (m.updateSubscribers id f).Sound := by
  intro object key cell hslot
  simpa [updateSubscribers] using h object key cell hslot

/-- The cells of a model are its own whatever is in them. -/
theorem sound_setCellValue (h : m.Sound) (id : CellId) (value : Value) :
    (m.setCellValue id value).Sound := by
  intro object key cell hslot
  simpa [setCellValue] using h object key cell hslot

/-- An object whose reactive keys have cells of the model can be added to a sound model. -/
theorem sound_pushObject (h : m.Sound) {fields : List (String × Slot)}
    (hfields : ∀ key cell, Keyed.get? key fields = some (.reactive cell) →
      cell.index < m.cells.size) :
    Sound { m with objects := m.objects.push fields } := by
  intro object key cell hslot
  simp only [slot?, Model.fields, Array.getD_eq_getD_getElem?, Array.getElem?_push] at hslot
  split at hslot
  · exact hfields key cell hslot
  · exact h object key cell (by simpa only [slot?, Model.fields, Array.getD_eq_getD_getElem?])

/-- A new cell is one that no key has yet. -/
theorem sound_pushCell (h : m.Sound) (cell : Cell) :
    Sound { m with cells := m.cells.push cell } := by
  intro object key other hslot
  have hlt := h object key other hslot
  simp only [Array.size_push]
  omega

mutual

/-- Observing gives reactive keys the cells that it has made. The induction is on the document, together
with the one on its members. -/
theorem observe_sound : ∀ (json : Json) {m : Model}, m.Sound → (observe json m).2.Sound
  | .null, _, h => h
  | .bool _, _, h => h
  | .number _, _, h => h
  | .string _, _, h => h
  | .array _, _, h => h
  | .object members, _, h =>
    sound_pushObject (observeMembers_sound members h).1 (observeMembers_sound members h).2

/-- The members of a document become reactive keys with cells of the model. -/
theorem observeMembers_sound : ∀ (members : List (String × Json)) {m : Model}, m.Sound →
    (observeMembers members m).2.Sound ∧
      ∀ key cell, Keyed.get? key (observeMembers members m).1 = some (.reactive cell) →
        cell.index < (observeMembers members m).2.cells.size
  | [], _, h => ⟨h, fun _ _ hget => by cases hget⟩
  | (name, json) :: rest, m, h => by
    have hvalue := observe_sound json h
    have hrest := observeMembers_sound rest (sound_pushCell hvalue { value := (observe json m).1 })
    refine ⟨hrest.1, fun key cell hget => ?_⟩
    simp only [observeMembers, Keyed.get?] at hget
    split at hget
    · obtain rfl : CellId.mk (observe json m).2.cells.size = cell := by simpa using hget
      have hle := (observeMembers_within rest { (observe json m).2 with
        cells := (observe json m).2.cells.push { value := (observe json m).1 } }).cells_le
      simp only [Array.size_push] at hle
      exact hle
    · exact hrest.2 key cell hget

end

end Model

end DataBinding
