import DataBinding.Proofs.Model.Storing
import DataBinding.Proofs.Model.Subscribers
import DataBinding.Proofs.Model.Targets

/-!
# Keys and the cells behind them

An object keeps its keys in the order in which they came, and a key keeps the cell that is behind it. A key that
came after the object was made has no cell, and never gets one. `Model.Endures m m'` says so of an earlier and a
later model, and every operation of the model is shown to keep to it.

In a model that is `Owned` each reactive key has a cell of the model to itself. Observing a document keeps to this as
well: all objects that it makes have reactive keys only, with new cells that nobody is subscribed to.
-/

set_option autoImplicit false

namespace DataBinding.Model

variable {m m' m'' : Model}

/-- The keys of an object, in their order. -/
def keys (m : Model) (id : ObjectId) : List String := (m.fields id).map Prod.fst

/-- Objects stay. An object has the keys that it had, in their order, and new ones after them, and behind each key
there is the same cell as before, or none as before. -/
structure Endures (m m' : Model) : Prop where
  has : ∀ {id}, m.Has (.object id) → m'.Has (.object id)
  keys : ∀ {id}, m.Has (.object id) → m.keys id <+: m'.keys id
  nodup : ∀ {id}, m.Has (.object id) → (m.keys id).Nodup → (m'.keys id).Nodup
  cellAt? : ∀ {id}, m.Has (.object id) → ∀ key, m'.cellAt? id key = m.cellAt? id key

/-- Every reactive key has a cell of the model to itself. -/
structure Owned (m : Model) : Prop where
  has : ∀ {object key cell}, (key, Slot.reactive cell) ∈ m.fields object → m.Has (.cell cell)
  own : ∀ {object object' key key' cell}, (key, Slot.reactive cell) ∈ m.fields object →
    (key', Slot.reactive cell) ∈ m.fields object' → object = object' ∧ key = key'

/-! ## Keys -/

/-- There is no cell behind a key that is missing or plain. -/
theorem cellAt?_eq_none_iff {id : ObjectId} {key : String} :
    m.cellAt? id key = none ↔ ∀ cell, m.slot? id key ≠ some (.reactive cell) := by
  rw [Option.eq_none_iff_forall_ne_some]
  exact forall_congr' fun cell => not_congr cellAt?_eq_some_iff

/-- The keys of an object are those that have a slot. -/
theorem slot?_isSome_iff {id : ObjectId} {key : String} : (m.slot? id key).isSome ↔ key ∈ m.keys id := by
  rw [← Option.ne_none_iff_isSome]
  exact (not_congr Keyed.get?_eq_none_iff).trans not_not

/-- Slots with the same keys, each with the same cell or with none, have the same cells behind their keys. -/
theorem cellAt?_of_fields {id : ObjectId} (h : m'.fields id = m.fields id) (key : String) :
    m'.cellAt? id key = m.cellAt? id key := by
  unfold cellAt? slot?
  rw [h]

namespace Endures

/-- Every key of a model endures while nothing is done. -/
theorem refl (m : Model) : Endures m m := ⟨id, fun _ => List.prefix_rfl, fun _ => id, fun _ _ => rfl⟩

/-- What endures twice endures. -/
theorem trans (h₁ : Endures m m') (h₂ : Endures m' m'') : Endures m m'' where
  has hid := h₂.has (h₁.has hid)
  keys hid := (h₁.keys hid).trans (h₂.keys (h₁.has hid))
  nodup hid hnodup := h₂.nodup (h₁.has hid) (h₁.nodup hid hnodup)
  cellAt? hid key := (h₂.cellAt? (h₁.has hid) key).trans (h₁.cellAt? hid key)

/-- Objects that keep all their slots keep their keys. -/
theorem of_fields (hhas : ∀ {id}, m.Has (.object id) → m'.Has (.object id))
    (hfields : ∀ {id}, m.Has (.object id) → m'.fields id = m.fields id) : Endures m m' where
  has := hhas
  keys {id} hid := by
    have hkeys : m'.keys id = m.keys id := congrArg (List.map Prod.fst) (hfields hid)
    exact hkeys ▸ List.prefix_rfl
  nodup hid hnodup := by
    unfold Model.keys
    rwa [hfields hid]
  cellAt? hid key := cellAt?_of_fields (hfields hid) key

/-- Keys endure while a model only grows. -/
theorem of_within (h : Within m m') : Endures m m' := of_fields h.has h.samePart

/-- Keys endure a change of subscribers. -/
theorem updateSubscribers (m : Model) (cell : CellId) (f : List SubscriberId → List SubscriberId) :
    Endures m (m.updateSubscribers cell f) := of_fields id fun _ => rfl

/-- Keys endure a value that is stored in a cell. -/
theorem setCellValue (m : Model) (cell : CellId) (value : Value) : Endures m (m.setCellValue cell value) :=
  of_fields id fun _ => rfl

/-- A plain slot is stored where no cell is: the key is new and comes last, or its slot was plain. -/
theorem putPlain {id : ObjectId} {key : String} (hplain : m.cellAt? id key = none) (value : Value) :
    Endures m (m.putPlain id key value) := by
  have hhas : ∀ {other}, m.Has (.object other) → (m.putPlain id key value).Has (.object other) := fun hother => by
    simpa [Has, Model.putPlain] using hother
  -- The key had no cell before, and a plain slot has none either.
  have hcells : ∀ other key', (m.putPlain id key value).cellAt? other key' = m.cellAt? other key' := by
    intro other key'
    unfold Model.cellAt? at hplain ⊢
    rw [slot?_putPlain]
    by_cases hsame : id = other ∧ key = key' ∧ id.index < m.objects.size
    · rw [if_pos hsame]
      obtain ⟨rfl, rfl, -⟩ := hsame
      exact hplain.symm
    · rw [if_neg hsame]
  have hkeys : ∀ {other}, m.Has (.object other) → (m.putPlain id key value).keys other = m.keys other ∨
      key ∉ m.keys other ∧ (m.putPlain id key value).keys other = m.keys other ++ [key] := by
    intro other hother
    by_cases hid : id = other
    · subst hid
      have hfields := (stores_putPlain hother key value).fields_eq
      unfold Model.keys
      rw [hfields, Keyed.map_fst_put]
      split
      · exact .inl rfl
      · next hkey => exact .inr ⟨hkey, rfl⟩
    · left
      have hne : id.index ≠ other.index := fun heq => hid (by cases id; cases other; simp_all)
      unfold Model.keys Model.fields Model.putPlain
      simp [Array.getD_eq_getD_getElem?, Array.getElem?_modify, hne]
  refine ⟨hhas, fun hother => ?_, fun hother hnodup => ?_, fun _ key' => hcells _ key'⟩
  · rcases hkeys hother with heq | ⟨-, heq⟩
    · exact heq ▸ List.prefix_rfl
    · rw [heq]
      exact List.prefix_append _ _
  · rcases hkeys hother with heq | ⟨hnew, heq⟩
    · rwa [heq]
    · rw [heq]
      exact List.nodup_append_comm.1 (List.nodup_cons.2 ⟨hnew, hnodup⟩)

/-- A key that is plain stays plain. -/
theorem plain (h : Endures m m') {id : ObjectId} (hid : m.Has (.object id)) {key : String} {value : Value}
    (hslot : m.slot? id key = some (.plain value)) : ∃ value', m'.slot? id key = some (.plain value') := by
  have hkey : key ∈ m.keys id := slot?_isSome_iff.1 (by rw [hslot]; rfl)
  have hcell : m.cellAt? id key = none := cellAt?_eq_none_iff.2 fun cell hcell => by
    rw [hslot] at hcell
    cases hcell
  rw [← h.cellAt? hid key] at hcell
  obtain ⟨slot, hslot'⟩ := Option.isSome_iff_exists.1 (slot?_isSome_iff.2 ((h.keys hid).subset hkey))
  cases slot with
  | plain value' => exact ⟨value', hslot'⟩
  | reactive cell => exact absurd hslot' (cellAt?_eq_none_iff.1 hcell cell)

end Endures

/-! ## New objects -/

/-- Every object that is not in the first model has reactive keys only, and their cells are not in the first model. -/
def MadeReactive (m m' : Model) : Prop :=
  ∀ id : ObjectId, ¬ m.Has (.object id) → ∀ entry ∈ m'.fields id, ∃ cell, entry.2 = .reactive cell ∧
    ¬ m.Has (.cell cell) ∧ m'.Has (.cell cell)

/-- What is no object of the model has no fields. -/
theorem fields_of_not_has {id : ObjectId} (h : ¬ m.Has (.object id)) : m.fields id = [] := by
  unfold fields
  rw [Array.getD_eq_getD_getElem?, Array.getElem?_eq_none (Nat.le_of_not_lt h)]
  rfl

/-- The objects of a model that has been added to are those that were there, as they were, and new ones. -/
theorem madeReactive_of_objects (h : m'.objects = m.objects) : MadeReactive m m' := by
  intro id hid entry hentry
  have hfields : m'.fields id = [] := by
    refine fields_of_not_has ?_
    unfold Has
    rwa [h]
  rw [hfields] at hentry
  cases hentry

/-- Objects that are made in two goes have reactive keys only, if those of each go have. -/
theorem MadeReactive.trans (h₁ : MadeReactive m m') (h₂ : MadeReactive m' m'') (hin : Within m m')
    (hin' : Within m' m'') : MadeReactive m m'' := by
  intro id hid entry hentry
  by_cases hid' : m'.Has (.object id)
  · rw [show m''.fields id = m'.fields id from hin'.samePart hid'] at hentry
    obtain ⟨cell, heq, hnew, hhas⟩ := h₁ id hid entry hentry
    exact ⟨cell, heq, hnew, hin'.has hhas⟩
  · obtain ⟨cell, heq, hnew, hhas⟩ := h₂ id hid' entry hentry
    exact ⟨cell, heq, fun hcell => hnew (hin.has hcell), hhas⟩

/-- An object whose keys are all behind new cells has reactive keys only. -/
theorem madeReactive_pushObject {fields : List (String × Slot)} (h : MadeReactive m m')
    (hfields : ∀ entry ∈ fields, ∃ cell, entry.2 = .reactive cell ∧ ¬ m.Has (.cell cell) ∧ m'.Has (.cell cell)) :
    MadeReactive m { m' with objects := m'.objects.push fields } := by
  intro id hid entry hentry
  simp only [Model.fields, Array.getD_eq_getD_getElem?, Array.getElem?_push] at hentry
  split at hentry
  · exact hfields entry hentry
  · exact h id hid entry (by simpa only [Model.fields, Array.getD_eq_getD_getElem?])

mutual

/-- All objects that observing makes have reactive keys only, behind cells that it has made. -/
theorem observe_madeReactive : ∀ (json : Json) (m : Model), MadeReactive m (observe json m).2
  | .null, _ => madeReactive_of_objects rfl
  | .bool _, _ => madeReactive_of_objects rfl
  | .number _, _ => madeReactive_of_objects rfl
  | .string _, _ => madeReactive_of_objects rfl
  | .array _, _ => madeReactive_of_objects rfl
  | .object members, m =>
    madeReactive_pushObject (observeMembers_madeReactive members m).1 (observeMembers_madeReactive members m).2

/-- The same for members that are observed, together with the cells of the members themselves. -/
theorem observeMembers_madeReactive : ∀ (members : List (String × Json)) (m : Model),
    MadeReactive m (observeMembers members m).2 ∧ ∀ entry ∈ (observeMembers members m).1, ∃ cell,
      entry.2 = .reactive cell ∧ ¬ m.Has (.cell cell) ∧ (observeMembers members m).2.Has (.cell cell)
  | [], _ => ⟨madeReactive_of_objects rfl, fun _ hentry => absurd hentry List.not_mem_nil⟩
  | (key, json) :: rest, m => by
    let m₁ : Model := (observe json m).2
    let m₂ : Model := { m₁ with cells := m₁.cells.push { value := (observe json m).1 } }
    have hin : Within m m₁ := observe_within json m
    have hpush : Within m₁ m₂ := Within.pushCell m₁ _
    have hrest := observeMembers_within rest m₂
    have hpushed : MadeReactive m₁ m₂ := madeReactive_of_objects rfl
    obtain ⟨hmade, hentries⟩ := observeMembers_madeReactive rest m₂
    have hfirst := (observe_madeReactive json m).trans hpushed hin hpush
    refine ⟨hfirst.trans hmade (hin.trans hpush) hrest, fun entry hentry => ?_⟩
    rcases List.mem_cons.1 hentry with rfl | hentry
    · refine ⟨⟨m₁.cells.size⟩, rfl, Nat.not_lt_of_le hin.cells_le, ?_⟩
      exact Nat.lt_of_lt_of_le (by simp [m₂]) hrest.cells_le
    · obtain ⟨next, heq, hnew, hhas⟩ := hentries entry hentry
      exact ⟨next, heq, fun hcell => hnew ((hin.trans hpush).has hcell), hhas⟩

end

/-! ## Cells of one's own -/

/-- Slots whose cells are in the model, each behind one key only and behind no key of the model. -/
structure Spare (m : Model) (fields : List (String × Slot)) : Prop where
  has : ∀ {key cell}, (key, Slot.reactive cell) ∈ fields → m.Has (.cell cell)
  own : ∀ {key key' cell}, (key, Slot.reactive cell) ∈ fields → (key', Slot.reactive cell) ∈ fields → key = key'
  unused : ∀ {key cell}, (key, Slot.reactive cell) ∈ fields →
    ∀ object key', (key', Slot.reactive cell) ∉ m.fields object

/-- No slots take nothing of the model. -/
theorem spare_nil (m : Model) : m.Spare [] where
  has hentry := absurd hentry List.not_mem_nil
  own hentry := absurd hentry List.not_mem_nil
  unused hentry := absurd hentry List.not_mem_nil

/-- The fields of a new object are those it was made with; all other objects keep theirs. -/
theorem fields_pushObject (fields : List (String × Slot)) (object : ObjectId) :
    Model.fields { m with objects := m.objects.push fields } object =
      if object.index = m.objects.size then fields else m.fields object := by
  simp only [Model.fields, Array.getD_eq_getD_getElem?, Array.getElem?_push]
  split <;> rfl

/-- A slot after a plain value has been stored is that value, or was there before. -/
theorem mem_fields_putPlain {id object : ObjectId} {key : String} {value : Value} {entry : String × Slot}
    (h : entry ∈ (m.putPlain id key value).fields object) :
    object = id ∧ entry = (key, .plain value) ∨ entry ∈ m.fields object := by
  by_cases hid : id = object
  · subst hid
    by_cases hhas : m.Has (.object id)
    · rw [(stores_putPlain hhas key value).fields_eq] at h
      exact (Keyed.eq_or_mem_of_mem_put h).imp_left fun heq => ⟨rfl, heq⟩
    · rw [fields_of_not_has (by simpa [Has, putPlain] using hhas)] at h
      cases h
  · right
    have hne : id.index ≠ object.index := fun heq => hid (by cases id; cases object; simp_all)
    unfold fields putPlain at h
    simpa [fields, Array.getD_eq_getD_getElem?, Array.getElem?_modify, hne] using h

/-- The cell behind a key of a new object is new. -/
theorem MadeReactive.not_has (h : MadeReactive m m') {object : ObjectId} (hnew : ¬ m.Has (.object object))
    {key : String} {cell : CellId} (hentry : (key, Slot.reactive cell) ∈ m'.fields object) :
    ¬ m.Has (.cell cell) := by
  obtain ⟨found, heq, hfresh, -⟩ := h object hnew _ hentry
  cases heq
  exact hfresh

namespace Owned

/-- A model in which every reactive key has a cell of its own is sound. -/
theorem sound (h : m.Owned) : m.Sound := fun _ _ _ hslot => h.has (Keyed.mem_of_get? hslot)

/-- A cell is behind one key of one object. -/
theorem eq_of_slot? (h : m.Owned) {object object' : ObjectId} {key key' : String} {cell : CellId}
    (hslot : m.slot? object key = some (.reactive cell)) (hslot' : m.slot? object' key' = some (.reactive cell)) :
    object = object' ∧ key = key' :=
  h.own (Keyed.mem_of_get? hslot) (Keyed.mem_of_get? hslot')

/-- Cells stay owned while cells are only added and no reactive slot is new. -/
theorem of_fields (h : m.Owned) (hcells : m.cells.size ≤ m'.cells.size)
    (hfields : ∀ {object key cell}, (key, Slot.reactive cell) ∈ m'.fields object →
      (key, Slot.reactive cell) ∈ m.fields object) : m'.Owned where
  has hentry := Nat.lt_of_lt_of_le (h.has (hfields hentry)) hcells
  own hentry hentry' := h.own (hfields hentry) (hfields hentry')

/-- Cells stay owned whoever is subscribed to them. -/
theorem updateSubscribers (h : m.Owned) (cell : CellId) (f : List SubscriberId → List SubscriberId) :
    (m.updateSubscribers cell f).Owned := h.of_fields (by simp [Model.updateSubscribers]) id

/-- Cells stay owned whatever is stored in them. -/
theorem setCellValue (h : m.Owned) (cell : CellId) (value : Value) : (m.setCellValue cell value).Owned :=
  h.of_fields (by simp [Model.setCellValue]) id

/-- A new cell takes no other cell from its key. -/
theorem pushCell (h : m.Owned) (cell : Cell) : Owned { m with cells := m.cells.push cell } :=
  h.of_fields (by simp) id

/-- A plain value takes no cell from its key. -/
theorem putPlain (h : m.Owned) (id : ObjectId) (key : String) (value : Value) : (m.putPlain id key value).Owned := by
  refine h.of_fields (Nat.le_refl _) fun hentry => ?_
  rcases mem_fields_putPlain hentry with ⟨-, heq⟩ | hentry
  · cases heq
  · exact hentry

/-- A new object may take cells that no other key has. -/
theorem pushObject (h : m.Owned) {fields : List (String × Slot)} (hfields : m.Spare fields) :
    Owned { m with objects := m.objects.push fields } where
  has {object key cell} hentry := by
    rw [fields_pushObject] at hentry
    split at hentry
    · exact hfields.has hentry
    · exact h.has hentry
  own {object object' key key' cell} hentry hentry' := by
    rw [fields_pushObject] at hentry hentry'
    split at hentry <;> split at hentry'
    · next hnew hnew' =>
      refine ⟨?_, hfields.own hentry hentry'⟩
      cases object
      cases object'
      exact congrArg ObjectId.mk (hnew.trans hnew'.symm)
    · exact absurd hentry' (hfields.unused hentry object' key')
    · exact absurd hentry (hfields.unused hentry' object key)
    · exact h.own hentry hentry'

end Owned

mutual

/-- Every reactive key that observing makes has a cell to itself. The induction is on the document, together
with the one on its members. -/
theorem observe_owned : ∀ (json : Json) {m : Model}, m.Owned → (observe json m).2.Owned
  | .null, _, h => h
  | .bool _, _, h => h
  | .number _, _, h => h
  | .string _, _, h => h
  | .array _, _, h => h.of_fields (Nat.le_refl _) id
  | .object members, _, h => (observeMembers_owned members h).1.pushObject (observeMembers_owned members h).2

/-- The members of a document get cells that are behind no other key. -/
theorem observeMembers_owned : ∀ (members : List (String × Json)) {m : Model}, m.Owned →
    (observeMembers members m).2.Owned ∧ (observeMembers members m).2.Spare (observeMembers members m).1
  | [], _, h => ⟨h, spare_nil _⟩
  | (name, json) :: rest, m, h => by
    let m₁ : Model := (observe json m).2
    let m₂ : Model := { m₁ with cells := m₁.cells.push { value := (observe json m).1 } }
    let cell : CellId := ⟨m₁.cells.size⟩
    have howned : m₁.Owned := observe_owned json h
    have hcell : m₂.Has (.cell cell) := by simp [Has, m₂, cell]
    have hin := observeMembers_within rest m₂
    obtain ⟨hmade, hentries⟩ := observeMembers_madeReactive rest m₂
    obtain ⟨hrest, hspare⟩ := observeMembers_owned rest (m := m₂) (howned.pushCell _)
    -- The cell of the first member was made before those of the others, and after all objects of the model.
    have hother : ∀ {key}, (key, Slot.reactive cell) ∉ (observeMembers rest m₂).1 := by
      intro key hentry
      obtain ⟨found, heq, hnew, -⟩ := hentries _ hentry
      cases heq
      exact hnew hcell
    have hunused : ∀ object key, (key, Slot.reactive cell) ∉ (observeMembers rest m₂).2.fields object := by
      intro object key hentry
      by_cases hhas : m₂.Has (.object object)
      · rw [show (observeMembers rest m₂).2.fields object = m₂.fields object from hin.samePart hhas] at hentry
        exact Nat.lt_irrefl _ (howned.has hentry)
      · exact hmade.not_has hhas hentry hcell
    have hmem : ∀ {key found}, (key, Slot.reactive found) ∈ (observeMembers ((name, json) :: rest) m).1 →
        key = name ∧ found = cell ∨ (key, Slot.reactive found) ∈ (observeMembers rest m₂).1 := by
      intro key found hentry
      rcases List.mem_cons.1 hentry with heq | hentry
      · cases heq
        exact .inl ⟨rfl, rfl⟩
      · exact .inr hentry
    refine ⟨hrest, fun hfound => ?_, fun hfound hfound' => ?_, fun hfound => ?_⟩
    · rcases hmem hfound with ⟨-, rfl⟩ | hfound
      · exact hin.has hcell
      · exact hspare.has hfound
    · rcases hmem hfound with ⟨hname, rfl⟩ | hlater
      · rcases hmem hfound' with ⟨hname', -⟩ | hlater'
        · exact hname.trans hname'.symm
        · exact absurd hlater' hother
      · rcases hmem hfound' with ⟨-, rfl⟩ | hlater'
        · exact absurd hlater hother
        · exact hspare.own hlater hlater'
    · rcases hmem hfound with ⟨-, rfl⟩ | hfound
      · exact hunused
      · exact hspare.unused hfound

end

/-- The empty model has no cells to own. -/
theorem owned_empty : Owned {} where
  has {object key cell} hentry := by
    rw [fields_of_not_has (Nat.not_lt_zero _)] at hentry
    cases hentry
  own {object object' key key' cell} hentry := by
    rw [fields_of_not_has (Nat.not_lt_zero _)] at hentry
    cases hentry

end DataBinding.Model
