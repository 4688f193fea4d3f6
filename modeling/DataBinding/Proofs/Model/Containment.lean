import DataBinding.Proofs.Collecting
import DataBinding.Proofs.Loops
import DataBinding.Proofs.Model.Lookups

/-!
# Objects that contain each other

An object contains the objects that are under its keys, in cells and in plain fields alike. In a model that is
`Loopless` no object contains itself over any number of others. Storing a value in an object keeps this exactly
if the object is neither the value nor contained in it, and what is observed closes no loop either.

A value can be written out exactly if it is loopless itself, `LooplessAt`: a value whose objects nest at most so
deep is one that `NestsWithin` this depth, and the objects of a loopless value nest no deeper than there are
objects. So a model is loopless exactly if every value of it can be written out.
-/

set_option autoImplicit false

namespace DataBinding.Model

open Relation

variable {m m' : Model} {id o o' : ObjectId} {key : String} {value : Value}

/-- An object is under a key of another one. -/
def Contains (m : Model) (o o' : ObjectId) : Prop := ∃ key, (key, Value.object o') ∈ m.entries o

/-- No object contains itself, over any number of others. -/
def Loopless (m : Model) : Prop := ∀ o, ¬ TransGen m.Contains o o

/-- A value is an object, or contains it over any number of others. -/
def Includes (m : Model) (value : Value) (o : ObjectId) : Prop :=
  ∃ first, value = .object first ∧ ReflTransGen m.Contains first o

/-- A value that is no object includes none. -/
theorem not_includes_leaf (hleaf : value.object? = none) (o : ObjectId) : ¬ m.Includes value o := by
  rintro ⟨first, rfl, -⟩
  cases hleaf

/-- What is under a key of an object is what is in the slot of that key. -/
theorem mem_entries_iff {found : Value} :
    (key, found) ∈ m.entries o ↔ ∃ slot, (key, slot) ∈ m.fields o ∧ m.slotValue slot = found := by
  unfold entries
  simp only [List.mem_map, Prod.exists, Prod.mk.injEq]
  constructor
  · rintro ⟨k, slot, hentry, rfl, hvalue⟩
    exact ⟨slot, hentry, hvalue⟩
  · rintro ⟨slot, hentry, hvalue⟩
    exact ⟨key, slot, hentry, rfl, hvalue⟩

/-- What is no object of the model contains nothing. -/
theorem not_contains_of_not_has (h : ¬ m.Has (.object o)) : ¬ m.Contains o o' := by
  rintro ⟨key, hentry⟩
  obtain ⟨slot, hfield, -⟩ := mem_entries_iff.1 hentry
  rw [fields_of_not_has h] at hfield
  cases hfield

/-- Objects with the same slots, and the same values in them, contain the same. -/
theorem contains_congr (hfields : m'.fields o = m.fields o)
    (hvalue : ∀ entry ∈ m.fields o, m'.slotValue entry.2 = m.slotValue entry.2) :
    m'.Contains o o' ↔ m.Contains o o' := by
  have hentries : m'.entries o = m.entries o := by
    unfold entries
    rw [hfields]
    exact List.map_congr_left fun entry hentry => by simp only [hvalue entry hentry]
  unfold Contains
  rw [hentries]

/-- Models with the same values have the same containment. -/
theorem contains_of_alike (h : Alike m m') : m'.Contains o o' ↔ m.Contains o o' :=
  contains_congr (h.fields o) fun entry _ => h.slotValue entry.2

/-! ## Storing -/

/-- What an object contains once a cell has taken a value: what it contained, and the value if the cell is its own. -/
theorem contains_of_setCellValue {cell : CellId} (h : (m.setCellValue cell value).Contains o o') :
    m.Contains o o' ∨ (∃ key, (key, Slot.reactive cell) ∈ m.fields o) ∧ value = .object o' := by
  obtain ⟨key, hentry⟩ := h
  obtain ⟨slot, hfield, hfound⟩ := mem_entries_iff.1 hentry
  cases slot with
  | plain current => exact .inl ⟨key, mem_entries_iff.2 ⟨_, hfield, hfound⟩⟩
  | reactive found =>
    rw [slotValue, cell_setCellValue] at hfound
    split at hfound
    · next hsame =>
      obtain ⟨rfl, -⟩ := hsame
      exact .inr ⟨⟨key, hfield⟩, hfound⟩
    · exact .inl ⟨key, mem_entries_iff.2 ⟨_, hfield, hfound⟩⟩

/-- What an object contains once a value is stored: what it contained, and the value if it was stored there. -/
theorem contains_of_store (howned : m.Owned) (h : (m.store id key value).Contains o o') :
    m.Contains o o' ∨ o = id ∧ value = .object o' := by
  cases hcell : m.cellAt? id key with
  | some cell =>
    rw [store_reactive hcell] at h
    refine (contains_of_setCellValue h).imp_right fun ⟨⟨k, hfield⟩, hvalue⟩ => ⟨?_, hvalue⟩
    exact (howned.own hfield (Keyed.mem_of_get? (cellAt?_eq_some_iff.1 hcell))).1
  | none =>
    rw [store_plain hcell] at h
    obtain ⟨k, hentry⟩ := h
    obtain ⟨slot, hfield, hfound⟩ := mem_entries_iff.1 hentry
    rcases mem_fields_putPlain hfield with ⟨ho, heq⟩ | hfield
    · obtain ⟨rfl, rfl⟩ := Prod.mk.inj heq
      exact .inr ⟨ho, hfound⟩
    · refine .inl ⟨k, mem_entries_iff.2 ⟨slot, hfield, ?_⟩⟩
      cases slot <;> exact hfound

/-- Other objects contain what they contained. -/
theorem contains_store_of_ne (howned : m.Owned) (hother : o ≠ id) (h : m.Contains o o') :
    (m.store id key value).Contains o o' := by
  cases hcell : m.cellAt? id key with
  | some cell =>
    have hfields : (m.setCellValue cell value).fields o = m.fields o := rfl
    rw [store_reactive hcell]
    refine (contains_congr hfields fun entry hentry => ?_).2 h
    obtain ⟨k, slot⟩ := entry
    cases slot with
    | plain current => rfl
    | reactive found =>
      refine congrArg Cell.value ((cell_setCellValue m cell found value).trans (if_neg ?_))
      rintro ⟨rfl, -⟩
      exact hother (howned.own hentry (Keyed.mem_of_get? (cellAt?_eq_some_iff.1 hcell))).1
  | none =>
    rw [store_plain hcell]
    refine (contains_congr ?_ fun entry _ => ?_).2 h
    · have hne : id.index ≠ o.index := fun heq => hother (by cases id; cases o; simp_all)
      unfold putPlain fields
      simp [Array.getD_eq_getD_getElem?, Array.getElem?_modify, hne]
    · obtain ⟨k, slot⟩ := entry
      cases slot <;> rfl

/-- The object where a value is stored contains it. -/
theorem contains_store_self (howned : m.Owned) (hid : m.Has (.object id)) :
    (m.store id key (.object o)).Contains id o := by
  cases hcell : m.cellAt? id key with
  | some cell =>
    have hslot := Keyed.mem_of_get? (cellAt?_eq_some_iff.1 hcell)
    rw [store_reactive hcell]
    refine ⟨key, mem_entries_iff.2 ⟨.reactive cell, hslot, ?_⟩⟩
    rw [slotValue, cell_setCellValue, if_pos ⟨rfl, howned.has hslot⟩]
  | none =>
    rw [store_plain hcell]
    refine ⟨key, mem_entries_iff.2 ⟨.plain (.object o), Keyed.mem_of_get? ?_, rfl⟩⟩
    change (m.putPlain id key (.object o)).slot? id key = _
    rw [slot?_putPlain, if_pos ⟨rfl, rfl, hid⟩]

/-- What leads to an object before something is stored in it leads there after: the way need not go through
the object itself. -/
theorem reaches_store (howned : m.Owned) (h : ReflTransGen m.Contains o id) :
    ReflTransGen (m.store id key value).Contains o id := by
  induction h using ReflTransGen.head_induction_on with
  | refl => exact .refl
  | @head a b hstep _ ih =>
    by_cases ha : a = id
    · rw [ha]
    · exact .head (contains_store_of_ne howned ha hstep) ih

section Steps

/-! What an object contains later it contained before, or it is the one where a value was stored. -/

variable (hsteps : ∀ a b, m'.Contains a b → m.Contains a b ∨ a = id ∧ value = .object b)

include hsteps

/-- Whoever leads to the object where a value was stored led there before. -/
theorem reaches_of_steps (h : ReflTransGen m'.Contains o id) : ReflTransGen m.Contains o id := by
  induction h using ReflTransGen.head_induction_on with
  | refl => exact .refl
  | head hstep _ ih =>
    rcases hsteps _ _ hstep with hstep | ⟨rfl, -⟩
    · exact .head hstep ih
    · exact .refl

/-- A way was there before, or leads through the object where the value was stored and then on from the value. -/
theorem transGen_of_steps (h : TransGen m'.Contains o o') : TransGen m.Contains o o' ∨
    ReflTransGen m'.Contains o id ∧ ∃ first, value = .object first ∧ ReflTransGen m'.Contains first o' := by
  induction h with
  | single hstep =>
    rcases hsteps _ _ hstep with hstep | ⟨rfl, hvalue⟩
    · exact .inl (.single hstep)
    · exact .inr ⟨.refl, _, hvalue, .refl⟩
  | tail hway hstep ih =>
    rcases ih with hway' | ⟨hto, first, hvalue, hfrom⟩
    · rcases hsteps _ _ hstep with hstep' | ⟨rfl, hvalue⟩
      · exact .inl (.tail hway' hstep')
      · exact .inr ⟨hway.to_reflTransGen, _, hvalue, .refl⟩
    · exact .inr ⟨hto, first, hvalue, hfrom.tail hstep⟩

/-- A store that adds at most one containment closes no loop, if what is stored does not include the object. -/
theorem Loopless.of_steps (h : m.Loopless) (hvalue : ¬ m.Includes value id) : m'.Loopless := by
  intro o hloop
  rcases transGen_of_steps hsteps hloop with hloop | ⟨hto, first, rfl, hfrom⟩
  · exact h o hloop
  · exact hvalue ⟨first, rfl, reaches_of_steps hsteps (hfrom.trans hto)⟩

end Steps

/-- Storing a value in an object that it does not include closes no loop. -/
theorem Loopless.store (h : m.Loopless) (howned : m.Owned) (hvalue : ¬ m.Includes value id) :
    (m.store id key value).Loopless :=
  h.of_steps (fun _ _ => contains_of_store howned) hvalue

/-- Fewer containments have fewer loops. -/
theorem Loopless.of_contains (h : m.Loopless) (hsteps : ∀ a b, m'.Contains a b → m.Contains a b) : m'.Loopless :=
  fun o hloop => h o (TransGen.mono hsteps o o hloop)

/-- Storing a value in a cell closes no loop, wherever the cell is. -/
theorem Loopless.setCellValue (h : m.Loopless) (howned : m.Owned) {cell : CellId}
    (hvalue : ∀ id key, (key, Slot.reactive cell) ∈ m.fields id → ¬ m.Includes value id) :
    (m.setCellValue cell value).Loopless := by
  by_cases hused : ∃ id key, (key, Slot.reactive cell) ∈ m.fields id
  · obtain ⟨id, key, hfield⟩ := hused
    refine h.of_steps (fun a b hstep => ?_) (hvalue id key hfield)
    exact (contains_of_setCellValue hstep).imp_right fun ⟨⟨k, hfield'⟩, heq⟩ => ⟨(howned.own hfield' hfield).1, heq⟩
  · refine h.of_contains fun a b hstep => (contains_of_setCellValue hstep).resolve_right ?_
    exact fun ⟨⟨k, hfield⟩, _⟩ => hused ⟨a, k, hfield⟩

/-- Storing a value keeps a model loopless exactly if the object where it is stored is neither the value nor
contained in it. -/
theorem Loopless.store_iff (h : m.Loopless) (howned : m.Owned) (hid : m.Has (.object id)) :
    (m.store id key value).Loopless ↔ ¬ m.Includes value id := by
  refine ⟨?_, h.store howned⟩
  rintro hloopless ⟨first, rfl, hway⟩
  exact hloopless id (.head' (contains_store_self howned hid) (reaches_store howned hway))

/-! ## Adding objects -/

/-- The objects of the second model that are not in the first contain only such, and only earlier ones. -/
def Stacked (m m' : Model) : Prop :=
  ∀ o o', ¬ m.Has (.object o) → m'.Contains o o' → ¬ m.Has (.object o') ∧ o'.index < o.index

/-- What is in a slot of the model stays there while the model only grows. -/
theorem Owned.slotValue_of_within (h : m.Owned) (hin : Within m m') {entry : String × Slot}
    (hentry : entry ∈ m.fields o) : m'.slotValue entry.2 = m.slotValue entry.2 := by
  obtain ⟨key, slot⟩ := entry
  cases slot with
  | plain value => rfl
  | reactive cell => exact congrArg Cell.value (cell_of_within hin (h.has hentry))

/-- Objects that were there contain what they contained. -/
theorem Owned.contains_of_within (h : m.Owned) (hin : Within m m') (hhas : m.Has (.object o)) :
    m'.Contains o o' ↔ m.Contains o o' :=
  contains_congr (hin.samePart hhas) fun _ hentry => h.slotValue_of_within hin hentry

/-- No way leads back from objects that were added. -/
theorem Loopless.of_stacked (h : m.Loopless) (howned : m.Owned) (hin : Within m m') (hstacked : Stacked m m') :
    m'.Loopless := by
  intro o hloop
  by_cases hhas : m.Has (.object o)
  · have hold : ∀ {b}, TransGen m'.Contains o b → TransGen m.Contains o b ∨ ¬ m.Has (.object b) := by
      intro b hway
      induction hway with
      | single hstep => exact .inl (.single ((howned.contains_of_within hin hhas).1 hstep))
      | @tail b c _ hstep ih =>
        by_cases hb : m.Has (.object b)
        · have hway := ih.resolve_right (not_not.2 hb)
          exact .inl (.tail hway ((howned.contains_of_within hin hb).1 hstep))
        · exact .inr (hstacked b c hb hstep).1
    exact h o ((hold hloop).resolve_right (not_not.2 hhas))
  · have hnew : ∀ {b}, TransGen m'.Contains o b → ¬ m.Has (.object b) ∧ b.index < o.index := by
      intro b hway
      induction hway with
      | single hstep => exact hstacked _ _ hhas hstep
      | tail _ hstep ih =>
        obtain ⟨hb, hlt⟩ := ih
        obtain ⟨hc, hlt'⟩ := hstacked _ _ hb hstep
        exact ⟨hc, Nat.lt_trans hlt' hlt⟩
    exact Nat.lt_irrefl _ (hnew hloop).2

/-- Without new objects nothing has to be stacked. -/
theorem stacked_of_objects (h : m'.objects = m.objects) : Stacked m m' := by
  intro o o' hnew hcontains
  refine absurd hcontains (not_contains_of_not_has ?_)
  unfold Has
  rwa [h]

/-- Objects that are made in two goes are stacked, if those of each go are. -/
theorem Stacked.trans {m₁ : Model} (h₁ : Stacked m m₁) (h₂ : Stacked m₁ m') (hmade : MadeReactive m m₁)
    (hin : Within m m₁) (hin' : Within m₁ m') : Stacked m m' := by
  intro o o' hnew hcontains
  by_cases hhas : m₁.Has (.object o)
  · refine h₁ o o' hnew ((contains_congr (hin'.samePart hhas) fun entry hentry => ?_).1 hcontains)
    obtain ⟨cell, heq, -, hcell⟩ := hmade o hnew entry hentry
    rw [heq]
    exact congrArg Cell.value (cell_of_within hin' hcell)
  · obtain ⟨hnew', hlt⟩ := h₂ o o' hhas hcontains
    exact ⟨fun hold => hnew' (hin.has hold), hlt⟩

/-- A new object over objects that are new themselves is stacked on them. -/
theorem Stacked.pushObject (h : Stacked m m') {fields : List (String × Slot)}
    (hfields : ∀ entry ∈ fields, ∀ child, m'.slotValue entry.2 = .object child →
      ¬ m.Has (.object child) ∧ m'.Has (.object child)) :
    Stacked m { m' with objects := m'.objects.push fields } := by
  have hvalue : ∀ slot, slotValue { m' with objects := m'.objects.push fields } slot = m'.slotValue slot := by
    intro slot
    cases slot <;> rfl
  intro o o' hnew ⟨key, hentry⟩
  obtain ⟨slot, hfield, hfound⟩ := mem_entries_iff.1 hentry
  rw [hvalue] at hfound
  rw [fields_pushObject] at hfield
  split at hfield
  · next hindex =>
    obtain ⟨hchild, hhas⟩ := hfields _ hfield o' hfound
    exact ⟨hchild, hindex ▸ hhas⟩
  · exact h o o' hnew ⟨key, mem_entries_iff.2 ⟨slot, hfield, hfound⟩⟩

mutual

/-- A document that is observed becomes objects that contain only earlier ones of their own. -/
theorem observe_stacked : ∀ (json : Json) (m : Model), Stacked m (observe json m).2 ∧
    ∀ child, (observe json m).1 = .object child → ¬ m.Has (.object child) ∧ (observe json m).2.Has (.object child)
  | .null, _ => ⟨stacked_of_objects rfl, fun _ heq => by cases heq⟩
  | .bool _, _ => ⟨stacked_of_objects rfl, fun _ heq => by cases heq⟩
  | .number _, _ => ⟨stacked_of_objects rfl, fun _ heq => by cases heq⟩
  | .string _, _ => ⟨stacked_of_objects rfl, fun _ heq => by cases heq⟩
  | .array _, _ => ⟨stacked_of_objects rfl, fun _ heq => by cases heq⟩
  | .object members, m => by
    obtain ⟨hstacked, hfields⟩ := observeMembers_stacked members m
    refine ⟨hstacked.pushObject hfields, fun child heq => ?_⟩
    obtain rfl := Value.object.inj heq
    exact ⟨Nat.not_lt_of_le (observeMembers_within members m).objects_le, by simp [observe, Has]⟩

/-- Members that are observed are stacked, and the objects among them are new. -/
theorem observeMembers_stacked : ∀ (members : List (String × Json)) (m : Model),
    Stacked m (observeMembers members m).2 ∧ ∀ entry ∈ (observeMembers members m).1, ∀ child,
      (observeMembers members m).2.slotValue entry.2 = .object child →
        ¬ m.Has (.object child) ∧ (observeMembers members m).2.Has (.object child)
  | [], _ => ⟨stacked_of_objects rfl, fun _ hentry => absurd hentry List.not_mem_nil⟩
  | (name, json) :: rest, m => by
    let m₁ : Model := (observe json m).2
    let m₂ : Model := { m₁ with cells := m₁.cells.push { value := (observe json m).1 } }
    let cell : CellId := ⟨m₁.cells.size⟩
    have hin : Within m m₁ := observe_within json m
    have hpush : Within m₁ m₂ := Within.pushCell m₁ _
    have hrest := observeMembers_within rest m₂
    have hmade : MadeReactive m m₂ := (observe_madeReactive json m).trans (madeReactive_of_objects rfl) hin hpush
    obtain ⟨hvalue, hchild⟩ := observe_stacked json m
    obtain ⟨hothers, hchildren⟩ := observeMembers_stacked rest m₂
    have hpushed : Stacked m₁ m₂ := stacked_of_objects rfl
    have hfirst : Stacked m m₂ := hvalue.trans hpushed (observe_madeReactive json m) hin hpush
    refine ⟨hfirst.trans hothers hmade (hin.trans hpush) hrest, fun entry hentry child hfound => ?_⟩
    rcases List.mem_cons.1 hentry with rfl | hentry
    · -- What the first member holds has not changed since it was observed.
      have hcell : (observeMembers rest m₂).2.cell cell = m₂.cell cell := cell_of_within hrest (by simp [m₂, cell])
      have hobserved : (observe json m).1 = .object child := by
        change ((observeMembers rest m₂).2.cell cell).value = _ at hfound
        rw [← hfound, hcell]
        simp [Model.cell, m₂, cell]
      obtain ⟨hnew, hhas⟩ := hchild child hobserved
      exact ⟨hnew, hrest.has (hpush.has hhas)⟩
    · obtain ⟨hnew, hhas⟩ := hchildren entry hentry child hfound
      exact ⟨fun hold => hnew (hpush.has (hin.has hold)), hhas⟩

end

/-- Observing a document closes no loop. -/
theorem Loopless.observe (h : m.Loopless) (howned : m.Owned) (json : Json) : (Model.observe json m).2.Loopless :=
  h.of_stacked howned (observe_within json m) (observe_stacked json m).1

/-- An empty object closes no loop. -/
theorem Loopless.newObject (h : m.Loopless) (howned : m.Owned) : m.newObject.2.Loopless := by
  have hself : Stacked m m := stacked_of_objects rfl
  exact h.of_stacked howned (.pushObject m [])
    (hself.pushObject fun _ hentry => absurd hentry List.not_mem_nil)

/-- A model with the same values has no loops either. -/
theorem Loopless.of_alike (h : m.Loopless) (halike : Alike m m') : m'.Loopless :=
  h.of_contains fun _ _ => (contains_of_alike halike).1

/-- Models with the same values include the same objects in a value. -/
theorem includes_of_alike (h : Alike m m') : m'.Includes value o ↔ m.Includes value o := by
  have hsame : m'.Contains = m.Contains := funext₂ fun _ _ => propext (contains_of_alike h)
  unfold Includes
  rw [hsame]

/-- The empty model has no loops. -/
theorem loopless_empty : Loopless {} := by
  intro o hloop
  obtain ⟨_, hstep, -⟩ := TransGen.head'_iff.1 hloop
  exact not_contains_of_not_has (Nat.not_lt_zero _) hstep

/-! ## Writing values out -/

/-- The objects of a value nest at most so deep. -/
def NestsWithin (m : Model) : Nat → Value → Prop
  | 0, value => value.object? = none
  | depth + 1, value => ∀ o, value = .object o → ∀ entry ∈ m.entries o, m.NestsWithin depth entry.2

/-- A value is written out within some levels if and only if its objects nest no deeper. -/
theorem toJson?_isSome_iff (depth : Nat) (value : Value) :
    (m.toJson? depth value).isSome ↔ m.NestsWithin depth value := by
  induction depth generalizing value with
  | zero => cases value <;> simp [toJson?, NestsWithin, Value.object?]
  | succ depth ih =>
    cases value with
    | object o => simp [toJson?, NestsWithin, isSome_mapM, ih]
    | _ => simp [toJson?, NestsWithin]

/-- The objects of an object nest as deep as its containment does. -/
theorem nestsWithin_object {depth : Nat} : m.NestsWithin depth (.object o) ↔ Nests m.Contains depth o := by
  induction depth generalizing o with
  | zero => exact iff_of_false (fun h => nomatch h) id
  | succ depth ih =>
    constructor
    · rintro h o' ⟨key, hentry⟩
      exact ih.1 (h o rfl _ hentry)
    · rintro h _ ⟨⟩ ⟨key, value⟩ hentry
      cases value with
      | object o' => exact ih.2 (h o' ⟨key, hentry⟩)
      | _ => cases depth <;> simp [NestsWithin, Value.object?]

/-- No object that a value is or contains contains itself. -/
def LooplessAt (m : Model) (value : Value) : Prop := ∀ o, m.Includes value o → ¬ TransGen m.Contains o o

/-- A value that is no object has no loops. -/
theorem looplessAt_leaf (m : Model) (hleaf : value.object? = none) : m.LooplessAt value :=
  fun o hincludes => absurd hincludes (not_includes_leaf hleaf o)

/-- An object has no loops if and only if its containment has none from there. -/
theorem looplessAt_object : m.LooplessAt (.object o) ↔ LooplessFrom m.Contains o := by
  constructor
  · exact fun h o' hway => h o' ⟨o, rfl, hway⟩
  · rintro h o' ⟨_, ⟨⟩, hway⟩
    exact h o' hway

/-- A value has no loops if and only if its objects nest no deeper than there are objects. -/
theorem looplessAt_iff_nestsWithin : m.LooplessAt value ↔ m.NestsWithin m.depth value := by
  cases value with
  | object o =>
    have hindex : ObjectId.index.Injective := fun ⟨_⟩ ⟨_⟩ heq => congrArg ObjectId.mk heq
    have hsize : ∀ o o', m.Contains o o' → o.index < m.objects.size := fun o o' hstep =>
      by_contra fun hnot => not_contains_of_not_has hnot hstep
    rw [looplessAt_object, nestsWithin_object]
    exact looplessFrom_iff_nests hindex hsize
  | _ => exact iff_of_true (m.looplessAt_leaf rfl) (fun _ heq => nomatch heq)

/-- A value can be written out exactly if no object that it is or contains contains itself. -/
theorem looplessAt_iff_json? : m.LooplessAt value ↔ (m.json? value).isSome :=
  looplessAt_iff_nestsWithin.trans (toJson?_isSome_iff m.depth value).symm

/-- A model is loopless exactly if each of its values can be written out. -/
theorem loopless_iff_json? : m.Loopless ↔ ∀ value, (m.json? value).isSome := by
  simp only [← looplessAt_iff_json?]
  exact ⟨fun h _ o _ => h o, fun h o => h (.object o) o ⟨o, rfl, .refl⟩⟩

end DataBinding.Model
