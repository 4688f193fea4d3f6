import Mathlib.Data.List.Nodup
import DataBinding.Proofs.Json.Normal
import DataBinding.Proofs.Model.Alike

/-!
# Documents that a model holds

`Model.Holds m json value parts` says that a value stands for a document in a model: `json` is what is read
back from it, and `parts` are the objects, cells and arrays that it consists of, each named as often as the
value leads to it. A value stands for the same document as long as its parts are what they were, `Holds.frame`,
and following keys from it comes to what following them in the document comes to. Observing a document makes a
value that stands for its normal form out of new parts, each named once.
-/

set_option autoImplicit false

namespace DataBinding

/-- Something that a value of a model consists of. -/
inductive Part where
  | object (id : ObjectId)
  | cell (id : CellId)
  | array (id : ArrayId)
  deriving DecidableEq

/-- The position of an object among the objects of a model. -/
def Part.objectIndex? : Part → Option Nat
  | .object id => some id.index
  | _ => none

/-- What a slot consists of besides its value. -/
def Slot.parts : Slot → List Part
  | .reactive cell => [.cell cell]
  | .plain _ => []

/-- What a value consists of that is not an object. -/
def Value.parts : Value → List Part
  | .array id _ => [.array id]
  | _ => []

namespace Model

variable {m m' m'' : Model}

mutual

/-- A value stands for a document, and consists of these parts. -/
def Holds (m : Model) : Json → Value → List Part → Prop
  | .object members, value, parts =>
    ∃ id below, value = .object id ∧ parts = .object id :: below ∧
      m.HoldsAll members (m.fields id) below
  | json, value, parts => parts = value.parts ∧ m.toJson? 0 value = some json

/-- The slots of an object stand for the members of a document, one for each in the same order. -/
def HoldsAll (m : Model) : List (String × Json) → List (String × Slot) → List Part → Prop
  | [], fields, parts => fields = [] ∧ parts = []
  | (key, json) :: rest, fields, parts =>
    ∃ slot others here there, fields = (key, slot) :: others ∧
      parts = slot.parts ++ here ++ there ∧ m.Holds json (m.slotValue slot) here ∧
      m.HoldsAll rest others there

end

/-- What it is to stand for a document that is not an object. -/
theorem holds_leaf {json : Json} (h : json.isObject = false) (value : Value) (parts : List Part) :
    m.Holds json value parts ↔ parts = value.parts ∧ m.toJson? 0 value = some json := by
  cases json with
  | object members => cases h
  | _ => exact Iff.rfl

/-- What is written out on no levels does not depend on the model. -/
theorem toJson?_zero (m m' : Model) (value : Value) : m'.toJson? 0 value = m.toJson? 0 value := by
  cases value <;> rfl

/-- Objects are not written out on no levels. -/
theorem ne_object_of_toJson?_zero {value : Value} {json : Json} (h : m.toJson? 0 value = some json)
    (id : ObjectId) : value ≠ .object id := by
  rintro rfl
  cases h

/-- Whether a part is one of the model. -/
def Has (m : Model) : Part → Prop
  | .object id => id.index < m.objects.size
  | .cell id => id.index < m.cells.size
  | .array id => id.index < m.arrays

/-! ## The frame -/

/-- A part holds in another model what it holds in this one. An array never changes. -/
def SamePart (m m' : Model) : Part → Prop
  | .object id => m'.fields id = m.fields id
  | .cell id => (m'.cell id).value = (m.cell id).value
  | .array _ => True

/-- A slot whose parts are the same has the same value. -/
theorem slotValue_of_same {slot : Slot} (h : ∀ part ∈ slot.parts, SamePart m m' part) :
    m'.slotValue slot = m.slotValue slot := by
  cases slot with
  | reactive cell => exact h _ List.mem_cons_self
  | plain value => rfl

/-- Slots stand for members in another model if each value does and the cells of the slots are the same. -/
theorem HoldsAll.imp {members : List (String × Json)} {fields : List (String × Slot)}
    {parts : List Part} (h : m.HoldsAll members fields parts)
    (hsame : ∀ part ∈ parts, SamePart m m' part)
    (himp : ∀ entry ∈ members, ∀ {value here}, (∀ part ∈ here, SamePart m m' part) →
      m.Holds entry.2 value here → m'.Holds entry.2 value here) :
    m'.HoldsAll members fields parts := by
  induction members generalizing fields parts with
  | nil => exact h
  | cons entry rest ih =>
    obtain ⟨slot, others, here, there, rfl, rfl, hhere, hthere⟩ := h
    simp only [List.forall_mem_append] at hsame
    obtain ⟨⟨hslot, hsame⟩, hsame'⟩ := hsame
    refine ⟨slot, others, here, there, rfl, rfl, ?_,
      ih hthere hsame' fun entry hentry => himp entry (List.mem_cons_of_mem _ hentry)⟩
    rw [slotValue_of_same hslot]
    exact himp entry List.mem_cons_self hsame hhere

/-- A value stands for the same document wherever its parts are what they were. -/
theorem Holds.frame {json : Json} {value : Value} {parts : List Part} (h : m.Holds json value parts)
    (hsame : ∀ part ∈ parts, SamePart m m' part) : m'.Holds json value parts := by
  induction json using Json.induction generalizing value parts with
  | object members ih =>
    obtain ⟨id, below, rfl, rfl, hall⟩ := h
    obtain ⟨hid, hbelow⟩ := List.forall_mem_cons.1 hsame
    refine ⟨id, below, rfl, rfl, ?_⟩
    rw [show m'.fields id = m.fields id from hid]
    exact hall.imp hbelow fun entry hentry _ _ hhere hholds => ih entry hentry hholds hhere
  | _ => exact ⟨h.1, toJson?_zero m m' value ▸ h.2⟩

/-- Slots stand for the same members as long as their parts are the same. -/
theorem HoldsAll.frame {members : List (String × Json)} {fields : List (String × Slot)}
    {parts : List Part} (h : m.HoldsAll members fields parts)
    (hsame : ∀ part ∈ parts, SamePart m m' part) : m'.HoldsAll members fields parts :=
  h.imp hsame fun _ _ _ _ hhere hholds => hholds.frame hhere

/-! ## Reading -/

/-- Slots that stand for members have the keys of the members, in the same order. -/
theorem HoldsAll.keys {members : List (String × Json)} {fields : List (String × Slot)}
    {parts : List Part} (h : m.HoldsAll members fields parts) :
    fields.map Prod.fst = members.map Prod.fst := by
  induction members generalizing fields parts with
  | nil => rw [h.1, List.map_nil, List.map_nil]
  | cons entry rest ih =>
    obtain ⟨slot, others, here, there, rfl, rfl, -, hthere⟩ := h
    rw [List.map_cons, List.map_cons, ih hthere]

/-- One slot of an object taken apart from the others, and what there is once another one and another document
stand in its place. -/
theorem HoldsAll.zoom {members : List (String × Json)} {fields : List (String × Slot)}
    {parts : List Part} {key : String} {json : Json} (h : m.HoldsAll members fields parts)
    (hget : Keyed.get? key members = some json) :
    ∃ slot here aside, Keyed.get? key fields = some slot ∧ m.Holds json (m.slotValue slot) here ∧
      parts.Perm (slot.parts ++ here ++ aside) ∧
      ∀ {m' : Model} {slot' json' here'}, (∀ part ∈ aside, SamePart m m' part) →
        m'.Holds json' (m'.slotValue slot') here' →
        ∃ parts', parts'.Perm (slot'.parts ++ here' ++ aside) ∧
          m'.HoldsAll (Keyed.put key json' members) (Keyed.put key slot' fields) parts' := by
  -- The slot is the first one of its key, so the induction goes along both lists up to it.
  induction members generalizing fields parts with
  | nil => cases hget
  | cons entry rest ih =>
    obtain ⟨k, first⟩ := entry
    obtain ⟨slot, others, here, there, rfl, rfl, hhere, hthere⟩ := h
    unfold Keyed.get? at hget
    split at hget
    · next hkey =>
      cases hget
      refine ⟨slot, here, there, if_pos hkey, hhere, .refl _, fun {m' slot' json' here'} hsame h' => ?_⟩
      refine ⟨slot'.parts ++ here' ++ there, .refl _, ?_⟩
      unfold Keyed.put
      rw [if_pos hkey, if_pos hkey]
      exact ⟨slot', others, here', there, rfl, rfl, h', hthere.frame hsame⟩
    · next hkey =>
      obtain ⟨found, here', aside, hfound, hholds, hperm, hput⟩ := ih hthere hget
      refine ⟨found, here', slot.parts ++ here ++ aside, ?_, hholds, ?_, ?_⟩
      · unfold Keyed.get?
        rw [if_neg hkey]
        exact hfound
      · exact (hperm.append_left _).trans (List.perm_append_comm_assoc _ _ _)
      · intro m' slot' json' here'' hsame h'
        simp only [List.forall_mem_append] at hsame
        obtain ⟨⟨hslot, hhere'⟩, haside⟩ := hsame
        obtain ⟨parts', hperm', hall⟩ := hput haside h'
        refine ⟨slot.parts ++ here ++ parts', ?_, ?_⟩
        · exact (hperm'.append_left _).trans (List.perm_append_comm_assoc _ _ _)
        · unfold Keyed.put
          rw [if_neg hkey, if_neg hkey]
          refine ⟨slot, _, here, parts', rfl, rfl, ?_, hall⟩
          rw [slotValue_of_same hslot]
          exact hhere.frame hhere'

/-- Another slot and document at the end of an object. -/
theorem HoldsAll.put_new {members : List (String × Json)} {fields : List (String × Slot)}
    {parts here : List Part} {key : String} {json : Json} {slot : Slot}
    (h : m.HoldsAll members fields parts) (hget : Keyed.get? key members = none)
    (hsame : ∀ part ∈ parts, SamePart m m' part) (hholds : m'.Holds json (m'.slotValue slot) here) :
    m'.HoldsAll (Keyed.put key json members) (Keyed.put key slot fields)
      (parts ++ (slot.parts ++ here)) := by
  induction members generalizing fields parts with
  | nil =>
    obtain ⟨rfl, rfl⟩ := h
    exact ⟨slot, [], here, [], rfl, by simp, hholds, rfl, rfl⟩
  | cons entry rest ih =>
    obtain ⟨k, first⟩ := entry
    obtain ⟨other, others, here', there, rfl, rfl, hhere, hthere⟩ := h
    simp only [List.forall_mem_append] at hsame
    obtain ⟨⟨hslot, hhere'⟩, hthere'⟩ := hsame
    unfold Keyed.get? at hget
    split at hget
    · cases hget
    · next hkey =>
      unfold Keyed.put
      rw [if_neg hkey, if_neg hkey]
      refine ⟨other, _, here', there ++ (slot.parts ++ here), rfl, List.append_assoc _ _ _, ?_,
        ih hthere hget hthere'⟩
      rw [slotValue_of_same hslot]
      exact hhere.frame hhere'

/-- A key that the members lack is missing among the slots, and the other way round. -/
theorem HoldsAll.get?_eq_none_iff {members : List (String × Json)} {fields : List (String × Slot)}
    {parts : List Part} (h : m.HoldsAll members fields parts) (key : String) :
    Keyed.get? key fields = none ↔ Keyed.get? key members = none := by
  rw [Keyed.get?_eq_none_iff, Keyed.get?_eq_none_iff, h.keys]

/-- What a slot of an object stands for. -/
theorem HoldsAll.of_slot {members : List (String × Json)} {fields : List (String × Slot)}
    {parts : List Part} {key : String} {slot : Slot} (h : m.HoldsAll members fields parts)
    (hslot : Keyed.get? key fields = some slot) :
    ∃ json here, Keyed.get? key members = some json ∧ m.Holds json (m.slotValue slot) here ∧
      slot.parts ++ here ⊆ parts := by
  cases hget : Keyed.get? key members with
  | none =>
    rw [(h.get?_eq_none_iff key).2 hget] at hslot
    cases hslot
  | some json =>
    obtain ⟨slot', here, aside, hslot', hholds, hperm, -⟩ := h.zoom hget
    obtain rfl : slot' = slot := Option.some.inj (hslot'.symm.trans hslot)
    exact ⟨json, here, rfl, hholds, fun part hpart =>
      hperm.mem_iff.2 (List.mem_append_left aside hpart)⟩

/-- Following a key from anything but an object ends there, and the error names the key. -/
theorem followKeys_leaf {value : Value} (h : ∀ id, value ≠ .object id) (text key : String)
    (rest : List String) :
    m.followKeys text (key :: rest) value = ⟨[], .error (.pathResolution text key)⟩ := by
  cases value with
  | object id => exact absurd rfl (h id)
  | _ => rfl

/-- Keys lead from a value to what stands for the document that they lead to in its document, or fail in the
same way. -/
theorem Holds.followKeys {json : Json} {value : Value} {parts : List Part}
    (h : m.Holds json value parts) (text : String) (keys : List String) :
    SameOutcome (fun json' value' => ∃ here, here.Subperm parts ∧ m.Holds json' value' here)
      (Json.followKeys text keys json) (m.followKeys text keys value).outcome := by
  induction keys generalizing json value parts with
  | nil => exact .ok ⟨parts, .refl parts, h⟩
  | cons key rest ih =>
    cases hobject : json.isObject with
    | false =>
      rw [holds_leaf hobject] at h
      rw [Json.followKeys_missing (Json.member?_of_not_object hobject key),
        followKeys_leaf (ne_object_of_toJson?_zero h.2)]
      exact .error _
    | true =>
      cases json with
      | object members =>
        obtain ⟨id, below, rfl, rfl, hall⟩ := h
        cases hget : (Json.object members).member? key with
        | none =>
          have hslot : m.slot? id key = none := (hall.get?_eq_none_iff key).2 hget
          rw [Json.followKeys_missing hget, followKeys_missing hslot]
          exact .error _
        | some next =>
          obtain ⟨slot, here, aside, hslot, hholds, hperm, -⟩ := hall.zoom hget
          have hsub : here.Subperm (.object id :: below) := by
            refine List.Subperm.trans ?_ List.subperm_cons_self
            rw [hperm.subperm_left, List.append_assoc]
            exact (List.sublist_append_of_sublist_right (List.sublist_append_left here aside)).subperm
          rw [Json.followKeys_found hget, followKeys_slot hslot]
          obtain ⟨e, hjson, hmodel⟩ | ⟨json', value', hjson, hmodel, here', hsub', hholds'⟩ :=
            sameOutcome_iff.1 (ih hholds) <;> rw [hjson, hmodel]
          · exact .error e
          · exact .ok ⟨here', hsub'.trans hsub, hholds'⟩
      | _ => cases hobject

/-! ## Comparing -/

/-- An object that stands for a document is one of its own parts. -/
theorem Holds.object_mem {json : Json} {id : ObjectId} {parts : List Part}
    (h : m.Holds json (.object id) parts) : Part.object id ∈ parts := by
  cases hobject : json.isObject with
  | false => cases ((holds_leaf hobject _ _).1 h).2
  | true =>
    cases json with
    | object members =>
      obtain ⟨_, below, heq, rfl, -⟩ := h
      cases heq
      exact List.mem_cons_self
    | _ => cases hobject

/-- A value that is no object has only itself as a part, and is written out at once. -/
theorem Holds.leaf {json : Json} {value : Value} {parts : List Part} (h : m.Holds json value parts)
    (hvalue : value.object? = none) : parts = value.parts ∧ m.toJson? 0 value = some json := by
  cases json with
  | object members =>
    obtain ⟨id, below, rfl, -⟩ := h
    cases hvalue
  | _ => exact h

/-- Values that are strictly equal and share nothing stand for the same document. -/
theorem Holds.eq_of_strictEq {json json' : Json} {value value' : Value} {parts parts' : List Part}
    (h : m.Holds json value parts) (h' : m.Holds json' value' parts')
    (hdisjoint : parts.Disjoint parts') (heq : value.strictEq value' = true) : json = json' := by
  have hleaf : ∀ {value value' : Value}, m.Holds json value parts → m.Holds json' value' parts' →
      value.object? = none → value'.object? = none →
      m.toJson? 0 value = m.toJson? 0 value' → json = json' := by
    intro value value' h h' hvalue hvalue' hsame
    exact Option.some.inj ((h.leaf hvalue).2.symm.trans (hsame.trans (h'.leaf hvalue').2))
  cases value with
  -- Objects and arrays are equal only if they are the same one, and then they share it.
  | object id =>
    cases value' with
    | object id' =>
      obtain rfl : id = id' := eq_of_beq heq
      exact absurd h'.object_mem (hdisjoint h.object_mem)
    | _ => cases heq
  | array id items =>
    cases value' with
    | array id' items' =>
      obtain rfl : id = id' := eq_of_beq heq
      have hparts := (h.leaf rfl).1
      have hparts' := (h'.leaf rfl).1
      subst hparts hparts'
      exact absurd List.mem_cons_self (hdisjoint List.mem_cons_self)
    | _ => cases heq
  | number d =>
    cases value' with
    | number e =>
      refine hleaf h h' rfl rfl ?_
      simp only [toJson?, Json.ofDouble, JsonNumber.ofDouble?_of_numEq heq]
    | _ => cases heq
  | null =>
    cases value' with
    | null => exact hleaf h h' rfl rfl rfl
    | _ => cases heq
  | bool b =>
    cases value' with
    | bool c => exact hleaf h h' rfl rfl (by rw [eq_of_beq heq])
    | _ => cases heq
  | string text =>
    cases value' with
    | string text' => exact hleaf h h' rfl rfl (by rw [eq_of_beq heq])
    | _ => cases heq

/-! ## Reading back -/

/-- What is written out on no levels is written out the same on any number of levels. -/
theorem toJson?_leaf {value : Value} {json : Json} (h : m.toJson? 0 value = some json) (depth : Nat) :
    m.toJson? depth value = some json := by
  cases value with
  | object id => cases h
  | _ => cases depth <;> exact h

/-- Slots that stand for members are written out as the members, if each value is. -/
theorem HoldsAll.mapM {members : List (String × Json)} {fields : List (String × Slot)}
    {parts : List Part} (h : m.HoldsAll members fields parts) {depth : Nat}
    (hread : ∀ entry ∈ members, ∀ {value here}, here.Subperm parts → m.Holds entry.2 value here →
      m.toJson? depth value = some entry.2) :
    ((fields.map fun (key, slot) => (key, m.slotValue slot)).mapM fun (entry : String × Value) =>
      (m.toJson? depth entry.2).map fun json => (entry.1, json)) = some members := by
  induction members generalizing fields parts with
  | nil =>
    rw [h.1]
    rfl
  | cons entry rest ih =>
    obtain ⟨slot, others, here, there, rfl, rfl, hhere, hthere⟩ := h
    have hsub : here.Subperm (slot.parts ++ here ++ there) :=
      ((List.sublist_append_right slot.parts here).trans (List.sublist_append_left _ there)).subperm
    have hsub' : there.Subperm (slot.parts ++ here ++ there) :=
      (List.sublist_append_right _ there).subperm
    rw [List.map_cons, List.mapM_cons, hread entry List.mem_cons_self hsub hhere,
      ih hthere fun entry hentry _ _ hle =>
        hread entry (List.mem_cons_of_mem _ hentry) (hle.trans hsub')]
    rfl

/-- A value is read back as the document that it stands for, if objects may nest as deep as there are. -/
theorem Holds.toJson? {json : Json} {value : Value} {parts : List Part}
    (h : m.Holds json value parts) {depth : Nat}
    (hdepth : (parts.filterMap Part.objectIndex?).length ≤ depth) :
    m.toJson? depth value = some json := by
  induction json using Json.induction generalizing value parts depth with
  | object members ih =>
    obtain ⟨id, below, rfl, rfl, hall⟩ := h
    cases depth with
    | zero => cases hdepth
    | succ depth =>
      have hbelow : (below.filterMap Part.objectIndex?).length ≤ depth := Nat.le_of_succ_le_succ hdepth
      unfold Model.toJson?
      have hread : ∀ entry ∈ members, ∀ {value here}, here.Subperm below →
          m.Holds entry.2 value here → m.toJson? depth value = some entry.2 := by
        intro entry hentry value here hsub hholds
        refine ih entry hentry hholds (Nat.le_trans ?_ hbelow)
        rw [List.length_filterMap_eq_countP, List.length_filterMap_eq_countP]
        exact hsub.countP_le _
      rw [entries, hall.mapM hread]
      rfl
  | _ => exact toJson?_leaf h.2 depth

/-- Parts that are named once each have no more objects among them than the model has. -/
theorem length_objects_le {parts : List Part} (hnodup : parts.Nodup)
    (hhas : ∀ part ∈ parts, m.Has part) :
    (parts.filterMap Part.objectIndex?).length ≤ m.objects.size := by
  have hindices : (parts.filterMap Part.objectIndex?).Nodup := by
    refine hnodup.filterMap fun part part' index h h' => ?_
    cases part with
    | object id =>
      cases part' with
      | object id' =>
        cases id
        cases id'
        cases h
        cases h'
        rfl
      | _ => cases h'
    | _ => cases h
  have hsubset : parts.filterMap Part.objectIndex? ⊆ List.range m.objects.size := by
    intro index hindex
    obtain ⟨part, hpart, hsome⟩ := List.mem_filterMap.1 hindex
    cases part with
    | object id =>
      cases hsome
      exact List.mem_range.2 (hhas _ hpart)
    | _ => cases hsome
  simpa using (hindices.subperm hsubset).length_le

/-- A value that stands for a document is written out as that document: its objects are distinct, so there
are as many levels as are needed. -/
theorem Holds.json? {json : Json} {value : Value} {parts : List Part} (h : m.Holds json value parts)
    (hnodup : parts.Nodup) (hhas : ∀ part ∈ parts, m.Has part) : m.json? value = some json :=
  h.toJson? (Nat.le_succ_of_le (length_objects_le hnodup hhas))

/-! ## Observing -/

/-- A part of a model stays the same while the model only grows. -/
theorem Within.samePart (h : Within m m') {part : Part} (hhas : m.Has part) : SamePart m m' part := by
  cases part with
  | object id =>
    change m'.fields id = m.fields id
    unfold fields
    rw [Array.getD_eq_getD_getElem?, h.objects hhas, ← Array.getD_eq_getD_getElem?]
  | cell id =>
    change (m'.cell id).value = (m.cell id).value
    rw [cell_of_within h hhas]
  | array id => trivial

/-- A part of a model stays one while the model only grows. -/
theorem Within.has (h : Within m m') {part : Part} (hhas : m.Has part) : m'.Has part := by
  cases part with
  | object id => exact Nat.lt_of_lt_of_le hhas h.objects_le
  | cell id => exact Nat.lt_of_lt_of_le hhas h.cells_le
  | array id => exact Nat.lt_of_lt_of_le hhas h.arrays_le

/-- Parts that a model has got newly. -/
structure News (m m' : Model) (parts : List Part) : Prop where
  nodup : parts.Nodup
  has : ∀ part ∈ parts, m'.Has part
  new : ∀ part ∈ parts, ¬ m.Has part

/-- If there are no new parts, nothing is to be shown. -/
theorem News.nil (m m' : Model) : News m m' [] := ⟨.nil, nofun, nofun⟩

/-- What is new in a first step and what is new in a second are different parts. -/
theorem News.append {parts parts' : List Part} (h : News m m' parts) (h' : News m' m'' parts')
    (hwithin : Within m m') (hwithin' : Within m' m'') : News m m'' (parts ++ parts') where
  nodup := h.nodup.append h'.nodup fun part hpart hpart' => h'.new part hpart' (h.has part hpart)
  has := List.forall_mem_append.2 ⟨fun part hpart => hwithin'.has (h.has part hpart), h'.has⟩
  new := List.forall_mem_append.2
    ⟨h.new, fun part hpart hhas => h'.new part hpart (hwithin.has hhas)⟩

/-- The order of new parts does not matter. -/
theorem News.perm {parts parts' : List Part} (h : News m m' parts) (hperm : parts'.Perm parts) :
    News m m' parts' where
  nodup := hperm.nodup_iff.2 h.nodup
  has part hpart := h.has part (hperm.mem_iff.1 hpart)
  new part hpart := h.new part (hperm.mem_iff.1 hpart)

/-- A cell that is added is new. -/
theorem News.pushCell (m : Model) (cell : Cell) :
    News m { m with cells := m.cells.push cell } [.cell ⟨m.cells.size⟩] := by
  refine ⟨List.nodup_singleton _, ?_, ?_⟩ <;> simp [Has]

/-- An object that is added is new. -/
theorem News.pushObject (m : Model) (fields : List (String × Slot)) :
    News m { m with objects := m.objects.push fields } [.object ⟨m.objects.size⟩] := by
  refine ⟨List.nodup_singleton _, ?_, ?_⟩ <;> simp [Has]

/-- An array that is added is new. -/
theorem News.array (m : Model) : News m { m with arrays := m.arrays + 1 } [.array ⟨m.arrays⟩] := by
  refine ⟨List.nodup_singleton _, ?_, ?_⟩ <;> simp [Has]

/-- Members that are observed stand for their normal forms, with new parts, if each of them does. -/
theorem observeMembers_holds {members : List (String × Json)}
    (hmembers : ∀ entry ∈ members, ∀ m, ∃ parts, (observe entry.2 m).2.Holds entry.2.normalize
      (observe entry.2 m).1 parts ∧ News m (observe entry.2 m).2 parts) (m : Model) :
    ∃ parts, (observeMembers members m).2.HoldsAll (Json.normalizeMembers members)
      (observeMembers members m).1 parts ∧ News m (observeMembers members m).2 parts := by
  induction members generalizing m with
  | nil => exact ⟨[], ⟨rfl, rfl⟩, .nil m m⟩
  | cons entry rest ih =>
    obtain ⟨key, json⟩ := entry
    obtain ⟨hjson, hrest⟩ := List.forall_mem_cons.1 hmembers
    obtain ⟨here, hhere, hnews⟩ := hjson m
    have hwithin := observe_within json m
    generalize hobserve : observe json m = observed at hhere hnews hwithin
    obtain ⟨value, m₁⟩ := observed
    let m₂ : Model := { m₁ with cells := m₁.cells.push { value } }
    have hpush : Within m₁ m₂ := .pushCell m₁ { value }
    have hwithin' := observeMembers_within rest m₂
    obtain ⟨there, hthere, hnews'⟩ := ih hrest m₂
    generalize hobserve' : observeMembers rest m₂ = observed at hthere hnews' hwithin'
    obtain ⟨fields, m₃⟩ := observed
    have hcell : News m₁ m₂ [.cell ⟨m₁.cells.size⟩] := .pushCell m₁ { value }
    -- The cell is made between the first member and the others, and none of them writes it.
    have hvalue : m₃.slotValue (.reactive ⟨m₁.cells.size⟩) = value := by
      change (m₃.cell ⟨m₁.cells.size⟩).value = value
      rw [cell_of_within hwithin' (hcell.has _ List.mem_cons_self)]
      simp [cell, m₂, Array.getD_eq_getD_getElem?]
    have hboth : observeMembers ((key, json) :: rest) m =
        ((key, .reactive ⟨m₁.cells.size⟩) :: fields, m₃) := by
      simp only [observeMembers, hobserve]
      rw [show observeMembers rest { m₁ with cells := m₁.cells.push { value } } = (fields, m₃)
        from hobserve']
    rw [hboth]
    refine ⟨[.cell ⟨m₁.cells.size⟩] ++ here ++ there, ?_, ?_⟩
    · refine ⟨.reactive ⟨m₁.cells.size⟩, fields, here, there, rfl, rfl, ?_, hthere⟩
      rw [hvalue]
      exact hhere.frame fun part hpart =>
        (hpush.trans hwithin').samePart (hnews.has part hpart)
    · have hperm : ([Part.cell ⟨m₁.cells.size⟩] ++ here ++ there).Perm
          (here ++ [.cell ⟨m₁.cells.size⟩] ++ there) := List.perm_append_comm.append_right there
      have hall := (hnews.append hcell hwithin hpush).append hnews' (hwithin.trans hpush) hwithin'
      exact hall.perm hperm

/-- An observed document is held by new parts. What is read back from it is its normal form. -/
theorem observe_holds (json : Json) (m : Model) :
    ∃ parts, (observe json m).2.Holds json.normalize (observe json m).1 parts ∧
      News m (observe json m).2 parts := by
  induction json using Json.induction generalizing m with
  | number n =>
    exact ⟨[], (holds_leaf (Json.isObject_ofDouble n.toDouble) _ _).2 ⟨rfl, rfl⟩, .nil m m⟩
  | array items => exact ⟨[.array ⟨m.arrays⟩], ⟨rfl, rfl⟩, .array m⟩
  | object members ih =>
    obtain ⟨below, hall, hnews⟩ := observeMembers_holds ih m
    have hwithin := observeMembers_within members m
    generalize hobserve : observeMembers members m = observed at hall hnews hwithin
    obtain ⟨fields, m₁⟩ := observed
    have hpush : Within m₁ { m₁ with objects := m₁.objects.push fields } := .pushObject m₁ fields
    have hnew := hnews.append (.pushObject m₁ fields) hwithin hpush
    simp only [observe, hobserve]
    refine ⟨.object ⟨m₁.objects.size⟩ :: below, ⟨_, below, rfl, rfl, ?_⟩,
      hnew.perm (List.perm_append_singleton _ _).symm⟩
    have hfields : ({ m₁ with objects := m₁.objects.push fields } : Model).fields
        ⟨m₁.objects.size⟩ = fields := by
      simp [Model.fields, Array.getD_eq_getD_getElem?]
    rw [hfields]
    exact hall.frame fun part hpart => hpush.samePart (hnews.has part hpart)
  | _ => exact ⟨[], ⟨rfl, rfl⟩, .nil m m⟩

end Model

end DataBinding
