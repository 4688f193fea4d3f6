import DataBinding.Proofs.Model.Holding
import DataBinding.Proofs.Watching.TextWrites

/-!
# Leaves of a model

A leaf of a document is found, once the document is observed, in a cell of its own. As long as only leaves are
written, and only over leaves, the model keeps its shape: the same objects, and objects in the same cells. So
a path that led to a leaf goes on leading to the same cell, whatever is in the cell by then. A leaf can always
be shown, and how it is shown depends on the leaf alone.
-/

set_option autoImplicit false

namespace DataBinding

namespace Json

/-- Whether a path leads through a document to something that is not an object. -/
def isLeafAt (json : Json) (path : Path) : Bool :=
  match followKeys path.text path.segments json with
  | .ok found => !found.isObject
  | .error _ => false

/-- The normal form has the same keys, with the members in normal form. -/
theorem member?_normalize (json : Json) (key : String) :
    json.normalize.member? key = (json.member? key).map normalize := by
  cases hobject : json.isObject with
  | false =>
    rw [member?_of_not_object hobject, member?_of_not_object ((isObject_normalize json).trans hobject)]
    rfl
  | true =>
    cases json with
    | object members => exact get?_normalizeMembers key members
    | _ => cases hobject

/-- The normal form has the same paths, and normal forms where they lead. -/
theorem followKeys_normalize (text : String) (keys : List String) (json : Json) :
    followKeys text keys json.normalize = (followKeys text keys json).map normalize := by
  induction keys generalizing json with
  | nil => rfl
  | cons key rest ih =>
    have hmember := member?_normalize json key
    cases hget : json.member? key with
    | none =>
      rw [hget] at hmember
      rw [followKeys_missing hget, followKeys_missing hmember]
      rfl
    | some next =>
      rw [hget] at hmember
      rw [followKeys_found hget, followKeys_found hmember, ih next]

/-- The normal form has its leaves at the same paths. -/
theorem isLeafAt_normalize (json : Json) (path : Path) :
    json.normalize.isLeafAt path = json.isLeafAt path := by
  unfold isLeafAt
  rw [followKeys_normalize]
  cases followKeys path.text path.segments json with
  | error e => rfl
  | ok found => exact congrArg not (isObject_normalize found)

end Json

namespace Model

/-! ## The shape of a model -/

variable {m m' m'' : Model} {root : Value} {path : Path} {cell : CellId}

/-- Two models with the same objects, and with the same objects in the same cells. -/
structure SameShape (m m' : Model) : Prop where
  objects : m'.objects = m.objects
  size : m'.cells.size = m.cells.size
  object? : ∀ cell, (m'.cell cell).value.object? = (m.cell cell).value.object?

namespace SameShape

/-- Every model is of the same shape as itself. -/
theorem refl (m : Model) : SameShape m m := ⟨rfl, rfl, fun _ => rfl⟩

/-- To be of the same shape is transitive. -/
theorem trans (h₁ : SameShape m m') (h₂ : SameShape m' m'') : SameShape m m'' where
  objects := h₂.objects.trans h₁.objects
  size := h₂.size.trans h₁.size
  object? cell := (h₂.object? cell).trans (h₁.object? cell)

/-- Models that differ in lists of subscribers alone are of the same shape. -/
theorem of_alike (h : Alike m m') (hsize : m'.cells.size = m.cells.size) : SameShape m m' where
  objects := h.objects
  size := hsize
  object? cell := by rw [h.value]

/-- A change of a list of subscribers leaves the shape. -/
theorem updateSubscribers (m : Model) (id : CellId) (f : List SubscriberId → List SubscriberId) :
    SameShape m (m.updateSubscribers id f) :=
  .of_alike (.updateSubscribers m id f) (by simp [Model.updateSubscribers])

/-- A leaf is written over a leaf. -/
theorem setCellValue {value : Value} (hcell : (m.cell cell).value.object? = none)
    (hvalue : value.object? = none) : SameShape m (m.setCellValue cell value) where
  objects := rfl
  size := by simp [Model.setCellValue]
  object? other := by
    rw [cell_setCellValue]
    split
    · next hsame =>
      rw [← hsame.1]
      exact hvalue.trans hcell.symm
    · rfl

/-- Models of the same shape have the same slots. -/
theorem slot? (h : SameShape m m') (id : ObjectId) (key : String) : m'.slot? id key = m.slot? id key := by
  unfold Model.slot? Model.fields
  rw [h.objects]

/-- Models of the same shape have the same objects in the slots. -/
theorem slotValue (h : SameShape m m') (slot : Slot) :
    (m'.slotValue slot).object? = (m.slotValue slot).object? := by
  cases slot with
  | reactive cell => exact h.object? cell
  | plain value => rfl

/-- Keys that lead to an object lead to the same object in all models of the same shape. -/
theorem followKeys_object (h : SameShape m m') {text : String} {keys : List String} {id : ObjectId}
    {root root' : Value} (hroot : root'.object? = root.object?)
    (hfound : (m.followKeys text keys root).outcome = .ok (.object id)) :
    (m'.followKeys text keys root').outcome = .ok (.object id) := by
  induction keys generalizing root root' with
  | nil =>
    obtain rfl : root = .object id := Except.ok.inj hfound
    cases root' with
    | object id' => exact congrArg Except.ok (congrArg Value.object (Option.some.inj hroot))
    | _ => cases hroot
  | cons key rest ih =>
    cases root with
    | object first =>
      obtain rfl : root' = .object first := by
        cases root' with
        | object id' => exact congrArg Value.object (Option.some.inj hroot)
        | _ => cases hroot
      cases hslot : m.slot? first key with
      | none =>
        rw [followKeys_missing hslot] at hfound
        cases hfound
      | some slot =>
        rw [followKeys_slot hslot] at hfound
        rw [followKeys_slot ((h.slot? first key).trans hslot)]
        exact ih (h.slotValue slot) hfound
    | _ => cases hfound

/-- A path to a cell leads to the same cell in all models of the same shape. -/
theorem target? (h : SameShape m m') (htarget : m.target? path root = some cell) :
    m'.target? path root = some cell := by
  obtain ⟨id, hfound, hslot⟩ := target?_eq_some_iff.1 htarget
  exact target?_eq_some_iff.2 ⟨id, h.followKeys_object rfl hfound, (h.slot? id path.last).trans hslot⟩

end SameShape

/-! ## Paths to leaves -/

/-- A path leads to a cell of the model, and what is in the cell is not an object. -/
structure LeafAt (m : Model) (root : Value) (path : Path) (cell : CellId) : Prop where
  target : m.target? path root = some cell
  inside : cell.index < m.cells.size
  leaf : (m.cell cell).value.object? = none

/-- Models of the same shape have their leaves at the same paths. -/
theorem SameShape.leafAt (h : SameShape m m') (hleaf : m.LeafAt root path cell) :
    m'.LeafAt root path cell where
  target := h.target? hleaf.target
  inside := h.size ▸ hleaf.inside
  leaf := (h.object? cell).trans hleaf.leaf

namespace LeafAt

/-- What is found at a path to a leaf is in its cell. -/
theorem peek (h : m.LeafAt root path cell) : m.peek path root = .ok (m.cell cell).value :=
  peek_of_target? h.target

/-- Writing a cell changes what is at the paths that lead to it. -/
theorem peek_setCellValue {other : CellId} (h : m.LeafAt root path cell) {value : Value}
    (hother : (m.cell other).value.object? = none) (hvalue : value.object? = none) :
    (m.setCellValue other value).peek path root =
      .ok (if other = cell then value else (m.cell cell).value) := by
  have hshape : SameShape m (m.setCellValue other value) := .setCellValue hother hvalue
  rw [(hshape.leafAt h).peek, cell_setCellValue]
  by_cases hsame : other = cell
  · rw [if_pos ⟨hsame, hsame ▸ h.inside⟩, if_pos hsame]
  · rw [if_neg fun hboth => hsame hboth.1, if_neg hsame]

end LeafAt

/-! ## Observed documents -/

/-- Every key of every object is reactive. -/
def AllReactive (m : Model) : Prop := ∀ object key value, m.slot? object key ≠ some (.plain value)

/-- A new object without plain keys leaves every key reactive. -/
theorem allReactive_pushObject (h : m.AllReactive) {fields : List (String × Slot)}
    (hfields : ∀ key value, Keyed.get? key fields ≠ some (.plain value)) :
    AllReactive { m with objects := m.objects.push fields } := by
  intro object key value hslot
  simp only [slot?, Model.fields, Array.getD_eq_getD_getElem?, Array.getElem?_push] at hslot
  split at hslot
  · exact hfields key value hslot
  · exact h object key value (by simpa only [slot?, Model.fields, Array.getD_eq_getD_getElem?])

mutual

/-- An observed document has reactive keys only. -/
theorem observe_allReactive : ∀ (json : Json) {m : Model}, m.AllReactive →
    (observe json m).2.AllReactive
  | .null, _, h => h
  | .bool _, _, h => h
  | .number _, _, h => h
  | .string _, _, h => h
  | .array _, _, h => h
  | .object members, _, h =>
    allReactive_pushObject (observeMembers_allReactive members h).1
      (observeMembers_allReactive members h).2

/-- The same for the members of an object, none of which becomes plain. -/
theorem observeMembers_allReactive : ∀ (members : List (String × Json)) {m : Model}, m.AllReactive →
    (observeMembers members m).2.AllReactive ∧
      ∀ key value, Keyed.get? key (observeMembers members m).1 ≠ some (.plain value)
  | [], _, h => ⟨h, fun _ _ hget => by cases hget⟩
  | (name, json) :: rest, m, h => by
    have hvalue := observe_allReactive json h
    have hrest := observeMembers_allReactive rest
      (m := { (observe json m).2 with cells := (observe json m).2.cells.push { value := (observe json m).1 } })
      hvalue
    refine ⟨hrest.1, fun key value hget => ?_⟩
    simp only [observeMembers, Keyed.get?] at hget
    split at hget
    · cases hget
    · exact hrest.2 key value hget

end

/-- Keys that lead somewhere lead to an object before the last one. -/
theorem followKeys_before_last {text last : String} {keys : List String} {value : Value}
    (hfound : (m.followKeys text (keys ++ [last]) root).outcome = .ok value) :
    ∃ id slot, (m.followKeys text keys root).outcome = .ok (.object id) ∧
      m.slot? id last = some slot ∧ m.slotValue slot = value := by
  induction keys generalizing root with
  | nil =>
    cases root with
    | object id =>
      cases hslot : m.slot? id last with
      | none =>
        rw [List.nil_append, followKeys_missing hslot] at hfound
        cases hfound
      | some slot =>
        rw [List.nil_append, followKeys_slot hslot] at hfound
        exact ⟨id, slot, rfl, hslot, Except.ok.inj hfound⟩
    | _ => cases hfound
  | cons key rest ih =>
    cases root with
    | object first =>
      cases hslot : m.slot? first key with
      | none =>
        rw [List.cons_append, followKeys_missing hslot] at hfound
        cases hfound
      | some slot =>
        rw [List.cons_append, followKeys_slot hslot] at hfound
        rw [followKeys_slot hslot]
        exact ih hfound
    | _ => cases hfound

/-- Where a document has a leaf, a model that holds it and has only reactive keys has one, too. -/
theorem Holds.leafAt {json : Json} {parts : List Part} (hholds : m.Holds json root parts)
    (hsound : m.Sound) (hreactive : m.AllReactive) (hleaf : json.isLeafAt path = true) :
    ∃ cell, m.LeafAt root path cell := by
  unfold Json.isLeafAt at hleaf
  obtain ⟨e, hjson, -⟩ | ⟨found, value, hjson, hmodel, here, -, hfound⟩ :=
    sameOutcome_iff.1 (hholds.followKeys path.text path.segments)
  · rw [hjson] at hleaf
    cases hleaf
  · rw [hjson] at hleaf
    have hvalue : value.object? = none := by
      have hread := ((holds_leaf (Bool.not_eq_true' _ ▸ hleaf) value here).1 hfound).2
      cases value with
      | object id => exact absurd rfl (ne_object_of_toJson?_zero hread id)
      | _ => rfl
    obtain ⟨id, slot, hparents, hslot, rfl⟩ := followKeys_before_last hmodel
    cases slot with
    | plain value => exact absurd hslot (hreactive id path.last value)
    | reactive cell =>
      exact ⟨cell, target?_eq_some_iff.2 ⟨id, hparents, hslot⟩, hsound id path.last cell hslot, hvalue⟩

/-- Where a document has a leaf, the model has one once the document is observed. -/
theorem observe_leafAt {json : Json} (hleaf : json.isLeafAt path = true) :
    ∃ cell, (observe json {}).2.LeafAt (observe json {}).1 path cell := by
  have hempty : ∀ (object : ObjectId) (key : String), ({} : Model).slot? object key = none := fun _ _ => by
    simp [slot?, Model.fields, Keyed.get?]
  have hsound : Sound {} := fun object key cell hslot => by
    rw [hempty] at hslot
    cases hslot
  have hreactive : AllReactive {} := fun object key value hslot => by
    rw [hempty] at hslot
    cases hslot
  obtain ⟨parts, hholds, -⟩ := observe_holds json {}
  exact hholds.leafAt (observe_sound json hsound) (observe_allReactive json hreactive)
    ((Json.isLeafAt_normalize json path).trans hleaf)

/-! ## Showing leaves -/

/-- A leaf is shown as it is, whatever else is in the model. -/
theorem display?_leaf {value : Value} (h : value.object? = none) :
    ∃ text, ∀ m : Model, m.display? value = some text := by
  cases value with
  | null => exact ⟨_, fun _ => rfl⟩
  | bool value => cases value <;> exact ⟨_, fun _ => rfl⟩
  | number value => exact ⟨_, fun _ => rfl⟩
  | string text => exact ⟨_, fun _ => rfl⟩
  | array id items => exact ⟨_, fun _ => rfl⟩
  | object id => cases h

end Model

end DataBinding
