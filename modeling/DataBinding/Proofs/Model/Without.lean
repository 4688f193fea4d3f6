import DataBinding.Model.Inspect
import DataBinding.Proofs.Model.Alike

/-!
# Models without some of their entries

`Model.without m gone` is the model from whose lists the entries of some subscribers are taken out. It holds
the same values, so whatever is read from it is the same, and it goes along with everything that is done to
the model: taking the entries out first and last comes to the same, as long as none of those subscribers is
subscribed in between.
-/

set_option autoImplicit false

namespace DataBinding

/-- The cell without the entries of some subscribers. -/
def Cell.without (cell : Cell) (gone : SubscriberId → Bool) : Cell :=
  { cell with subscribers := cell.subscribers.filter fun id => !gone id }

namespace Model

/-- The model without the entries of some subscribers. -/
def without (m : Model) (gone : SubscriberId → Bool) : Model :=
  { m with cells := m.cells.map (·.without gone) }

variable {m m' : Model} {gone gone' : SubscriberId → Bool}

/-- A cell of the model without some subscribers is the cell without them. -/
theorem cell_without (m : Model) (gone : SubscriberId → Bool) (id : CellId) :
    (m.without gone).cell id = (m.cell id).without gone := by
  unfold cell without
  simp only [Array.getD_eq_getD_getElem?, Array.getElem?_map]
  cases m.cells[id.index]? <;> rfl

/-- Taking entries out changes no value. -/
theorem alike_without (m : Model) (gone : SubscriberId → Bool) : Alike m (m.without gone) where
  objects := rfl
  value id := by
    rw [cell_without]
    rfl

/-- Models that differ in their cells at most are the same if their cells are. -/
theorem eq_of_cells (hobjects : m'.objects = m.objects) (harrays : m'.arrays = m.arrays)
    (hsize : m'.cells.size = m.cells.size)
    (hcells : ∀ i (h : i < m.cells.size), m'.cells[i]? = some m.cells[i]) : m' = m := by
  have hcells : m'.cells = m.cells := by
    refine Array.ext hsize fun i hi' hi => ?_
    have hcell := hcells i hi
    rw [Array.getElem?_eq_getElem hi'] at hcell
    exact Option.some.inj hcell
  cases m
  cases m'
  simp only at hobjects harrays hcells
  rw [hobjects, harrays, hcells]

/-- A cell of the model is found under its index. -/
theorem mem_cell {i : Nat} (h : i < m.cells.size) : m.cell ⟨i⟩ = m.cells[i] := by
  unfold cell
  rw [Array.getD_eq_getD_getElem?, Array.getElem?_eq_getElem h, Option.getD_some]

/-- Only the entries that are there count. -/
theorem without_congr (h : ∀ cell, ∀ id ∈ (m.cell cell).subscribers, gone id = gone' id) :
    m.without gone = m.without gone' := by
  refine eq_of_cells rfl rfl (by simp [without]) fun i hi => ?_
  have hlt : i < m.cells.size := by simpa [without] using hi
  have hkept : m.cells[i].without gone = m.cells[i].without gone' := by
    unfold Cell.without
    rw [List.filter_congr fun id hid => by rw [h ⟨i⟩ id (mem_cell hlt ▸ hid)]]
  simp [without, hlt, hkept]

/-- Where those subscribers have no entries there is nothing to take out. -/
theorem without_eq_self (h : ∀ cell, ∀ id ∈ (m.cell cell).subscribers, gone id = false) :
    m.without gone = m := by
  refine eq_of_cells rfl rfl (by simp [without]) fun i hi => ?_
  have hkept : m.cells[i].without gone = m.cells[i] := by
    unfold Cell.without
    rw [List.filter_eq_self.2 fun id hid => by rw [h ⟨i⟩ id (mem_cell hi ▸ hid), Bool.not_false]]
  simp [without, hi, hkept]

/-! ## What is done to a model -/

/-- Changing one item and then all items is changing all items and then that one. -/
theorem map_modify {α : Type} {f f' g : α → α} (h : ∀ a, g (f a) = f' (g a)) (xs : Array α) (i : Nat) :
    (xs.modify i f).map g = (xs.map g).modify i f' := by
  refine Array.ext (by simp) fun j _ _ => ?_
  simp only [Array.getElem_map, Array.getElem_modify]
  split
  · exact h _
  · rfl

/-- A value is stored in a cell no matter who is subscribed. -/
theorem without_setCellValue (m : Model) (gone : SubscriberId → Bool) (id : CellId) (value : Value) :
    (m.setCellValue id value).without gone = (m.without gone).setCellValue id value := by
  have hcells : (m.cells.modify id.index fun cell => { cell with value }).map (·.without gone) =
      (m.cells.map (·.without gone)).modify id.index fun cell => { cell with value } :=
    map_modify (fun _ => by rfl) m.cells id.index
  unfold without setCellValue
  exact congrArg (Model.mk m.objects · m.arrays) hcells

/-- A change of subscribers passes over those who are gone, if it does so on every list. -/
theorem without_updateSubscribers {f f' : List SubscriberId → List SubscriberId}
    (h : ∀ ids, (f ids).filter (fun id => !gone id) = f' (ids.filter fun id => !gone id)) (m : Model)
    (id : CellId) : (m.updateSubscribers id f).without gone = (m.without gone).updateSubscribers id f' := by
  have hcells : (m.cells.modify id.index fun cell =>
        { cell with subscribers := f cell.subscribers }).map (·.without gone) =
      (m.cells.map (·.without gone)).modify id.index fun cell =>
        { cell with subscribers := f' cell.subscribers } :=
    map_modify (fun cell => congrArg (Cell.mk cell.value) (h cell.subscribers)) m.cells id.index
  unfold without updateSubscribers
  exact congrArg (Model.mk m.objects · m.arrays) hcells

/-- Somebody who is not gone is subscribed as if nobody were gone. -/
theorem without_subscribe {subscriber : SubscriberId} (h : gone subscriber = false) (m : Model)
    (id : CellId) : (m.subscribe id subscriber).without gone = (m.without gone).subscribe id subscriber := by
  refine without_updateSubscribers (fun ids => ?_) m id
  rw [List.filter_append, List.filter_cons_of_pos (by rw [h, Bool.not_false]), List.filter_nil]

/-- A change that leaves a list as it is leaves the model as it is. -/
theorem updateSubscribers_id (m : Model) (id : CellId) : m.updateSubscribers id (fun ids => ids) = m := by
  refine eq_of_cells rfl rfl (by simp [updateSubscribers]) fun i hi => ?_
  simp [updateSubscribers, hi, Array.getElem_modify]

/-- Nothing is left of those who subscribe if they are taken out again. -/
theorem without_subscribe_gone {subscriber : SubscriberId} (h : gone subscriber = true) (m : Model)
    (id : CellId) : (m.subscribe id subscriber).without gone = m.without gone := by
  refine (without_updateSubscribers (fun ids => ?_) m id).trans (updateSubscribers_id _ id)
  rw [List.filter_append, List.filter_cons_of_neg (by rw [h]; decide), List.filter_nil, List.append_nil]

/-- Subscribing somebody who is not gone to some cells passes over those who are. -/
theorem without_foldl_subscribe {subscriber : SubscriberId} (h : gone subscriber = false)
    (cells : List CellId) (m : Model) :
    (cells.foldl (fun m cell => m.subscribe cell subscriber) m).without gone =
      cells.foldl (fun m cell => m.subscribe cell subscriber) (m.without gone) := by
  induction cells generalizing m with
  | nil => rfl
  | cons cell rest ih => rw [List.foldl_cons, List.foldl_cons, ih, without_subscribe h]

/-- Subscribing somebody who is gone makes no difference. -/
theorem without_foldl_subscribe_gone {subscriber : SubscriberId} (h : gone subscriber = true)
    (cells : List CellId) (m : Model) :
    (cells.foldl (fun m cell => m.subscribe cell subscriber) m).without gone = m.without gone := by
  induction cells generalizing m with
  | nil => rfl
  | cons cell rest ih => rw [List.foldl_cons, ih, without_subscribe_gone h]

/-- A new cell has no subscribers to pass over. -/
theorem without_pushCell (m : Model) (gone : SubscriberId → Bool) (value : Value) :
    ({ m with cells := m.cells.push { value } } : Model).without gone =
      { m.without gone with cells := (m.without gone).cells.push { value } } := by
  unfold without
  simp only [Array.map_push]
  rfl

mutual

/-- Observing passes over those who are gone: it gives the same value, and a model that is the same without
them. The induction is on the document, together with the one on its members. -/
theorem observe_without (gone : SubscriberId → Bool) : ∀ (json : Json) (m : Model),
    observe json (m.without gone) = ((observe json m).1, (observe json m).2.without gone)
  | .null, _ => rfl
  | .bool _, _ => rfl
  | .number _, _ => rfl
  | .string _, _ => rfl
  | .array _, _ => rfl
  | .object members, m => by
    rw [observe, observeMembers_without gone members m, observe]
    rfl

/-- Observing members passes over those who are gone. -/
theorem observeMembers_without (gone : SubscriberId → Bool) :
    ∀ (members : List (String × Json)) (m : Model), observeMembers members (m.without gone) =
      ((observeMembers members m).1, (observeMembers members m).2.without gone)
  | [], _ => rfl
  | (key, json) :: rest, m => by
    have hsize : ((observe json m).2.without gone).cells.size = (observe json m).2.cells.size := by
      simp [without]
    rw [observeMembers, observe_without gone json m]
    simp only
    rw [← without_pushCell, observeMembers_without gone rest, hsize, observeMembers]

end

/-! ## What is read from a model -/

namespace Alike

/-- A path reads the same cells and comes to the same value. -/
theorem follow (h : Alike m m') (path : Path) (root : Value) : m'.follow path root = m.follow path root :=
  h.followKeys _ _ _

/-- The same value is under each key. -/
theorem get? (h : Alike m m') (id : ObjectId) (key : String) : m'.get? id key = m.get? id key := by
  unfold Model.get?
  rw [h.slot?]
  cases m.slot? id key with
  | none => rfl
  | some slot => exact congrArg some (h.slotValue slot)

/-- The same cell is behind each key. -/
theorem cellAt? (h : Alike m m') (id : ObjectId) (key : String) : m'.cellAt? id key = m.cellAt? id key := by
  unfold Model.cellAt?
  rw [h.slot?]

/-- There are as many objects. -/
theorem depth (h : Alike m m') : m'.depth = m.depth := by
  unfold Model.depth
  rw [h.objects]

/-- A value is written out the same on any number of levels. -/
theorem toJson? (h : Alike m m') (depth : Nat) (value : Value) :
    m'.toJson? depth value = m.toJson? depth value := by
  induction depth generalizing value with
  | zero => cases value <;> rfl
  | succ depth ih =>
    cases value with
    | object id => simp only [Model.toJson?, h.entries, ih]
    | _ => rfl

/-- A value is written out the same. -/
theorem json? (h : Alike m m') (value : Value) : m'.json? value = m.json? value := by
  unfold Model.json?
  rw [h.depth, h.toJson?]

/-- A value is inspected the same on any number of levels. -/
theorem inspectWithin? (h : Alike m m') (depth : Nat) (value : Value) :
    m'.inspectWithin? depth value = m.inspectWithin? depth value := by
  induction depth generalizing value with
  | zero => cases value <;> rfl
  | succ depth ih =>
    cases value with
    | object id => simp only [Model.inspectWithin?, h.entries, ih]
    | _ => rfl

/-- A value is inspected the same. -/
theorem inspect? (h : Alike m m') (value : Value) : m'.inspect? value = m.inspect? value := by
  unfold Model.inspect?
  rw [h.depth, h.inspectWithin?]

end Alike

end Model

end DataBinding
