import DataBinding.Proofs.Model.Onward

/-!
# Who stays in the lists of subscribers

No operation of the model takes an entry out of the list of a cell, except for the replacement of a list
by what a function makes of it. Subscribing adds an entry to every cell that is there.
-/

set_option autoImplicit false

namespace DataBinding

namespace Model

/-- A change that keeps an entry in the list of a cell keeps it in all lists. -/
theorem mem_subscribers_updateSubscribers {m : Model} {target cell : CellId}
    {f : List SubscriberId → List SubscriberId} {id : SubscriberId}
    (hf : id ∈ (m.cell cell).subscribers → id ∈ f (m.cell cell).subscribers)
    (h : id ∈ (m.cell cell).subscribers) :
    id ∈ ((m.updateSubscribers target f).cell cell).subscribers := by
  rw [cell_updateSubscribers]
  split
  · exact hf h
  · exact h

/-- Subscribing drops no entry. -/
theorem mem_subscribers_subscribe {m : Model} (target : CellId) (subscriber : SubscriberId)
    {cell : CellId} {id : SubscriberId} (h : id ∈ (m.cell cell).subscribers) :
    id ∈ ((m.subscribe target subscriber).cell cell).subscribers :=
  mem_subscribers_updateSubscribers (fun h => List.mem_append_left _ h) h

/-- Storing a value in a cell drops no entry. -/
theorem mem_subscribers_setCellValue {m : Model} (target : CellId) (value : Value) {cell : CellId}
    {id : SubscriberId} (h : id ∈ (m.cell cell).subscribers) :
    id ∈ ((m.setCellValue target value).cell cell).subscribers := by
  rw [cell_setCellValue]
  split
  · exact h
  · exact h

/-- Entries stay while the model only grows. -/
theorem mem_subscribers_of_within {m m' : Model} (hm : m.Within m') {cell : CellId}
    {id : SubscriberId} (h : id ∈ (m.cell cell).subscribers) :
    id ∈ (m'.cell cell).subscribers := by
  by_cases hlt : cell.index < m.cells.size
  · rw [cell_of_within hm hlt]
    exact h
  · unfold Model.cell at h
    rw [Array.getD_eq_getD_getElem?, Array.getElem?_eq_none (Nat.le_of_not_lt hlt)] at h
    cases h

/-- A cell that is there gets one entry for each time that it is among the cells. -/
theorem subscribers_foldl_subscribe (cells : List CellId) (subscriber : SubscriberId) (m : Model)
    {cell : CellId} (hlt : cell.index < m.cells.size) :
    ((cells.foldl (fun m cell => m.subscribe cell subscriber) m).cell cell).subscribers =
      (m.cell cell).subscribers ++ List.replicate (cells.count cell) subscriber := by
  induction cells generalizing m with
  | nil => simp
  | cons first rest ih =>
    have hlt' : cell.index < (m.subscribe first subscriber).cells.size := by
      simpa [subscribe, updateSubscribers] using hlt
    rw [List.foldl_cons, ih (m.subscribe first subscriber) hlt', subscribe, cell_updateSubscribers]
    by_cases hcell : first = cell
    · subst hcell
      simp [hlt, List.replicate_succ]
    · simp [hcell]

/-- A cell that is not there has no entries. -/
theorem subscribers_of_le {m : Model} {cell : CellId} (hle : m.cells.size ≤ cell.index) :
    (m.cell cell).subscribers = [] := by
  unfold Model.cell
  rw [Array.getD_eq_getD_getElem?, Array.getElem?_eq_none hle]
  rfl

/-- Subscribing somebody makes no cells. -/
theorem size_foldl_subscribe (cells : List CellId) (subscriber : SubscriberId) (m : Model) :
    (cells.foldl (fun m cell => m.subscribe cell subscriber) m).cells.size = m.cells.size := by
  induction cells generalizing m with
  | nil => rfl
  | cons first rest ih =>
    rw [List.foldl_cons, ih]
    simp [subscribe, updateSubscribers]

/-- A new cell has no subscribers, and the others keep theirs. -/
theorem subscribers_pushCell (m : Model) (value : Value) (cell : CellId) :
    (({ m with cells := m.cells.push { value } } : Model).cell cell).subscribers =
      (m.cell cell).subscribers := by
  unfold Model.cell
  simp only [Array.getD_eq_getD_getElem?, Array.getElem?_push]
  split
  · next hindex => simp [hindex]
  · rfl

mutual

/-- Observing a document subscribes nobody. -/
theorem subscribers_observe : ∀ (json : Json) (m : Model) (cell : CellId),
    ((observe json m).2.cell cell).subscribers = (m.cell cell).subscribers
  | .null, _, _ => rfl
  | .bool _, _, _ => rfl
  | .number _, _, _ => rfl
  | .string _, _, _ => rfl
  | .array _, _, _ => rfl
  | .object members, m, cell => subscribers_observeMembers members m cell

/-- Observing members subscribes nobody. -/
theorem subscribers_observeMembers : ∀ (members : List (String × Json)) (m : Model) (cell : CellId),
    ((observeMembers members m).2.cell cell).subscribers = (m.cell cell).subscribers
  | [], _, _ => rfl
  | (_, json) :: rest, m, cell => by
    rw [observeMembers, subscribers_observeMembers rest, subscribers_pushCell,
      subscribers_observe json m]

end

/-- Subscribing writes nothing. -/
theorem onward_foldl_subscribe (cells : List CellId) (subscriber : SubscriberId) (m : Model) :
    m.Onward (fun _ => False) (cells.foldl (fun m cell => m.subscribe cell subscriber) m) := by
  induction cells generalizing m with
  | nil => exact .refl m
  | cons first rest ih =>
    have hfirst := onward_updateSubscribers m first (· ++ [subscriber])
    exact (hfirst.trans (ih (m.subscribe first subscriber))).mono fun p hp => hp.elim id id

/-- Subscribing one subscriber to several cells. -/
theorem foldl_subscribe (cells : List CellId) (subscriber : SubscriberId) (m : Model)
    (hsound : m.Sound) :
    (cells.foldl (fun m cell => m.subscribe cell subscriber) m).Sound ∧
      m.Onward (fun _ => False) (cells.foldl (fun m cell => m.subscribe cell subscriber) m) ∧
      (∀ cell id, id ∈ (m.cell cell).subscribers →
        id ∈ ((cells.foldl (fun m cell => m.subscribe cell subscriber) m).cell cell).subscribers) ∧
      ∀ cell ∈ cells, cell.index < m.cells.size → subscriber ∈
        ((cells.foldl (fun m cell => m.subscribe cell subscriber) m).cell cell).subscribers := by
  induction cells generalizing m with
  | nil => exact ⟨hsound, .refl m, fun _ _ h => h, fun _ h => absurd h List.not_mem_nil⟩
  | cons first rest ih =>
    have hfirst := onward_updateSubscribers m first (· ++ [subscriber])
    obtain ⟨hsound', -, hkept, hadded⟩ :=
      ih (m.subscribe first subscriber) (sound_updateSubscribers hsound first _)
    refine ⟨hsound', onward_foldl_subscribe _ _ _,
      fun cell id h => hkept cell id (mem_subscribers_subscribe _ _ h), ?_⟩
    intro cell hcell hlt
    rcases List.mem_cons.1 hcell with rfl | hcell
    · refine hkept cell subscriber ?_
      rw [subscribe, cell_updateSubscribers, if_pos ⟨rfl, hlt⟩]
      exact List.mem_append_right _ (List.mem_singleton_self _)
    · exact hadded cell hcell (Nat.lt_of_lt_of_le hlt hfirst.cells_le)

end Model

end DataBinding
