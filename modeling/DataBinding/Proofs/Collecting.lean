import Mathlib.Data.List.Forall2

/-!
# Collecting results

What may be missing for one item is collected for a list of them: if it is there for each, all of it is there, in
the order of the items.
-/

set_option autoImplicit false

namespace DataBinding

variable {α β γ : Type} {f : α → Option β} {items : List α} {results : List β}

/-- The results of a traversal that succeeds are those of its items, in order. -/
theorem forall₂_of_mapM (h : items.mapM f = some results) :
    List.Forall₂ (fun item result => f item = some result) items results := by
  induction items generalizing results with
  | nil =>
    cases h
    exact .nil
  | cons item rest ih =>
    rw [List.mapM_cons] at h
    obtain ⟨first, hfirst, h⟩ := Option.bind_eq_some_iff.1 h
    obtain ⟨others, hothers, h⟩ := Option.bind_eq_some_iff.1 h
    cases h
    exact .cons hfirst (ih hothers)

/-- Every result of a traversal is that of one of the items. -/
theorem mem_of_mapM (h : items.mapM f = some results) : ∀ result ∈ results, ∃ item ∈ items, f item = some result := by
  have hall := forall₂_of_mapM h
  clear h
  induction hall with
  | nil => exact fun _ hmem => absurd hmem List.not_mem_nil
  | @cons first head rest tail hhead _ ih =>
    refine List.forall_mem_cons.2 ⟨⟨first, List.mem_cons_self, hhead⟩, fun result hmem => ?_⟩
    obtain ⟨item, hitem, heq⟩ := ih result hmem
    exact ⟨item, List.mem_cons_of_mem _ hitem, heq⟩

/-- A traversal succeeds if and only if it does so on every item. -/
theorem isSome_mapM (f : α → Option β) (items : List α) :
    (items.mapM f).isSome ↔ ∀ item ∈ items, (f item).isSome := by
  induction items with
  | nil => simp
  | cons item rest ih =>
    rw [List.mapM_cons, List.forall_mem_cons, ← ih]
    cases f item with
    | none => simp
    | some b => cases rest.mapM f <;> simp

/-- Changing what each item comes to is changing what all of them come to. -/
theorem mapM_map_option (f : α → Option β) (g : β → γ) (items : List α) :
    (items.mapM fun item => (f item).map g) = (items.mapM f).map (List.map g) := by
  induction items with
  | nil => rfl
  | cons item rest ih =>
    rw [List.mapM_cons, List.mapM_cons, ih]
    cases f item with
    | none => rfl
    | some found => cases rest.mapM f <;> rfl

end DataBinding
