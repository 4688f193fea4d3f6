import Mathlib.Data.Finset.Card
import Mathlib.Data.Finset.Preimage
import Mathlib.Data.Finset.Range
import Mathlib.Logic.Relation

/-!
# Loops

Objects contain objects and nodes have children, and nothing keeps either from containing itself. What is gone
through from `a` ends exactly if nothing that `a` leads to leads to itself, and if there are only so many that lead
on, it ends within one step more than they are.
-/

set_option autoImplicit false

namespace DataBinding

open Relation

variable {α : Type} {R : α → α → Prop} {a b : α} {depth : Nat}

/-- What `a` leads to ends within so many levels, its own included. -/
def Nests (R : α → α → Prop) : Nat → α → Prop
  | 0, _ => False
  | depth + 1, a => ∀ b, R a b → Nests R depth b

/-- Neither `a` nor anything that it leads to leads to itself. -/
def LooplessFrom (R : α → α → Prop) (a : α) : Prop := ∀ b, ReflTransGen R a b → ¬ TransGen R b b

/-- Whatever is one step further on leads into no loop either. -/
theorem LooplessFrom.of_step (h : LooplessFrom R a) (hstep : R a b) : LooplessFrom R b :=
  fun last hway => h last (.head hstep hway)

open Classical in
/-- How many of the domain `a` is or leads to. -/
noncomputable def reachCount (R : α → α → Prop) (domain : Finset α) (a : α) : Nat :=
  (domain.filter (ReflTransGen R a)).card

/-- Where no loop is ahead, fewer things can be reached after a step than before it: the place that the step
leaves is out of reach. -/
theorem reachCount_lt {domain : Finset α} (hmem : a ∈ domain) (h : LooplessFrom R a) (hstep : R a b) :
    reachCount R domain b < reachCount R domain a := by
  classical
  have hsub : domain.filter (ReflTransGen R b) ⊆ domain.filter (ReflTransGen R a) :=
    Finset.monotone_filter_right _ fun _ _ hway => .head hstep hway
  refine Finset.card_lt_card ((Finset.ssubset_iff_of_subset hsub).2 ⟨a, ?_, fun hback => ?_⟩)
  · exact Finset.mem_filter.2 ⟨hmem, .refl⟩
  · exact h a .refl (.head' hstep (Finset.mem_filter.1 hback).2)

/-- Without loops the levels below `a` are fewer than what it is or leads to. -/
theorem LooplessFrom.nests {domain : Finset α} (hdomain : ∀ a b, R a b → a ∈ domain) (h : LooplessFrom R a)
    (hreach : reachCount R domain a ≤ depth) : Nests R (depth + 1) a := by
  induction depth generalizing a with
  | zero =>
    intro b hstep
    have hlt := reachCount_lt (hdomain a b hstep) h hstep
    omega
  | succ depth ih =>
    intro b hstep
    have hlt := reachCount_lt (hdomain a b hstep) h hstep
    exact ih (h.of_step hstep) (by omega)

/-- The depth goes down along every way. -/
theorem Nests.of_transGen (h : Nests R depth a) (hway : TransGen R a b) : ∃ less < depth, Nests R less b := by
  induction hway using TransGen.head_induction_on generalizing depth with
  | single hstep =>
    cases depth with
    | zero => exact h.elim
    | succ depth => exact ⟨depth, Nat.lt_succ_self depth, h _ hstep⟩
  | head hstep _ ih =>
    cases depth with
    | zero => exact h.elim
    | succ depth =>
      obtain ⟨less, hlt, hnests⟩ := ih (h _ hstep)
      exact ⟨less, Nat.lt_succ_of_lt hlt, hnests⟩

/-- What leads to itself nests without end. -/
theorem Nests.not_loop (h : Nests R depth a) : ¬ TransGen R a a := by
  intro hloop
  induction depth using Nat.strongRecOn with
  | _ depth ih =>
    obtain ⟨less, hlt, hnests⟩ := h.of_transGen hloop
    exact ih less hlt hnests

/-- Where a depth bounds all ways ahead, no loop is ahead. -/
theorem Nests.looplessFrom (h : Nests R depth a) : LooplessFrom R a := by
  intro b hway
  rcases reflTransGen_iff_eq_or_transGen.1 hway with rfl | hway
  · exact h.not_loop
  · obtain ⟨less, -, hnests⟩ := h.of_transGen hway
    exact hnests.not_loop

/-- If all that lead on have a number below `size`, what is without loops nests one level deeper at most. -/
theorem looplessFrom_iff_nests {index : α → Nat} {size : Nat} (hindex : index.Injective)
    (hsize : ∀ a b, R a b → index a < size) : LooplessFrom R a ↔ Nests R (size + 1) a := by
  classical
  let domain : Finset α := (Finset.range size).preimage index hindex.injOn
  have hdomain : ∀ a b, R a b → a ∈ domain := fun a b hstep =>
    Finset.mem_preimage.2 (Finset.mem_range.2 (hsize a b hstep))
  have hcard : domain.card ≤ size := by
    have hrange : ∀ a ∈ domain, index a ∈ Finset.range size := fun a => Finset.mem_preimage.1
    simpa using Finset.card_le_card_of_injOn index hrange hindex.injOn
  exact ⟨fun h => h.nests hdomain ((Finset.card_filter_le _ _).trans hcard), Nests.looplessFrom⟩

end DataBinding
