import Mathlib.Data.List.Basic
import Mathlib.Tactic.ByContra
import DataBinding.Text.Search

/-!
# First occurrences

`cutAt?` cuts a text at the first occurrence of another one, `cutAt?_eq_some_iff`, and fails if there is none,
`cutAt?_eq_none_iff`. What comes after a first occurrence has no influence on it.
-/

set_option autoImplicit false

namespace DataBinding

/-- A text is `needle` with something before and after it, and `needle` does not occur further to the left. -/
structure FirstAt (needle before after text : List Char) : Prop where
  eq_append : text = before ++ (needle ++ after)
  leftmost : ∀ earlier, earlier ++ needle <+: text → before.length ≤ earlier.length

variable {needle text before after : List Char}

/-- Cutting off a start fails if and only if the text does not start so. -/
theorem isPrefixOf?_eq_none_iff : needle.isPrefixOf? text = none ↔ ¬ needle <+: text := by
  constructor
  · rintro h ⟨rest, hrest⟩
    rw [List.isPrefixOf?_eq_some_iff_append_eq.2 hrest] at h
    cases h
  · intro h
    rw [Option.eq_none_iff_forall_ne_some]
    exact fun rest hrest => h ⟨rest, List.isPrefixOf?_eq_some_iff_append_eq.1 hrest⟩

/-- A text does not occur where it cannot be cut out. -/
theorem cutAt?_eq_none_iff : cutAt? needle text = none ↔ ¬ needle <:+: text := by
  induction text with
  | nil =>
    unfold cutAt?
    simp [List.infix_nil]
  | cons c rest ih =>
    unfold cutAt?
    rw [List.infix_cons_iff, not_or, ← ih, ← isPrefixOf?_eq_none_iff]
    cases needle.isPrefixOf? (c :: rest) with
    | some found => simp
    | none => simp

/-- What is cut out is the first occurrence. -/
theorem firstAt_of_cutAt? (h : cutAt? needle text = some (before, after)) :
    FirstAt needle before after text := by
  refine ⟨eq_append_of_cutAt? h, fun earlier hearlier => ?_⟩
  induction text generalizing before earlier with
  | nil =>
    unfold cutAt? at h
    split at h
    · obtain ⟨rfl, rfl⟩ := Prod.mk.inj (Option.some.inj h)
      exact Nat.zero_le _
    · cases h
  | cons c rest ih =>
    unfold cutAt? at h
    split at h
    · obtain ⟨rfl, rfl⟩ := Prod.mk.inj (Option.some.inj h)
      exact Nat.zero_le _
    · next hmissing =>
      obtain ⟨⟨before', after'⟩, hcut, heq⟩ := Option.map_eq_some_iff.1 h
      obtain ⟨rfl, rfl⟩ := Prod.mk.inj heq
      cases earlier with
      | nil => exact absurd hearlier (isPrefixOf?_eq_none_iff.1 hmissing)
      | cons d earlier =>
        have hrest := ih hcut earlier (List.cons_prefix_cons.1 hearlier).2
        exact Nat.succ_le_succ hrest

/-- There is only one first occurrence. -/
theorem FirstAt.unique {before' after' : List Char} (h : FirstAt needle before after text)
    (h' : FirstAt needle before' after' text) : before = before' ∧ after = after' := by
  have hstarts : ∀ {before after}, FirstAt needle before after text → before ++ needle <+: text :=
    fun h => ⟨_, by rw [List.append_assoc, ← h.eq_append]⟩
  have hlength := Nat.le_antisymm (h.leftmost _ (hstarts h')) (h'.leftmost _ (hstarts h))
  obtain ⟨hbefore, hrest⟩ := List.append_inj (h.eq_append.symm.trans h'.eq_append) hlength
  exact ⟨hbefore, List.append_cancel_left hrest⟩

/-- A text is cut at the first place where something occurs in it. -/
theorem cutAt?_eq_some_iff : cutAt? needle text = some (before, after) ↔ FirstAt needle before after text := by
  refine ⟨firstAt_of_cutAt?, fun h => ?_⟩
  cases hcut : cutAt? needle text with
  | none => exact absurd ⟨before, after, by rw [List.append_assoc, ← h.eq_append]⟩ (cutAt?_eq_none_iff.1 hcut)
  | some found =>
    obtain ⟨hbefore, hafter⟩ := h.unique (firstAt_of_cutAt? hcut)
    rw [hbefore, hafter]

/-- What comes after the first occurrence does not matter to it. -/
theorem FirstAt.other (h : FirstAt needle before after text) (other : List Char) :
    FirstAt needle before other (before ++ (needle ++ other)) := by
  refine ⟨rfl, fun earlier hearlier => ?_⟩
  by_contra hlt
  have hwithin : earlier ++ needle <+: before ++ needle := by
    refine List.prefix_of_prefix_length_le hearlier ⟨other, List.append_assoc _ _ _⟩ ?_
    simp only [List.length_append]
    omega
  refine hlt (h.leftmost earlier (hwithin.trans ⟨after, ?_⟩))
  rw [List.append_assoc, ← h.eq_append]

/-- A text that is not empty does not occur before its first occurrence. -/
theorem FirstAt.not_infix (h : FirstAt needle before after text) (hne : needle ≠ []) : ¬ needle <:+: before := by
  rintro ⟨start, rest, rfl⟩
  have hfound := h.leftmost start ⟨rest ++ (needle ++ after), by rw [h.eq_append]; simp⟩
  have hpos := List.length_pos_iff.2 hne
  simp only [List.length_append] at hfound
  omega

end DataBinding
