import DataBinding.Markup.Entity
import Mathlib.Data.List.Infix

/-!
# Entities are read back

Escaping writes four characters as entities, and unescaping replaces one kind of entity after the other.
What is left after each replacement is the text with fewer of its characters escaped, because no entity
is the start of another one and an ampersand that stands for itself is the last to be replaced. In
between comes the entity of the apostrophe, which is never written and is not found.
-/

set_option autoImplicit false

namespace DataBinding

/-- Characters that are to be skipped are skipped, and replacing starts behind them. -/
theorem replaceFrom_length (needle replacement skipped text : List Char) :
    replaceFrom needle replacement skipped.length (skipped ++ text) =
      replaceAll needle replacement text := by
  induction skipped with
  | nil => rfl
  | cons c skipped ih =>
    rw [List.cons_append, List.length_cons, replaceFrom]
    exact ih

/-- What is looked for is replaced where it stands at the start. -/
theorem replaceAll_self_append (c : Char) (needle replacement text : List Char) :
    replaceAll (c :: needle) replacement (c :: needle ++ text) =
      replacement ++ replaceAll (c :: needle) replacement text := by
  have hfound : (c :: needle).isPrefixOf (c :: (needle ++ text)) = true :=
    List.isPrefixOf_iff_prefix.2 (List.prefix_append (c :: needle) text)
  rw [List.cons_append, replaceAll, replaceFrom, if_pos hfound, List.length_cons,
    Nat.add_sub_cancel, replaceFrom_length]

/-- Where it does not stand at the start, the first character is kept. -/
theorem replaceAll_cons_of_other {needle text : List Char} {c : Char} (replacement : List Char)
    (h : ¬ needle <+: c :: text) :
    replaceAll needle replacement (c :: text) = c :: replaceAll needle replacement text := by
  have hmissing : ¬ needle.isPrefixOf (c :: text) = true :=
    fun hfound => h (List.isPrefixOf_iff_prefix.1 hfound)
  rw [replaceAll, replaceFrom, if_neg hmissing, replaceAll]

/-- A stretch without the first character of what is looked for is kept. -/
theorem replaceAll_append_of_not_mem {c : Char} {plain : List Char} (h : c ∉ plain)
    (needle replacement text : List Char) :
    replaceAll (c :: needle) replacement (plain ++ text) =
      plain ++ replaceAll (c :: needle) replacement text := by
  induction plain with
  | nil => rfl
  | cons d plain ih =>
    have hne : c ≠ d := fun hcd => h (by simp [hcd])
    have hrest : c ∉ plain := fun hmem => h (List.mem_cons_of_mem d hmem)
    rw [List.cons_append, List.cons_append, replaceAll_cons_of_other, ih hrest]
    intro hstarts
    exact hne (List.cons_prefix_cons.1 hstarts).1

/-- Replacing by a character makes no text empty. -/
theorem replaceAll_ne_nil {text : List Char} (h : text ≠ []) (needle : List Char) (c : Char) :
    replaceAll needle [c] text ≠ [] := by
  cases text with
  | nil => exact absurd rfl h
  | cons d text =>
    rw [replaceAll, replaceFrom]
    split <;> simp

/-- A replacement that takes one spelling of each character to another does so for whole texts. -/
theorem replaceAll_flatMap {needle replacement : List Char} {f g : Char → List Char}
    (h : ∀ c text, replaceAll needle replacement (f c ++ text) =
      g c ++ replaceAll needle replacement text) (text : List Char) :
    replaceAll needle replacement (text.flatMap f) = text.flatMap g := by
  induction text with
  | nil => rfl
  | cons c text ih => rw [List.flatMap_cons, List.flatMap_cons, h, ih]

namespace Markup

/-- The characters that are written as entities. -/
def special : List Char := ['<', '>', '"', '&']

/-- Writes a character as its entity if it is one of those that are still to be read. -/
def escapeOnly (still : List Char) (c : Char) : List Char := if c ∈ still then escapeChar c else [c]

/-- Characters that are not special are written as they are. -/
theorem escapeChar_of_not_special {c : Char} (h : c ∉ special) : escapeChar c = [c] := by
  simp only [special, List.mem_cons, List.not_mem_nil, or_false, not_or] at h
  unfold escapeChar
  split <;> simp_all

/-- A special character is written as an entity, with its ampersand at the start only. -/
theorem escapeChar_of_special {c : Char} (h : c ∈ special) :
    ∃ body, escapeChar c = '&' :: body ∧ '&' ∉ body := by
  simp only [special, List.mem_cons, List.not_mem_nil, or_false] at h
  rcases h with rfl | rfl | rfl | rfl
  · exact ⟨['l', 't', ';'], rfl, by decide⟩
  · exact ⟨['g', 't', ';'], rfl, by decide⟩
  · exact ⟨['q', 'u', 'o', 't', ';'], rfl, by decide⟩
  · exact ⟨['a', 'm', 'p', ';'], rfl, by decide⟩

/-- Escaping a text writes all special characters as entities. -/
theorem escape_eq_escapeOnly (text : List Char) : escape text = text.flatMap (escapeOnly special) := by
  unfold escape
  congr 1
  funext c
  unfold escapeOnly
  split
  · rfl
  · next h => exact escapeChar_of_not_special h

/-- No entity is the start of another one. -/
theorem not_prefix_escapeChar {c d : Char} (hc : c ∈ special) (hd : d ∈ special) (hne : c ≠ d) :
    ¬ escapeChar c <+: escapeChar d := by
  have hall : (special.all fun c => special.all fun d =>
      decide (c ≠ d → ¬ escapeChar c <+: escapeChar d)) = true := by decide
  exact of_decide_eq_true (List.all_eq_true.1 (List.all_eq_true.1 hall c hc) d hd) hne

/-- No entity starts as the entity of another special character, whatever follows. -/
theorem not_prefix_of_special {c d : Char} (hc : c ∈ special) (hd : d ∈ special) (hne : c ≠ d)
    (text : List Char) : ¬ escapeChar c <+: escapeChar d ++ text := by
  intro hstarts
  rcases List.prefix_or_prefix_of_prefix hstarts (List.prefix_append (escapeChar d) text) with hcd | hdc
  · exact not_prefix_escapeChar hc hd hne hcd
  · exact not_prefix_escapeChar hd hc (Ne.symm hne) hdc

/-- A needle that starts with an ampersand goes past a character that is written in another way. -/
theorem replaceAll_escapeOnly_append {needle still : List Char} {c : Char}
    (hspecial : ∀ d ∈ still, d ∈ special) (hamp : c = '&' → c ∈ still) (replacement text : List Char)
    (hother : c ∈ still → ¬ '&' :: needle <+: escapeChar c ++ text) :
    replaceAll ('&' :: needle) replacement (escapeOnly still c ++ text) =
      escapeOnly still c ++ replaceAll ('&' :: needle) replacement text := by
  unfold escapeOnly
  split
  · next hmem =>
    obtain ⟨body, hbody, hfree⟩ := escapeChar_of_special (hspecial c hmem)
    have hmiss := hother hmem
    rw [hbody, List.cons_append] at hmiss
    rw [hbody, List.cons_append, List.cons_append, replaceAll_cons_of_other replacement hmiss,
      replaceAll_append_of_not_mem hfree]
  · next hmem =>
    refine replaceAll_append_of_not_mem ?_ needle replacement text
    intro hc
    exact hmem (hamp (List.mem_singleton.1 hc).symm)

/-- Replacing the entity of a character leaves one character fewer to be read. -/
theorem replaceAll_escapeChar (c : Char) (still : List Char) (hc : c ∈ special)
    (hspecial : ∀ d ∈ still, d ∈ special) (hfresh : c ∉ still) (hamp : '&' ∈ c :: still)
    (text : List Char) :
    replaceAll (escapeChar c) [c] (text.flatMap (escapeOnly (c :: still))) =
      text.flatMap (escapeOnly still) := by
  obtain ⟨body, hbody, -⟩ := escapeChar_of_special hc
  refine replaceAll_flatMap (fun d text => ?_) text
  by_cases hd : d = c
  · subst hd
    have hpiece : escapeOnly (d :: still) d = '&' :: body := by
      rw [escapeOnly, if_pos List.mem_cons_self, hbody]
    have hread : escapeOnly still d = [d] := if_neg hfresh
    rw [hpiece, hread, hbody, replaceAll_self_append]
  · have hsame : escapeOnly (c :: still) d = escapeOnly still d := by
      simp only [escapeOnly, List.mem_cons, hd, false_or]
    rw [hsame, hbody]
    apply replaceAll_escapeOnly_append hspecial
    · intro hisAmp
      subst hisAmp
      exact (List.mem_cons.1 hamp).resolve_left hd
    · intro hmem
      rw [← hbody]
      exact not_prefix_of_special hc (hspecial d hmem) (Ne.symm hd) text

/-- The entity of the apostrophe is not in an escaped text. -/
theorem replaceAll_apostrophe (text : List Char) :
    replaceAll "&#39;".toList ['\''] (text.flatMap (escapeOnly ['&'])) =
      text.flatMap (escapeOnly ['&']) := by
  have hentity : "&#39;".toList = ['&', '#', '3', '9', ';'] := rfl
  rw [hentity]
  refine replaceAll_flatMap (fun d text => ?_) text
  apply replaceAll_escapeOnly_append
  · intro c hc
    rw [List.mem_singleton.1 hc]
    decide
  · exact List.mem_singleton.2
  · intro hd
    have hwritten : escapeChar '&' = ['&', 'a', 'm', 'p', ';'] := rfl
    rw [List.mem_singleton.1 hd, hwritten]
    simp [List.cons_prefix_cons]

/-- An escaped text is read back. -/
theorem unescape_escape (text : List Char) : unescape (escape text) = text := by
  have hlt : replaceAll "&lt;".toList ['<'] (text.flatMap (escapeOnly special)) =
      text.flatMap (escapeOnly ['>', '"', '&']) :=
    replaceAll_escapeChar '<' ['>', '"', '&'] (by decide) (by simp [special]) (by decide) (by decide) text
  have hgt : replaceAll "&gt;".toList ['>'] (text.flatMap (escapeOnly ['>', '"', '&'])) =
      text.flatMap (escapeOnly ['"', '&']) :=
    replaceAll_escapeChar '>' ['"', '&'] (by decide) (by simp [special]) (by decide) (by decide) text
  have hquot : replaceAll "&quot;".toList ['"'] (text.flatMap (escapeOnly ['"', '&'])) =
      text.flatMap (escapeOnly ['&']) :=
    replaceAll_escapeChar '"' ['&'] (by decide) (by simp [special]) (by decide) (by decide) text
  have hamp : replaceAll "&amp;".toList ['&'] (text.flatMap (escapeOnly ['&'])) =
      text.flatMap (escapeOnly []) :=
    replaceAll_escapeChar '&' [] (by decide) (by simp [special]) (by decide) (by decide) text
  have hplain : escapeOnly [] = fun c => [c] := by
    funext c
    exact if_neg List.not_mem_nil
  simp only [unescape, entities, List.foldl_cons, List.foldl_nil]
  rw [escape_eq_escapeOnly, hlt, hgt, hquot, replaceAll_apostrophe, hamp, hplain,
    List.flatMap_singleton']

/-- Unescaping makes no text empty. -/
theorem unescape_ne_nil {text : List Char} (h : text ≠ []) : unescape text ≠ [] := by
  simp only [unescape, entities, List.foldl_cons, List.foldl_nil]
  iterate 5 apply replaceAll_ne_nil
  exact h

/-- Two texts are escaped one after the other. -/
theorem escape_append (first second : List Char) :
    escape (first ++ second) = escape first ++ escape second :=
  List.flatMap_append

/-- Only the empty text is escaped to the empty text. -/
theorem escape_eq_nil {text : List Char} : escape text = [] ↔ text = [] := by
  constructor
  · intro h
    rw [← unescape_escape text, h]
    rfl
  · intro h
    rw [h]
    rfl

/-- Of the special characters only the ampersand is in an escaped text. -/
theorem not_mem_escape {c : Char} (hc : c ∈ special) (hne : c ≠ '&') (text : List Char) : c ∉ escape text := by
  unfold escape
  intro hmem
  obtain ⟨d, -, hd⟩ := List.mem_flatMap.1 hmem
  by_cases hspecial : d ∈ special
  · have hall : (special.all fun d => (escapeChar d).all fun c => decide (c ∈ special → c = '&')) = true := by decide
    exact hne (of_decide_eq_true (List.all_eq_true.1 (List.all_eq_true.1 hall d hspecial) c hd) hc)
  · rw [escapeChar_of_not_special hspecial, List.mem_singleton] at hd
    exact hspecial (hd ▸ hc)

end Markup

end DataBinding
