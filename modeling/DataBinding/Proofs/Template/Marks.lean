import DataBinding.Proofs.Text.Search
import DataBinding.Template

/-!
# Marks in a text

A mark is a pair of delimiters in a text with what is captured between them: the opening delimiter is the
first one after the mark before, and the closing delimiter the first one after the opening. So the marks of a
text follow from the text alone, and what comes after the last one may be replaced without changing them,
`Leads.other`. The first marker of a text that captures something is the first mark that does.
-/

set_option autoImplicit false

namespace DataBinding

/-! ## Marks -/

/-- A pair of delimiters in a text: what stands between the mark before and the opening delimiter, and what is
captured between the delimiters. -/
structure Mark where
  before : List Char
  captured : List Char

/-- The text of a mark, with what stands before it. -/
def Mark.text (d : Delimiters) (mark : Mark) : List Char :=
  mark.before ++ d.opening.toList ++ mark.captured ++ d.closing.toList

/-- The text of marks that follow each other. -/
def Mark.texts (d : Delimiters) (marks : List Mark) : List Char := marks.flatMap (Mark.text d)

/-- A text begins with marks, and goes on after them. -/
inductive Leads (d : Delimiters) : List Char → List Mark → List Char → Prop where
  | here (text : List Char) : Leads d text [] text
  | mark {text before inner captured between after : List Char} {marks : List Mark}
      (hopening : FirstAt d.opening.toList before inner text)
      (hclosing : FirstAt d.closing.toList captured between inner)
      (hmore : Leads d between marks after) : Leads d text (⟨before, captured⟩ :: marks) after

namespace Leads

variable {d : Delimiters} {text between after : List Char} {marks marks' : List Mark}

/-- Marks may be read in two goes. -/
theorem trans (h : Leads d text marks between) (h' : Leads d between marks' after) :
    Leads d text (marks ++ marks') after := by
  induction h with
  | here => exact h'
  | mark hopening hclosing _ ih => exact .mark hopening hclosing (ih h')

/-- A text is made of its marks and of what follows them. -/
theorem text_eq (h : Leads d text marks after) : text = Mark.texts d marks ++ after := by
  induction h with
  | here => rfl
  | mark hopening hclosing _ ih =>
    rw [hopening.eq_append, hclosing.eq_append, ih]
    simp [Mark.texts, Mark.text]

/-- Between the first and the second part of some marks there is a place in the text. -/
theorem of_append (h : Leads d text (marks ++ marks') after) :
    ∃ between, Leads d text marks between ∧ Leads d between marks' after := by
  induction marks generalizing text with
  | nil => exact ⟨text, .here text, h⟩
  | cons first others ih =>
    cases h with
    | mark hopening hclosing hmore =>
      obtain ⟨between, hothers, hlast⟩ := ih hmore
      exact ⟨between, .mark hopening hclosing hothers, hlast⟩

/-- What comes after the marks does not matter to them. -/
theorem other (h : Leads d text marks after) (other : List Char) :
    Leads d (Mark.texts d marks ++ other) marks other := by
  induction h with
  | here => exact .here other
  | @mark _ before _ captured _ _ marks hopening hclosing _ ih =>
    have htext : Mark.texts d (⟨before, captured⟩ :: marks) ++ other = before ++ (d.opening.toList ++
        (captured ++ (d.closing.toList ++ (Mark.texts d marks ++ other)))) := by
      simp [Mark.texts, Mark.text]
    rw [htext]
    exact .mark (hopening.other _) (hclosing.other _) ih

end Leads

/-- No mark stands in a text: nothing closes what its first opening delimiter opens. -/
def Unmarked (d : Delimiters) (text : List Char) : Prop :=
  ∀ before inner, FirstAt d.opening.toList before inner text → ¬ d.closing.toList <:+: inner

/-- No mark stands before a first opening delimiter. -/
theorem FirstAt.unmarked {d : Delimiters} {text before inner : List Char}
    (h : FirstAt d.opening.toList before inner text) (hne : d.opening.toList ≠ []) : Unmarked d before := by
  intro before' inner' h'
  refine absurd ?_ (h.not_infix hne)
  rw [h'.eq_append]
  exact ⟨before', inner', List.append_assoc _ _ _⟩

/-! ## The first marker -/

/-- A mark captures nothing. -/
def Mark.Idle (trimPaths : Bool) (mark : Mark) : Prop := Marker.capture trimPaths mark.captured = []

namespace Marker

variable {d : Delimiters} {trimPaths : Bool} {text rest : List Char} {idle : List Mark}

/-- The first marker is the first mark that captures something. -/
theorem leads_of_first? {marker : Marker} (h : first? d trimPaths text = some marker) :
    ∃ idle mark, Leads d text (idle ++ [mark]) marker.after ∧ (∀ other ∈ idle, other.Idle trimPaths) ∧
      ¬ mark.Idle trimPaths ∧ marker.before = Mark.texts d idle ++ mark.before ∧
      marker.path = capture trimPaths mark.captured := by
  fun_induction first? d trimPaths text generalizing marker with
  | case1 => cases h
  | case2 => cases h
  | case3 => cases h
  | case4 => cases h
  | case5 text _ _ before inner hcut captured after hclose hempty ih =>
    obtain ⟨found, hfound, rfl⟩ := Option.map_eq_some_iff.1 h
    obtain ⟨idle, mark, hleads, hidle, hbinds, hbefore, hpath⟩ := ih hfound
    refine ⟨⟨before, captured⟩ :: idle, mark, .mark (firstAt_of_cutAt? hcut) (firstAt_of_cutAt? hclose) hleads,
      List.forall_mem_cons.2 ⟨List.isEmpty_iff.1 hempty, hidle⟩, hbinds, ?_, hpath⟩
    rw [hbefore]
    simp [Mark.texts, Mark.text]
  | case6 text _ _ before inner hcut captured after hclose hempty =>
    cases h
    exact ⟨[], ⟨before, captured⟩, .mark (firstAt_of_cutAt? hcut) (firstAt_of_cutAt? hclose) (.here after),
      List.forall_mem_nil _, fun hidle => hempty (List.isEmpty_iff.2 hidle), rfl, rfl⟩

/-- Where there is no first marker, no mark captures anything. -/
theorem leads_of_first?_eq_none (hopening : d.opening.toList ≠ []) (hclosing : d.closing.toList ≠ [])
    (h : first? d trimPaths text = none) :
    ∃ idle rest, Leads d text idle rest ∧ (∀ mark ∈ idle, mark.Idle trimPaths) ∧ Unmarked d rest := by
  fun_induction first? d trimPaths text with
  | case1 text hnone => exact absurd hnone hopening
  | case2 text _ hnone => exact absurd hnone hclosing
  | case3 text _ _ hnone =>
    refine ⟨[], text, .here text, List.forall_mem_nil _, fun before inner hfirst => ?_⟩
    rw [cutAt?_eq_some_iff.2 hfirst] at hnone
    cases hnone
  | case4 text _ _ before inner hcut hnone =>
    refine ⟨[], text, .here text, List.forall_mem_nil _, fun before' inner' hfirst => ?_⟩
    obtain ⟨-, rfl⟩ := hfirst.unique (firstAt_of_cutAt? hcut)
    exact cutAt?_eq_none_iff.1 hnone
  | case5 text _ _ before inner hcut captured after hclose hempty ih =>
    obtain ⟨idle, rest, hleads, hidle, hrest⟩ := ih (Option.map_eq_none_iff.1 h)
    exact ⟨⟨before, captured⟩ :: idle, rest,
      .mark (firstAt_of_cutAt? hcut) (firstAt_of_cutAt? hclose) hleads,
      List.forall_mem_cons.2 ⟨List.isEmpty_iff.1 hempty, hidle⟩, hrest⟩
  | case6 => cases h

/-- If a text has only marks that capture nothing, no marker is found in it. -/
theorem first?_eq_none (hleads : Leads d text idle rest) (hidle : ∀ mark ∈ idle, mark.Idle trimPaths)
    (hrest : Unmarked d rest) : first? d trimPaths text = none := by
  induction hleads with
  | here text =>
    rw [first?]
    split
    · rfl
    · split
      · rfl
      · split
        · rfl
        · next before inner hcut =>
          have hmissing := cutAt?_eq_none_iff.2 (hrest before inner (firstAt_of_cutAt? hcut))
          split
          · rfl
          · next hclose =>
            rw [hmissing] at hclose
            cases hclose
  | @mark text before inner captured between after marks hopening hclosing _ ih =>
    obtain ⟨hmark, hothers⟩ := List.forall_mem_cons.1 hidle
    rw [first?]
    split
    · rfl
    · split
      · rfl
      · split
        · rfl
        · next before' inner' hcut =>
          obtain ⟨rfl, rfl⟩ := hopening.unique (firstAt_of_cutAt? hcut)
          split
          · rfl
          · next captured' after' hclose =>
            obtain ⟨rfl, rfl⟩ := hclosing.unique (firstAt_of_cutAt? hclose)
            rw [if_pos (List.isEmpty_iff.2 hmark), ih hothers hrest, Option.map_none]

end Marker

end DataBinding
