import DataBinding.Text.Blank

/-!
# Words

The pieces of a text are cut apart at the separators, and its words are the pieces between blanks that are not
empty. `IsWord` says the same without cutting: a word has no blank in it, and stands in the text between blanks or
the ends of the text.
-/

set_option autoImplicit false

namespace DataBinding

variable {separates : Char → Bool} {piece text : List Char}

/-- Splitting a text gives at least one piece. -/
theorem pieces_ne_nil (separates : Char → Bool) (text : List Char) : pieces separates text ≠ [] := by
  cases text with
  | nil => exact List.cons_ne_nil _ _
  | cons c rest =>
    unfold pieces
    split
    · exact List.cons_ne_nil _ _
    · split <;> exact List.cons_ne_nil _ _

/-- A text without separators is one piece. -/
theorem pieces_of_plain (hplain : ∀ c ∈ text, separates c = false) : pieces separates text = [text] := by
  induction text with
  | nil => rfl
  | cons c rest ih =>
    obtain ⟨hc, hrest⟩ := List.forall_mem_cons.1 hplain
    rw [pieces, if_neg (by rw [hc]; exact Bool.false_ne_true), ih hrest]

/-- A separator divides the pieces before it from those after it. -/
theorem pieces_append_cons {c : Char} (hc : separates c = true) (before after : List Char) :
    pieces separates (before ++ c :: after) = pieces separates before ++ pieces separates after := by
  induction before with
  | nil =>
    rw [List.nil_append, pieces.eq_def]
    exact if_pos hc
  | cons d before ih =>
    rw [List.cons_append, pieces, pieces, ih]
    split
    · rfl
    · cases hpieces : pieces separates before with
      | nil => exact absurd hpieces (pieces_ne_nil separates before)
      | cons first others => rfl

/-- A text stands in another one with no separator in it, between separators or the ends of the other text. -/
structure IsPiece (separates : Char → Bool) (piece text : List Char) : Prop where
  plain : ∀ c ∈ piece, separates c = false
  stands : ∃ before after, text = before ++ piece ++ after ∧
    (∀ c ∈ before.getLast?, separates c = true) ∧ ∀ c ∈ after.head?, separates c = true

/-- A text is plain, or has a first separator. -/
theorem plain_or_separator (separates : Char → Bool) (text : List Char) :
    (∀ c ∈ text, separates c = false) ∨ ∃ first c rest, text = first ++ c :: rest ∧
      (∀ d ∈ first, separates d = false) ∧ separates c = true := by
  induction text with
  | nil => exact .inl fun _ hc => absurd hc List.not_mem_nil
  | cons c rest ih =>
    cases hc : separates c with
    | true => exact .inr ⟨[], c, rest, rfl, fun _ hd => absurd hd List.not_mem_nil, hc⟩
    | false =>
      rcases ih with hplain | ⟨first, d, rest, rfl, hfirst, hd⟩
      · exact .inl (List.forall_mem_cons.2 ⟨hc, hplain⟩)
      · exact .inr ⟨c :: first, d, rest, rfl, List.forall_mem_cons.2 ⟨hc, hfirst⟩, hd⟩

/-- What splitting gives are pieces: separators stand around them and none within. -/
theorem isPiece_of_mem_pieces (h : piece ∈ pieces separates text) : IsPiece separates piece text := by
  induction hlength : text.length using Nat.strongRecOn generalizing text with
  | _ length ih =>
    rcases plain_or_separator separates text with hplain | ⟨first, c, rest, rfl, hfirst, hc⟩
    · rw [pieces_of_plain hplain, List.mem_singleton] at h
      subst h
      exact ⟨hplain, [], [], by simp, by simp, by simp⟩
    · rw [pieces_append_cons hc, pieces_of_plain hfirst, List.singleton_append] at h
      rcases List.mem_cons.1 h with rfl | hlater
      · exact ⟨hfirst, [], c :: rest, by simp, by simp, by simpa using hc⟩
      · have hshorter : rest.length < length := by
          rw [← hlength]
          simp
          omega
        obtain ⟨hplain, before, after, rfl, hbefore, hafter⟩ := ih _ hshorter hlater rfl
        refine ⟨hplain, first ++ c :: before, after, by simp, fun d hd => ?_, hafter⟩
        have hlast : before.getLast?.getD c = d := by simpa [List.getLast?_cons] using hd
        cases hends : before.getLast? with
        | none =>
          rw [hends] at hlast
          rwa [← hlast]
        | some last =>
          rw [hends] at hlast
          rw [← hlast]
          exact hbefore last hends

/-- Splitting gives every piece of a text. -/
theorem mem_pieces_of_isPiece (h : IsPiece separates piece text) : piece ∈ pieces separates text := by
  obtain ⟨hplain, before, after, rfl, hbefore, hafter⟩ := h
  have hfrom : piece ∈ pieces separates (piece ++ after) := by
    cases after with
    | nil => rw [List.append_nil, pieces_of_plain hplain]; exact List.mem_singleton_self piece
    | cons c after =>
      rw [pieces_append_cons (hafter c rfl), pieces_of_plain hplain]
      exact List.mem_cons_self
  rcases List.eq_nil_or_concat before with rfl | ⟨start, c, rfl⟩
  · exact hfrom
  · have hc : separates c = true := hbefore c (by simp)
    rw [show start.concat c ++ piece ++ after = start ++ c :: (piece ++ after) by simp, pieces_append_cons hc]
    exact List.mem_append_right _ hfrom

/-- Splitting at separators gives exactly the pieces of a text. -/
theorem mem_pieces_iff : piece ∈ pieces separates text ↔ IsPiece separates piece text :=
  ⟨isPiece_of_mem_pieces, mem_pieces_of_isPiece⟩

/-- A text that is not empty and has no blank in it stands in another one between blanks or its ends. -/
def IsWord (word text : List Char) : Prop := word ≠ [] ∧ IsPiece isBlank word text

/-- The words of a text are what stands in it between blanks. -/
theorem mem_words_iff {word : List Char} : word ∈ words text ↔ IsWord word text := by
  unfold words IsWord
  rw [List.mem_filter, mem_pieces_iff, and_comm]
  simp

end DataBinding
