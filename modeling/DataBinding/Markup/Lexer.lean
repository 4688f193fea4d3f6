import DataBinding.Markup.Token

/-!
# Splitting markup into tokens

`lex` reads tokens until the text is used up. Each scanner that succeeds uses up at least one character,
so the text gets shorter with each token.
-/

set_option autoImplicit false

namespace DataBinding.Markup

/-- What is expected stands at the start of a text in which it is read. -/
theorem eq_append_of_expect {expected text after : List Char}
    (h : expect expected text = .ok after) : text = expected ++ after := by
  induction expected generalizing text with
  | nil =>
    cases h
    rfl
  | cons c expected ih =>
    cases text with
    | nil => cases h
    | cons d text =>
      unfold expect at h
      split at h
      · next hcd => rw [hcd, ih h, List.cons_append]
      · cases h

/-- Reading attributes takes at least the character that ends the tag. -/
theorem length_of_scanAttributes (text : List Char)
    {found : List (List Char × List Char) × Bool} {after : List Char}
    (h : scanAttributes text = .ok (found, after)) : after.length < text.length := by
  fun_induction scanAttributes text generalizing found after with
  | case1 text rest hdrop =>
    cases h
    have h₁ := length_dropWhile_le isBlank text
    rw [hdrop, List.length_cons] at h₁
    omega
  | case2 text rest hdrop =>
    cases h
    have h₁ := length_dropWhile_le isBlank text
    rw [hdrop, List.length_cons, List.length_cons] at h₁
    omega
  | case3 => cases h
  | case4 => cases h
  | case5 => cases h
  | case6 => cases h
  | case7 text _ rest _ _ _ hmore _ _ _ _ hvalue ih =>
    cases h
    have h₁ := length_dropWhile_le isBlank text
    have h₂ := length_of_scanValue hvalue
    have h₃ := length_dropWhile_le isNameChar (text.dropWhile isBlank)
    have h₄ := ih hmore
    omega

/-- Reading a comment makes a text shorter. -/
theorem length_of_scanComment {text : List Char} {token : Token} {after : List Char}
    (h : scanComment text = .ok (token, after)) : after.length < text.length := by
  unfold scanComment at h
  split at h
  · cases h
  · next rest hexpect =>
    split at h
    · cases h
    · next body last hcut =>
      cases h
      have h₁ := length_of_cutAt? hcut
      rw [eq_append_of_expect hexpect, List.length_append]
      have h₂ : "<!--".toList.length = 4 := rfl
      omega

/-- Reading a closing tag makes a text shorter. -/
theorem length_of_scanClosing {text : List Char} {token : Token} {after : List Char}
    (h : scanClosing text = .ok (token, after)) : after.length < text.length := by
  unfold scanClosing at h
  split at h
  · cases h
  · next rest hexpect =>
    split at h
    · cases h
    · next name last hname =>
      cases h
      have h₁ := length_of_scanQuoted hname
      rw [eq_append_of_expect hexpect, List.length_append]
      have h₂ : "</".toList.length = 2 := rfl
      omega

/-- Reading an opening tag makes a text shorter. -/
theorem length_of_scanOpening {text : List Char} {token : Token} {after : List Char}
    (h : scanOpening text = .ok (token, after)) : after.length < text.length := by
  unfold scanOpening at h
  split at h
  · cases h
  · next rest hexpect =>
    split at h
    · cases h
    · next c more =>
      split at h
      · split at h
        · cases h
        · next attributes selfClosing last hattributes =>
          cases h
          have h₁ := length_of_scanAttributes _ hattributes
          have h₂ := length_dropWhile_le isTagChar more
          rw [eq_append_of_expect hexpect, List.length_append, List.length_cons]
          omega
      · cases h

/-- The run of text before a tag and the rest make up the whole text. -/
theorem splitAtTag_append (text : List Char) :
    (splitAtTag text).1 ++ (splitAtTag text).2 = text := by
  induction text with
  | nil => rfl
  | cons c rest ih =>
    unfold splitAtTag
    split
    · rfl
    · rw [List.cons_append, ih]

/-- Reading a run of text makes a text shorter, since an empty run is not read. -/
theorem length_of_scanText {text : List Char} {token : Token} {after : List Char}
    (h : scanText text = .ok (token, after)) : after.length < text.length := by
  have happend := splitAtTag_append text
  unfold scanText at h
  split at h
  · cases h
  · next content last hne hsplit =>
    cases h
    rw [← happend, hsplit, List.length_append]
    have hpos := List.length_pos_iff.2 hne
    simp only
    omega

/-- If each of some scanners makes a text shorter, so does the first of them that succeeds. -/
theorem length_of_firstSuccess {text stop : List Char} {token : Token} {after : List Char}
    {all : List (List Char → Scan Token)}
    (hall : ∀ scanner ∈ all, ∀ token after, scanner text = .ok (token, after) →
      after.length < text.length)
    (h : firstSuccess text stop all = .ok (token, after)) : after.length < text.length := by
  induction all generalizing stop with
  | nil => cases h
  | cons scanner others ih =>
    unfold firstSuccess at h
    split at h
    · next found hfound =>
      cases h
      exact hall scanner List.mem_cons_self _ _ hfound
    · exact ih (fun s hs => hall s (List.mem_cons_of_mem _ hs)) h

/-- Reading a token makes a text shorter, so lexing comes to an end. -/
theorem length_of_scanToken {text : List Char} {token : Token} {after : List Char}
    (h : scanToken text = .ok (token, after)) : after.length < text.length := by
  refine length_of_firstSuccess (fun scanner hs token after hok => ?_) h
  simp only [scanners, List.mem_cons, List.not_mem_nil, or_false] at hs
  rcases hs with rfl | rfl | rfl | rfl
  · exact length_of_scanComment hok
  · exact length_of_scanClosing hok
  · exact length_of_scanOpening hok
  · exact length_of_scanText hok

/-- The tokens of a text, or the text from the point of failure on. -/
def lex (text : List Char) : Except (List Char) (List Lexeme) :=
  if text.isEmpty then .ok []
  else
    match _h : scanToken text with
    | .error stop => .error stop
    | .ok (token, after) =>
      (lex after).map fun others => ⟨text.take (text.length - after.length), token⟩ :: others
termination_by text.length
decreasing_by exact length_of_scanToken _h

end DataBinding.Markup
