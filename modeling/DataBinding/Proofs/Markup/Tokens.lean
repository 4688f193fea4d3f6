import DataBinding.Markup.Document
import DataBinding.Proofs.Markup.Scanning

/-!
# What tokens can be read

The scanners read nothing that could not be written: the names in the token of a tag are names of tags
and attributes, a comment does not hold its own end, and a text is not empty. A text is also read as far
as it goes, so that two texts never follow each other.
-/

set_option autoImplicit false

namespace DataBinding.Markup

open DataBinding.Markup.Tree

/-- A token that could have been written. -/
inductive Token.Sound : Token → Prop where
  | opening {name : List Char} {attributes : List (List Char × List Char)} {selfClosing : Bool}
      (hname : IsTag (lowercase (String.ofList name)))
      (hattributes : ∀ entry ∈ attributes, IsAttributeName (String.ofList entry.1)) :
      Sound (.opening name attributes selfClosing)
  | closing (name : List Char) : Sound (.closing name)
  | comment {body : List Char} (hbody : ¬ "-->".toList <:+: body) : Sound (.comment body)
  | text {content : List Char} (hcontent : content ≠ []) : Sound (.text content)

/-- Whether a token is a run of text. -/
def Token.isText : Token → Bool
  | .text _ => true
  | _ => false

/-! ## Names of tags -/

/-- The characters of tags are ASCII, so lower case is a matter of single characters. -/
theorem toNat_lt_of_isTagChar {c : Char} (h : isTagChar c = true) : c.toNat < 128 := by
  simp only [isTagChar, isAsciiLetter, Bool.or_eq_true, Bool.and_eq_true, decide_eq_true_eq,
    beq_iff_eq, Char.le_def, UInt32.le_iff_toNat_le] at h
  rcases h with (((h | h) | h) | rfl) | rfl
  · exact Nat.lt_of_le_of_lt h.2 (by decide)
  · exact Nat.lt_of_le_of_lt h.2 (by decide)
  · exact Nat.lt_of_le_of_lt h.2 (by decide)
  · decide
  · decide

/-- What the lower case of a character in the name of a tag is. -/
theorem toLower_tagChar {c : Char} (h : isTagChar c = true) :
    isTagChar c.toLower = true ∧ c.toLower.toLower = c.toLower ∧
      isAsciiLetter c.toLower = isAsciiLetter c := by
  have hall : ∀ n < 128, isTagChar (Char.ofNat n) = true →
      isTagChar (Char.ofNat n).toLower = true ∧
        (Char.ofNat n).toLower.toLower = (Char.ofNat n).toLower ∧
        isAsciiLetter (Char.ofNat n).toLower = isAsciiLetter (Char.ofNat n) := by
    decide
  have hc := hall c.toNat (toNat_lt_of_isTagChar h)
  rw [Char.ofNat_toNat] at hc
  exact hc h

/-- A letter and characters of tags make up a tag once they are in lower case. -/
theorem isTag_lowercase {c : Char} {rest : List Char} (hc : isAsciiLetter c = true)
    (hrest : ∀ d ∈ rest, isTagChar d = true) : IsTag (lowercase (String.ofList (c :: rest))) := by
  have hlist : (lowercase (String.ofList (c :: rest))).toList = (c :: rest).map Char.toLower := by
    rw [lowercase, String.toList_ofList, String.toList_ofList]
  have hall : ∀ d ∈ c :: rest, isTagChar d = true := by
    intro d hd
    rcases List.mem_cons.1 hd with rfl | hd
    · simp [isTagChar, hc]
    · exact hrest d hd
  refine ⟨⟨c.toLower, rest.map Char.toLower, hlist, ?_⟩, ?_, ?_⟩
  · rw [(toLower_tagChar (hall c List.mem_cons_self)).2.2, hc]
  · intro d hd
    rw [hlist] at hd
    obtain ⟨e, he, rfl⟩ := List.mem_map.1 hd
    exact (toLower_tagChar (hall e he)).1
  · rw [← String.toList_inj, hlist]
    rw [lowercase, String.toList_ofList, hlist, List.map_map]
    apply List.map_congr_left
    intro d hd
    exact (toLower_tagChar (hall d hd)).2.1

/-! ## Opening tags -/

/-- What is taken for the name of an attribute is such a name. -/
theorem isAttributeName_takeWhile {text : List Char}
    (h : (text.dropWhile isBlank).takeWhile isNameChar ≠ []) :
    IsAttributeName (String.ofList ((text.dropWhile isBlank).takeWhile isNameChar)) := by
  constructor
  · cases hspaced : text.dropWhile isBlank with
    | nil =>
      rw [hspaced] at h
      exact absurd rfl h
    | cons c rest =>
      have hblank : isBlank c = false := by
        have hhead := List.head?_dropWhile_not isBlank text
        rw [hspaced] at hhead
        simpa using hhead
      rw [hspaced] at h
      by_cases hc : isNameChar c = true
      · refine ⟨c, rest.takeWhile isNameChar, ?_, hblank⟩
        rw [String.toList_ofList, List.takeWhile_cons_of_pos hc]
      · rw [List.takeWhile_cons_of_neg hc] at h
        exact absurd rfl h
  · intro c hc
    rw [String.toList_ofList] at hc
    exact List.all_eq_true.1 List.all_takeWhile c hc

/-- All attributes that are read have names that could have been written. -/
theorem isAttributeName_of_scanAttributes (text : List Char)
    {attributes : List (List Char × List Char)} {selfClosing : Bool} {after : List Char}
    (h : scanAttributes text = .ok ((attributes, selfClosing), after)) :
    ∀ entry ∈ attributes, IsAttributeName (String.ofList entry.1) := by
  fun_induction scanAttributes text generalizing attributes selfClosing after with
  | case1 =>
    cases h
    exact fun _ hmem => absurd hmem List.not_mem_nil
  | case2 =>
    cases h
    exact fun _ hmem => absurd hmem List.not_mem_nil
  | case3 => cases h
  | case4 => cases h
  | case5 => cases h
  | case6 => cases h
  | case7 _ _ _ _ _ _ hmore _ _ _ hne _ ih =>
    cases h
    exact List.forall_mem_cons.2 ⟨isAttributeName_takeWhile hne, ih hmore⟩

/-- An opening tag that is read could have been written. -/
theorem sound_of_scanOpening {text : List Char} {token : Token} {after : List Char}
    (h : scanOpening text = .ok (token, after)) : token.Sound ∧ token.isText = false := by
  unfold scanOpening at h
  split at h
  · cases h
  · split at h
    · cases h
    · next c more _ =>
      split at h
      · next hletter =>
        split at h
        · cases h
        · next attributes selfClosing after' hattributes =>
          cases h
          have hmore : ∀ d ∈ more.takeWhile isTagChar, isTagChar d = true :=
            List.all_eq_true.1 List.all_takeWhile
          exact ⟨.opening (isTag_lowercase hletter hmore)
            (isAttributeName_of_scanAttributes _ hattributes), rfl⟩
      · cases h

/-! ## Comments -/

/-- A comment that is read could have been written: its body does not close it. -/
theorem sound_of_scanComment {text : List Char} {token : Token} {after : List Char}
    (h : scanComment text = .ok (token, after)) : token.Sound ∧ token.isText = false := by
  unfold scanComment at h
  split at h
  · cases h
  · split at h
    · cases h
    · next body after' hcut =>
      cases h
      have hfree := FirstAt.not_infix (firstAt_of_cutAt? hcut) (by decide)
      exact ⟨.comment hfree, rfl⟩

/-- A closing tag that is read could have been written. -/
theorem sound_of_scanClosing {text : List Char} {token : Token} {after : List Char}
    (h : scanClosing text = .ok (token, after)) : token.Sound ∧ token.isText = false := by
  unfold scanClosing at h
  split at h
  · cases h
  · split at h
    · cases h
    · cases h
      exact ⟨.closing _, rfl⟩

/-! ## Texts -/

/-- A run of text is split off where it ends. -/
theorem endsText_splitAtTag (text : List Char) : EndsText (splitAtTag text).2 := by
  induction text with
  | nil => exact .inl rfl
  | cons c text ih =>
    unfold splitAtTag
    split
    · next h => exact .inr h
    · exact ih

/-- A run of text is not empty and goes as far as it can. -/
theorem sound_of_scanText {text : List Char} {token : Token} {after : List Char}
    (h : scanText text = .ok (token, after)) :
    token.Sound ∧ ¬ EndsText text ∧ EndsText after := by
  have hends := endsText_splitAtTag text
  unfold scanText at h
  split at h
  · cases h
  · next content rest hne hsplit =>
    cases h
    rw [hsplit] at hends
    refine ⟨.text hne, fun hstop => ?_, hends⟩
    rw [splitAtTag_of_endsText hstop] at hsplit
    cases hsplit
    exact hne rfl

/-- A token that is read is read by one of the four scanners. -/
theorem scanToken_cases {text : List Char} {found : Token × List Char} (h : scanToken text = .ok found) :
    scanComment text = .ok found ∨ scanClosing text = .ok found ∨ scanOpening text = .ok found ∨
      scanText text = .ok found := by
  simp only [scanToken, scanners, firstSuccess] at h
  split at h
  · next hcomment =>
    cases h
    exact .inl hcomment
  · split at h
    · next hclosing =>
      cases h
      exact .inr (.inl hclosing)
    · split at h
      · next hopening =>
        cases h
        exact .inr (.inr (.inl hopening))
      · split at h
        · next htext =>
          cases h
          exact .inr (.inr (.inr htext))
        · cases h

/-- A token that is read could have been written, and if it is a text there is none before and after it. -/
theorem sound_of_scanToken {text : List Char} {token : Token} {after : List Char}
    (h : scanToken text = .ok (token, after)) :
    token.Sound ∧ (token.isText = true → ¬ EndsText text ∧ EndsText after) := by
  rcases scanToken_cases h with h | h | h | h
  · obtain ⟨hsound, hnot⟩ := sound_of_scanComment h
    exact ⟨hsound, fun htext => absurd htext (by simp [hnot])⟩
  · obtain ⟨hsound, hnot⟩ := sound_of_scanClosing h
    exact ⟨hsound, fun htext => absurd htext (by simp [hnot])⟩
  · obtain ⟨hsound, hnot⟩ := sound_of_scanOpening h
    exact ⟨hsound, fun htext => absurd htext (by simp [hnot])⟩
  · obtain ⟨hsound, hbefore, hafter⟩ := sound_of_scanText h
    exact ⟨hsound, fun _ => ⟨hbefore, hafter⟩⟩

/-- Two tokens that may follow each other. -/
def Token.Apart (first second : Token) : Prop := first.isText = false ∨ second.isText = false

/-- The tokens of a text could have been written, and no two texts follow each other. The induction also
carries that the first token is no text where a run of text has just ended. -/
theorem Lexes.sound {text : List Char} {tokens : List Token} (h : Lexes text tokens) :
    (∀ token ∈ tokens, token.Sound) ∧ tokens.IsChain Token.Apart ∧
      (EndsText text → ∀ token ∈ tokens.head?, token.isText = false) := by
  induction h with
  | done =>
    refine ⟨fun _ hmem => absurd hmem List.not_mem_nil, .nil, fun _ token hmem => ?_⟩
    cases hmem
  | @step text after token tokens hscan _ ih =>
    obtain ⟨hsounds, hchain, hnext⟩ := ih
    obtain ⟨hsound, htext⟩ := sound_of_scanToken hscan
    refine ⟨List.forall_mem_cons.2 ⟨hsound, hsounds⟩, List.isChain_cons.2 ⟨fun next hmem => ?_, hchain⟩,
      fun hstop first hfirst => ?_⟩
    · by_cases hisText : token.isText = true
      · exact .inr (hnext (htext hisText).2 next hmem)
      · exact .inl (by simpa using hisText)
    · obtain rfl := Option.some.inj hfirst
      by_cases hisText : token.isText = true
      · exact absurd hstop (htext hisText).1
      · simpa using hisText

end DataBinding.Markup
