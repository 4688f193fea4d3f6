import DataBinding.Markup.Lexer
import DataBinding.Proofs.Markup.Shapes
import DataBinding.Proofs.Text.Search

/-!
# Scanning what was written

For each kind of token there is a piece of markup that is written for it. If the names in the piece are
such as can be written, the scanner of the kind reads exactly the piece and gives back its token, and the
scanners that are tried earlier give up. Only for a run of text does it matter what follows the piece: it
has to be the start of a tag or a comment, or nothing.
-/

set_option autoImplicit false

namespace DataBinding.Markup

open DataBinding.Markup.Tree

/-! ## Runs of characters -/

/-- A run of characters is taken up to the first one that does not belong to it. -/
theorem takeWhile_append_stop {p : Char → Bool} {run rest : List Char} (hrun : ∀ c ∈ run, p c = true)
    (hrest : ∀ c ∈ rest.head?, p c = false) : (run ++ rest).takeWhile p = run := by
  rw [List.takeWhile_append_of_pos hrun]
  cases rest with
  | nil => simp
  | cons c rest => simp [hrest c rfl]

/-- What is left after a run starts with the first character that does not belong to it. -/
theorem dropWhile_append_stop {p : Char → Bool} {run rest : List Char} (hrun : ∀ c ∈ run, p c = true)
    (hrest : ∀ c ∈ rest.head?, p c = false) : (run ++ rest).dropWhile p = rest := by
  rw [List.dropWhile_append_of_pos hrun]
  cases rest with
  | nil => simp
  | cons c rest => simp [hrest c rfl]

/-- A quoted value without its own quote in it is read up to the closing quote. -/
theorem scanQuoted_append {quote : Char} {value : List Char} (h : quote ∉ value) (text : List Char) :
    scanQuoted quote (value ++ quote :: text) = .ok (value, text) := by
  have hrun : ∀ c ∈ value, (c != quote) = true := by
    intro c hc
    rw [bne_iff_ne]
    exact fun heq => h (heq ▸ hc)
  have hrest : ∀ c ∈ (quote :: text).head?, (c != quote) = false := by simp
  rw [scanQuoted, dropWhile_append_stop hrun hrest, takeWhile_append_stop hrun hrest]

/-- What stands at the start of a text can be expected there. -/
theorem expect_append (expected text : List Char) : expect expected (expected ++ text) = .ok text := by
  induction expected with
  | nil => rfl
  | cons c expected ih => rw [List.cons_append, expect, if_pos rfl, ih]

/-- Expecting another character fails where the text starts. -/
theorem expect_of_ne {c d : Char} (h : c ≠ d) (expected text : List Char) :
    expect (c :: expected) (d :: text) = .error (d :: text) :=
  if_neg h

/-! ## The characters of names -/

/-- The characters of tags are no blanks. -/
theorem isBlank_of_isTagChar {c : Char} (h : isTagChar c = true) : isBlank c = false := by
  simp only [isTagChar, isAsciiLetter, isBlank, Bool.or_eq_true, Bool.and_eq_true, decide_eq_true_eq,
    beq_iff_eq, Bool.or_eq_false_iff, Bool.and_eq_false_iff, decide_eq_false_iff_not,
    beq_eq_false_iff_ne, ne_eq, Char.le_def, Char.ext_iff, UInt32.le_iff_toNat_le,
    ← UInt32.toNat_inj] at h ⊢
  simp at h ⊢
  omega

/-- No tag has a closing bracket in it. -/
theorem IsTag.ne_of_mem {tag : String} (h : IsTag tag) {c : Char} (hc : c ∈ tag.toList) : c ≠ '>' := by
  intro hgt
  have htagChar := h.chars c hc
  rw [hgt] at htagChar
  exact absurd htagChar (by decide)

/-- Where no character belongs to a run, nothing is dropped. -/
theorem dropWhile_of_forall_false {p : Char → Bool} {text : List Char} (h : ∀ c ∈ text, p c = false) :
    text.dropWhile p = text := by
  cases text with
  | nil => rfl
  | cons c text => exact List.dropWhile_cons_of_neg (by simp [h c List.mem_cons_self])

/-- There is nothing to trim from the name of a tag. -/
theorem IsTag.trim {tag : String} (h : IsTag tag) : trim tag.toList = tag.toList := by
  have hblank : ∀ c ∈ tag.toList, isBlank c = false := fun c hc => isBlank_of_isTagChar (h.chars c hc)
  have hreverse : ∀ c ∈ tag.toList.reverse, isBlank c = false :=
    fun c hc => hblank c (List.mem_reverse.1 hc)
  rw [DataBinding.trim, trimEnd, dropWhile_of_forall_false hblank, dropWhile_of_forall_false hreverse,
    List.reverse_reverse]

/-! ## Tags -/

/-- An attribute as it stands in an opening tag. -/
def writtenAttribute (entry : String × String) : List Char × List Char :=
  (entry.1.toList, escape entry.2.toList)

/-- A value that was written is read back as its escaped text. -/
theorem scanValue_written (value : String) (text : List Char) :
    scanValue ('=' :: '"' :: (escape value.toList ++ '"' :: text)) =
      .ok (escape value.toList, text) := by
  have hequals : isBlank '=' = false := by decide
  have hquote : isBlank '"' = false := by decide
  rw [scanValue]
  simp only [List.dropWhile_cons, hequals, hquote, Bool.false_eq_true, if_false]
  exact scanQuoted_append (not_mem_escape (by decide) (by decide) _) text

/-- Attributes end at a closing bracket after some blanks. -/
theorem scanAttributes_end {text after : List Char} (h : text.dropWhile isBlank = '>' :: after) :
    scanAttributes text = .ok (([], false), after) := by
  rw [scanAttributes]
  split
  · next hdrop =>
    rw [h] at hdrop
    cases hdrop
    rfl
  · next hdrop =>
    rw [h] at hdrop
    cases hdrop
  · next hdrop =>
    rw [h] at hdrop
    cases hdrop
  · next hnot _ _ => exact absurd h (hnot after)

/-- An attribute is read in front of others. -/
theorem scanAttributes_attribute {text name rest value more after : List Char}
    {attributes : List (List Char × List Char)} {selfClosing : Bool}
    (hdrop : text.dropWhile isBlank = name ++ rest) (hne : name ≠ [])
    (hname : ∀ c ∈ name, isNameChar c = true) (hrest : ∀ c ∈ rest.head?, isNameChar c = false)
    (hvalue : scanValue rest = .ok (value, more))
    (hmore : scanAttributes more = .ok ((attributes, selfClosing), after)) :
    scanAttributes text = .ok (((name, value) :: attributes, selfClosing), after) := by
  have htake : (text.dropWhile isBlank).takeWhile isNameChar = name := by
    rw [hdrop]
    exact takeWhile_append_stop hname hrest
  have hskip : (text.dropWhile isBlank).dropWhile isNameChar = rest := by
    rw [hdrop]
    exact dropWhile_append_stop hname hrest
  have hstart : ∀ c after, text.dropWhile isBlank = c :: after → isNameChar c = true := by
    intro c after hc
    cases name with
    | nil => exact absurd rfl hne
    | cons d name =>
      rw [hdrop] at hc
      cases hc
      exact hname c List.mem_cons_self
  rw [scanAttributes]
  split
  · next hgt => exact absurd (hstart _ _ hgt) (by decide)
  · next hslash => exact absurd (hstart _ _ hslash) (by decide)
  · next hslash => exact absurd (hstart _ _ hslash) (by decide)
  · rw [htake, dif_neg hne]
    split
    · next stop herror =>
      rw [hskip, hvalue] at herror
      cases herror
    · next value' more' hok =>
      rw [hskip, hvalue] at hok
      cases hok
      rw [hmore]

/-- Attributes that were written are read back, with their values escaped, by induction on the attributes. -/
theorem scanAttributes_written {attributes : List (String × String)}
    (h : ∀ entry ∈ attributes, IsAttributeName entry.1) (text : List Char) :
    scanAttributes (attributes.flatMap writeAttribute ++ '>' :: text) =
      .ok ((attributes.map writtenAttribute, false), text) := by
  induction attributes with
  | nil =>
    apply scanAttributes_end
    exact List.dropWhile_cons_of_neg (by decide)
  | cons entry attributes ih =>
    obtain ⟨name, value⟩ := entry
    obtain ⟨hname, hothers⟩ := List.forall_mem_cons.1 h
    obtain ⟨c, rest, hstart, hc⟩ := hname.starts
    have htext : (⟨name, value⟩ :: attributes).flatMap writeAttribute ++ '>' :: text =
        ' ' :: (name.toList ++ '=' :: '"' :: (escape value.toList ++ '"' ::
          (attributes.flatMap writeAttribute ++ '>' :: text))) := by
      simp [writeAttribute]
    rw [htext]
    refine scanAttributes_attribute ?_ ?_ hname.chars ?_ (scanValue_written value _) (ih hothers)
    · rw [List.dropWhile_cons_of_pos (by decide), hstart]
      exact List.dropWhile_cons_of_neg (by simp [hc])
    · simp [hstart]
    · simp [isNameChar]

/-- What follows the name in an opening tag does not look like more of the name. -/
theorem not_isTagChar_of_written (attributes : List (String × String)) (text : List Char) :
    ∀ c ∈ (attributes.flatMap writeAttribute ++ '>' :: text).head?, isTagChar c = false := by
  intro c hc
  cases attributes with
  | nil =>
    cases Option.some.inj hc
    decide
  | cons entry attributes =>
    cases Option.some.inj hc
    decide

/-- An opening tag that was written is read back. -/
theorem scanOpening_written {tag : String} {attributes : List (String × String)} (htag : IsTag tag)
    (hnames : ∀ entry ∈ attributes, IsAttributeName entry.1) (text : List Char) :
    scanOpening (writeOpening tag attributes ++ text) =
      .ok (.opening tag.toList (attributes.map writtenAttribute) false, text) := by
  obtain ⟨c, rest, hstart, hletter⟩ := htag.starts
  have hrest : ∀ d ∈ rest, isTagChar d = true := fun d hd => htag.chars d (by simp [hstart, hd])
  have hstop := not_isTagChar_of_written attributes text
  have htext : writeOpening tag attributes ++ text =
      '<' :: c :: (rest ++ (attributes.flatMap writeAttribute ++ '>' :: text)) := by
    simp [writeOpening, hstart]
  have hexpect : expect "<".toList (writeOpening tag attributes ++ text) =
      .ok (c :: (rest ++ (attributes.flatMap writeAttribute ++ '>' :: text))) := by
    rw [htext]
    exact expect_append ['<'] _
  rw [scanOpening, hexpect]
  simp only [hletter, if_true]
  rw [dropWhile_append_stop hrest hstop, takeWhile_append_stop hrest hstop,
    scanAttributes_written hnames, hstart]

/-- A closing tag that was written is read back. -/
theorem scanClosing_written {tag : String} (htag : IsTag tag) (text : List Char) :
    scanClosing (writeClosing tag ++ text) = .ok (.closing tag.toList, text) := by
  have htext : writeClosing tag ++ text = "</".toList ++ (tag.toList ++ '>' :: text) := by
    simp [writeClosing]
  have hfree : '>' ∉ tag.toList := fun hmem => htag.ne_of_mem hmem rfl
  rw [scanClosing, htext, expect_append]
  simp only
  rw [scanQuoted_append hfree]
  simp only [htag.trim]

/-! ## Comments -/

/-- Cutting off a start leaves what follows it. -/
theorem isPrefixOf?_append (start after : List Char) :
    start.isPrefixOf? (start ++ after) = some after := by
  rw [List.isPrefixOf?_eq_some_iff_append_eq]

/-- The end of a comment does not start in its body. -/
theorem not_prefix_of_body {c : Char} {body : List Char} (h : ¬ "-->".toList <:+: c :: body)
    (text : List Char) : ¬ "-->".toList <+: c :: (body ++ ("-->".toList ++ text)) := by
  have hend : "-->".toList = ['-', '-', '>'] := rfl
  rw [hend] at h ⊢
  intro hstarts
  match body with
  | [] => simp [List.cons_prefix_cons] at hstarts
  | [d] => simp [List.cons_prefix_cons] at hstarts
  | d :: e :: rest =>
    simp only [List.cons_append, List.cons_prefix_cons] at hstarts
    obtain ⟨rfl, rfl, rfl, -⟩ := hstarts
    exact h ⟨[], rest, rfl⟩

/-- A comment ends at the first `-->`: no earlier one arises from the end of its body. -/
theorem cutAt?_comment_end {body : List Char} (h : ¬ "-->".toList <:+: body) (text : List Char) :
    cutAt? "-->".toList (body ++ ("-->".toList ++ text)) = some (body, text) := by
  induction body with
  | nil =>
    have hfound := isPrefixOf?_append "-->".toList text
    have hend : "-->".toList = ['-', '-', '>'] := rfl
    rw [hend] at hfound ⊢
    simp only [List.nil_append, List.cons_append] at hfound ⊢
    rw [cutAt?, hfound]
  | cons c body ih =>
    have hmissing := isPrefixOf?_eq_none_iff.2 (not_prefix_of_body h text)
    have hbody : ¬ "-->".toList <:+: body := fun hholds => h (List.infix_cons hholds)
    rw [List.cons_append, cutAt?, hmissing, ih hbody]
    rfl

/-- A comment that was written is read back. -/
theorem scanComment_written {body : String} (h : ¬ "-->".toList <:+: body.toList) (text : List Char) :
    scanComment ((Tree.comment body).write ++ text) = .ok (.comment body.toList, text) := by
  have htext : (Tree.comment body).write ++ text =
      "<!--".toList ++ (body.toList ++ ("-->".toList ++ text)) := by
    simp only [write, List.append_assoc]
  rw [scanComment, htext, expect_append]
  simp only
  rw [cutAt?_comment_end h]

/-! ## Text -/

/-- Whether a run of text ends before some text. -/
def EndsText (text : List Char) : Prop := text = [] ∨ startsTag text = true

/-- Where a run of text ends, no text is split off. -/
theorem splitAtTag_of_endsText {text : List Char} (h : EndsText text) : splitAtTag text = ([], text) := by
  cases text with
  | nil => rfl
  | cons c text =>
    rcases h with h | h
    · cases h
    · rw [splitAtTag, if_pos h]

/-- Nothing but an opening bracket starts a tag. -/
theorem startsTag_of_ne {c : Char} (h : c ≠ '<') (text : List Char) : startsTag (c :: text) = false := by
  unfold startsTag
  split
  · next heq => exact absurd (List.cons.inj heq).1 h
  · next heq => exact absurd (List.cons.inj heq).1 h
  · next heq => exact absurd (List.cons.inj heq).1 h
  · rfl

/-- An opening bracket in front of a letter starts a tag. -/
theorem startsTag_of_letter {c : Char} (h : isAsciiLetter c = true) (text : List Char) :
    startsTag ('<' :: c :: text) = true := by
  unfold startsTag
  split
  · rfl
  · rfl
  · next heq =>
    cases heq
    exact h
  · next hnot => exact absurd rfl (hnot c text)

/-- Text without an opening bracket is split off up to where a run can end. -/
theorem splitAtTag_append_of_endsText {content text : List Char} (hcontent : '<' ∉ content)
    (htext : EndsText text) : splitAtTag (content ++ text) = (content, text) := by
  induction content with
  | nil => exact splitAtTag_of_endsText htext
  | cons c content ih =>
    have hc : c ≠ '<' := fun heq => hcontent (by simp [heq])
    have hrest : '<' ∉ content := fun hmem => hcontent (List.mem_cons_of_mem c hmem)
    rw [List.cons_append, splitAtTag, startsTag_of_ne hc, if_neg (by simp), ih hrest]

/-- A run of text that was written is read back as its escaped text. -/
theorem scanText_written {content text : List Char} (hne : content ≠ []) (htext : EndsText text) :
    scanText (escape content ++ text) = .ok (.text (escape content), text) := by
  have hsplit := splitAtTag_append_of_endsText (not_mem_escape (by decide) (by decide) content) htext
  rw [scanText, hsplit]
  split
  · next hempty => exact absurd (escape_eq_nil.1 (Prod.mk.inj hempty).1) hne
  · next heq =>
    cases heq
    rfl

/-! ## Tokens -/

/-- An opening bracket without an exclamation mark starts no comment. -/
theorem scanComment_of_ne {c : Char} (h : c ≠ '!') (text : List Char) :
    scanComment ('<' :: c :: text) = .error (c :: text) := by
  have hstart : "<!--".toList = ['<', '!', '-', '-'] := rfl
  rw [scanComment, hstart, expect, if_pos rfl, expect_of_ne (Ne.symm h)]

/-- An opening bracket without a slash starts no closing tag. -/
theorem scanClosing_of_ne {c : Char} (h : c ≠ '/') (text : List Char) :
    scanClosing ('<' :: c :: text) = .error (c :: text) := by
  have hstart : "</".toList = ['<', '/'] := rfl
  rw [scanClosing, hstart, expect, if_pos rfl, expect_of_ne (Ne.symm h)]

/-- The token of a comment that was written is the comment. -/
theorem scanToken_comment {body : String} (h : ¬ "-->".toList <:+: body.toList) (text : List Char) :
    scanToken ((Tree.comment body).write ++ text) = .ok (.comment body.toList, text) := by
  rw [scanToken, scanners, firstSuccess, scanComment_written h]

/-- The token of a closing tag that was written is the closing tag, since no comment starts there. -/
theorem scanToken_closing {tag : String} (h : IsTag tag) (text : List Char) :
    scanToken (writeClosing tag ++ text) = .ok (.closing tag.toList, text) := by
  have hcomment : scanComment (writeClosing tag ++ text) =
      .error ('/' :: (tag.toList ++ ['>'] ++ text)) :=
    scanComment_of_ne (by decide) _
  rw [scanToken, scanners, firstSuccess, hcomment]
  simp only
  rw [firstSuccess, scanClosing_written h]

/-- The token of an opening tag that was written is the opening tag, since neither a comment nor a closing
tag starts there. -/
theorem scanToken_opening {tag : String} {attributes : List (String × String)} (htag : IsTag tag)
    (hnames : ∀ entry ∈ attributes, IsAttributeName entry.1) (text : List Char) :
    scanToken (writeOpening tag attributes ++ text) =
      .ok (.opening tag.toList (attributes.map writtenAttribute) false, text) := by
  obtain ⟨c, rest, hstart, hletter⟩ := htag.starts
  have hne : ∀ d, isAsciiLetter d = false → c ≠ d := by
    intro d hd heq
    rw [← heq, hletter] at hd
    cases hd
  have htext : writeOpening tag attributes ++ text =
      '<' :: c :: (rest ++ (attributes.flatMap writeAttribute ++ '>' :: text)) := by
    simp [writeOpening, hstart]
  have hcomment := scanComment_of_ne (hne '!' (by decide))
    (rest ++ (attributes.flatMap writeAttribute ++ '>' :: text))
  have hclosing := scanClosing_of_ne (hne '/' (by decide))
    (rest ++ (attributes.flatMap writeAttribute ++ '>' :: text))
  have hopening := scanOpening_written htag hnames text
  rw [htext] at hopening ⊢
  simp only [scanToken, scanners, firstSuccess, hcomment, hclosing, hopening]

/-- The token of a text that was written is the text, since no tag starts there. -/
theorem scanToken_text {content text : List Char} (hne : content ≠ []) (htext : EndsText text) :
    scanToken (escape content ++ text) = .ok (.text (escape content), text) := by
  have hscan := scanText_written hne htext
  cases hescape : escape content with
  | nil => exact absurd (escape_eq_nil.1 hescape) hne
  | cons c rest =>
    have hc : '<' ≠ c := by
      intro heq
      have hfree : '<' ∉ escape content := not_mem_escape (by decide) (by decide) content
      rw [hescape, ← heq] at hfree
      exact hfree List.mem_cons_self
    have hcomment : "<!--".toList = ['<', '!', '-', '-'] := rfl
    have hclosing : "</".toList = ['<', '/'] := rfl
    have hopening : "<".toList = ['<'] := rfl
    rw [hescape, List.cons_append] at hscan
    simp only [List.cons_append, scanToken, scanners, firstSuccess, scanComment, scanClosing,
      scanOpening, hcomment, hclosing, hopening, expect_of_ne hc, hscan]

/-! ## Texts that are sequences of tokens -/

/-- A text is a sequence of tokens. -/
inductive Lexes : List Char → List Token → Prop where
  | done : Lexes [] []
  | step {text after : List Char} {token : Token} {tokens : List Token}
      (hscan : scanToken text = .ok (token, after)) (hafter : Lexes after tokens) :
      Lexes text (token :: tokens)

/-- A text that is a sequence of tokens is lexed into them. -/
theorem Lexes.lex {text : List Char} {tokens : List Token} (h : Lexes text tokens) :
    ∃ lexemes, lex text = .ok lexemes ∧ lexemes.map Lexeme.token = tokens := by
  induction h with
  | done => exact ⟨[], by rw [Markup.lex]; rfl, rfl⟩
  | @step text after token tokens hscan _ ih =>
    obtain ⟨others, hothers, htokens⟩ := ih
    have hne : ¬ text.isEmpty = true := by
      intro hempty
      have hlength := length_of_scanToken hscan
      rw [List.isEmpty_iff.1 hempty] at hlength
      exact absurd hlength (Nat.not_lt_zero _)
    refine ⟨⟨text.take (text.length - after.length), token⟩ :: others, ?_, ?_⟩
    · rw [Markup.lex, if_neg hne]
      split
      · next herror =>
        rw [hscan] at herror
        cases herror
      · next hok =>
        rw [hscan] at hok
        cases hok
        rw [hothers]
        rfl
    · rw [List.map_cons, htokens]

/-- A text that is lexed is the sequence of its tokens. -/
theorem lexes_of_lex {text : List Char} {lexemes : List Lexeme} (h : lex text = .ok lexemes) :
    Lexes text (lexemes.map Lexeme.token) := by
  fun_induction lex text generalizing lexemes with
  | case1 text hempty =>
    cases h
    rw [List.isEmpty_iff.1 hempty]
    exact .done
  | case2 => cases h
  | case3 text _ token after hscan ih =>
    cases hothers : lex after with
    | error stop =>
      rw [hothers] at h
      cases h
    | ok others =>
      rw [hothers] at h
      cases h
      exact .step hscan (ih hothers)

end DataBinding.Markup
