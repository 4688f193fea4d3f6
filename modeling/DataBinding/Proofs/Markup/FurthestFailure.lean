import DataBinding.Proofs.Markup.Attributes
import DataBinding.Proofs.Markup.Tokens

/-!
# Where a text stops being markup

When a text is not a sequence of tokens, the point of failure that is reported stands at the end of the
longest part of the text that could still have become one: what stands before it can be continued, and
what goes on with the next character cannot. The tokens before the failure are read again whatever comes
after it, since the part that failed starts with a tag or a comment, which ends a run of text.
-/

set_option autoImplicit false

namespace DataBinding.Markup

/-! ## Comments and tags -/

/-- Whatever follows, the start of a tag stays one. -/
theorem startsTag_append {text : List Char} (h : startsTag text = true) (more : List Char) :
    startsTag (text ++ more) = true := by
  unfold startsTag at h
  split at h
  · rfl
  · rfl
  · exact startsTag_of_letter h _
  · cases h

/-- The three ways in which a tag or a comment starts. -/
theorem startsTag_cases {text : List Char} (h : startsTag text = true) :
    (∃ rest, text = "<!--".toList ++ rest) ∨ (∃ rest, text = "</".toList ++ rest) ∨
      ∃ c rest, text = '<' :: c :: rest ∧ isAsciiLetter c = true := by
  unfold startsTag at h
  split at h
  · next rest => exact .inl ⟨rest, rfl⟩
  · next rest => exact .inr (.inl ⟨rest, rfl⟩)
  · next c rest _ _ => exact .inr (.inr ⟨c, rest, rfl, h⟩)
  · cases h

/-- No text is read where a tag starts. -/
theorem scanText_of_startsTag {text : List Char} (h : startsTag text = true) :
    scanText text = .error text := by
  rw [scanText, splitAtTag_of_endsText (.inr h)]

/-- An opening tag needs a letter after its bracket, and fails right there if it has none. -/
theorem scanOpening_of_ne {c : Char} (h : isAsciiLetter c = false) (text : List Char) :
    scanOpening ('<' :: c :: text) = .error (c :: text) := by
  have hexpect : expect "<".toList ('<' :: c :: text) = .ok (c :: text) := expect_append ['<'] _
  rw [scanOpening, hexpect]
  simp [h]

/-- No failure is further than one at the end. -/
theorem further_nil (text : List Char) : further text [] = [] := by
  cases text with
  | nil => rfl
  | cons c text => simp [further]

/-- A failure at the end is further than any other. -/
theorem nil_further (text : List Char) : further [] text = [] := by simp [further]

/-- What starts as a comment is one if it is closed, and else fails at the end of the text. -/
theorem scanToken_comment_start (rest : List Char) :
    scanToken ("<!--".toList ++ rest) = match cutAt? "-->".toList rest with
      | none => .error []
      | some (body, after) => .ok (.comment body, after) := by
  have hclosing : scanClosing ("<!--".toList ++ rest) = .error ('!' :: '-' :: '-' :: rest) :=
    scanClosing_of_ne (by decide) _
  have hopening : scanOpening ("<!--".toList ++ rest) = .error ('!' :: '-' :: '-' :: rest) :=
    scanOpening_of_ne (by decide) _
  have htext : scanText ("<!--".toList ++ rest) = .error ("<!--".toList ++ rest) :=
    scanText_of_startsTag rfl
  rw [scanToken, scanners, firstSuccess, scanComment, expect_append]
  cases hcut : cutAt? "-->".toList rest with
  | none => simp only [hcut, firstSuccess, hclosing, hopening, htext, further_nil, nil_further]
  | some found => simp only [hcut]

/-- What starts as a closing tag is one if it has an end, and else fails at the end of the text. -/
theorem scanToken_closing_start (rest : List Char) :
    scanToken ("</".toList ++ rest) = match scanQuoted '>' rest with
      | .error _ => .error []
      | .ok (name, after) => .ok (.closing (trim name), after) := by
  have hcomment : scanComment ("</".toList ++ rest) = .error ('/' :: rest) :=
    scanComment_of_ne (by decide) _
  have hopening : scanOpening ("</".toList ++ rest) = .error ('/' :: rest) :=
    scanOpening_of_ne (by decide) _
  have htext : scanText ("</".toList ++ rest) = .error ("</".toList ++ rest) :=
    scanText_of_startsTag rfl
  rw [scanToken, scanners, firstSuccess, hcomment]
  simp only
  rw [firstSuccess, scanClosing, expect_append]
  cases hname : scanQuoted '>' rest with
  | error stop =>
    obtain ⟨rfl, -⟩ := scanQuoted_error hname
    simp only [hname, firstSuccess, hopening, htext, further_nil, nil_further]
  | ok found => simp only [hname]

/-- What starts as an opening tag is one if its attributes can be read, and else fails where they do. -/
theorem scanToken_opening_start {c : Char} (h : isAsciiLetter c = true) (rest : List Char) :
    scanToken ('<' :: c :: rest) = match scanAttributes (rest.dropWhile isTagChar) with
      | .error stop => .error stop
      | .ok ((attributes, selfClosing), after) =>
        .ok (.opening (c :: rest.takeWhile isTagChar) attributes selfClosing, after) := by
  have hne : ∀ d, isAsciiLetter d = false → c ≠ d := by
    rintro d hd rfl
    rw [h] at hd
    cases hd
  have hcomment := scanComment_of_ne (hne '!' (by decide)) rest
  have hclosing := scanClosing_of_ne (hne '/' (by decide)) rest
  have htext := scanText_of_startsTag (startsTag_of_letter h rest)
  have hexpect : expect "<".toList ('<' :: c :: rest) = .ok (c :: rest) := expect_append ['<'] _
  simp only [scanToken, scanners, firstSuccess, hcomment, hclosing, htext, scanOpening, hexpect, h,
    if_true]
  cases hattributes : scanAttributes (rest.dropWhile isTagChar) with
  | ok found => rfl
  | error stop =>
    obtain ⟨before, hbefore, -, -⟩ := scanAttributes_error hattributes
    have hdrop := length_dropWhile_le isTagChar rest
    rw [hbefore, List.length_append] at hdrop
    have hfurthest : further (c :: rest) stop = stop := if_pos (by simp only [List.length_cons]; omega)
    have hlonger : ∀ text, stop.length ≤ text.length → further stop text = stop := fun text hle =>
      if_neg (Nat.not_lt.2 hle)
    have hstart : further ('<' :: c :: rest) (c :: rest) = c :: rest := if_pos (by simp)
    have hsame : further (c :: rest) (c :: rest) = c :: rest := if_neg (Nat.lt_irrefl _)
    simp only [hstart, hsame, hfurthest]
    rw [hlonger _ (by simp only [List.length_cons]; omega)]

/-- The same for an opening tag whose name has been told apart from what follows it. -/
theorem scanToken_tag {c : Char} {run spaced : List Char} (h : isAsciiLetter c = true)
    (hrun : ∀ d ∈ run, isTagChar d = true) (hspaced : ∀ d ∈ spaced.head?, isTagChar d = false) :
    scanToken ('<' :: c :: (run ++ spaced)) = match scanAttributes spaced with
      | .error stop => .error stop
      | .ok ((attributes, selfClosing), after) =>
        .ok (.opening (c :: run) attributes selfClosing, after) := by
  rw [scanToken_opening_start h, dropWhile_append_stop hrun hspaced, takeWhile_append_stop hrun hspaced]

/-- A text falls into the characters of a name and what follows them. -/
theorem exists_tag (rest : List Char) : ∃ run spaced, rest = run ++ spaced ∧
    (∀ d ∈ run, isTagChar d = true) ∧ ∀ d ∈ spaced.head?, isTagChar d = false :=
  ⟨rest.takeWhile isTagChar, rest.dropWhile isTagChar, List.takeWhile_append_dropWhile.symm,
    List.all_eq_true.1 List.all_takeWhile, head?_dropWhile_eq_false isTagChar rest⟩

/-! ## Runs of text -/

/-- If a run of text ends before some character, that is an opening bracket. -/
theorem EndsText.head {c : Char} {text : List Char} (h : EndsText (c :: text)) : c = '<' := by
  rcases h with h | h
  · cases h
  · by_contra hne
    rw [startsTag_of_ne hne] at h
    cases h

/-- The characters that make a tag or a comment out of a `<`. -/
theorem exists_start {text : List Char} (h : startsTag text = true) :
    ∃ start rest, text = '<' :: (start ++ rest) ∧ '<' ∉ start ∧ startsTag ('<' :: start) = true := by
  rcases startsTag_cases h with ⟨rest, rfl⟩ | ⟨rest, rfl⟩ | ⟨c, rest, rfl, hletter⟩
  · exact ⟨['!', '-', '-'], rest, rfl, by decide, rfl⟩
  · exact ⟨['/'], rest, rfl, by decide, rfl⟩
  · refine ⟨[c], rest, rfl, ?_, startsTag_of_letter hletter []⟩
    rw [List.mem_singleton]
    rintro rfl
    cases hletter

/-- What starts no tag in front of one text starts none in front of a text at which a run of text ends. -/
theorem startsTag_append_of_endsText {c : Char} {content after other : List Char}
    (h : startsTag (c :: (content ++ after)) = false) (hother : EndsText other) :
    startsTag (c :: (content ++ other)) = false := by
  rw [Bool.eq_false_iff]
  intro hstarts
  obtain ⟨start, rest, htext, hfree, hstart⟩ := exists_start hstarts
  obtain ⟨rfl, hsplit⟩ := List.cons.inj htext
  have hwithin : ∃ more, content = start ++ more := by
    rcases List.append_eq_append_iff.1 hsplit with ⟨more, hmore, hrest⟩ | ⟨more, hmore, -⟩
    · cases more with
      | nil => exact ⟨[], by simpa using hmore.symm⟩
      | cons d more =>
        rw [hrest] at hother
        refine absurd ?_ hfree
        rw [hmore, ← (show d = '<' from hother.head)]
        simp
    · exact ⟨more, hmore⟩
  obtain ⟨more, rfl⟩ := hwithin
  rw [List.append_assoc, ← List.cons_append, startsTag_append hstart] at h
  cases h

/-- A run of text ends at the same place in front of any text at which one can end. -/
theorem splitAtTag_other {content after other : List Char}
    (h : splitAtTag (content ++ after) = (content, after)) (hother : EndsText other) :
    splitAtTag (content ++ other) = (content, other) := by
  induction content with
  | nil => exact splitAtTag_of_endsText hother
  | cons c content ih =>
    rw [List.cons_append, splitAtTag] at h ⊢
    split at h
    · cases h
    · next hstarts =>
      have hrest := ih (Prod.ext (List.cons.inj (Prod.mk.inj h).1).2 (Prod.mk.inj h).2)
      rw [startsTag_append_of_endsText (by simpa using hstarts) hother, if_neg (by simp), hrest]

/-- Whatever is read as a comment or as a tag starts as one. -/
theorem startsTag_of_scanTag {text : List Char} {found : Token × List Char}
    (h : scanComment text = .ok found ∨ scanClosing text = .ok found ∨ scanOpening text = .ok found) :
    startsTag text = true := by
  rcases h with h | h | h
  · unfold scanComment at h
    split at h
    · cases h
    · next hexpect =>
      rw [eq_append_of_expect hexpect]
      rfl
  · unfold scanClosing at h
    split at h
    · cases h
    · next hexpect =>
      rw [eq_append_of_expect hexpect]
      rfl
  · unfold scanOpening at h
    split at h
    · cases h
    · next hexpect =>
      split at h
      · cases h
      · split at h
        · next hletter =>
          rw [eq_append_of_expect hexpect]
          exact startsTag_of_letter hletter _
        · cases h

/-- Where no tag starts, a run of text is read. -/
theorem scanToken_of_not_startsTag {text : List Char} (hne : text ≠ []) (h : startsTag text = false) :
    scanToken text = .ok (.text (splitAtTag text).1, (splitAtTag text).2) := by
  have hnot : ∀ found, ¬ (scanComment text = .ok found ∨ scanClosing text = .ok found ∨
      scanOpening text = .ok found) := by
    intro found hfound
    rw [startsTag_of_scanTag hfound] at h
    cases h
  have hcontent : (splitAtTag text).1 ≠ [] := by
    cases text with
    | nil => exact absurd rfl hne
    | cons c text =>
      rw [splitAtTag, h, if_neg (by simp)]
      exact List.cons_ne_nil _ _
  have htext : scanText text = .ok (.text (splitAtTag text).1, (splitAtTag text).2) := by
    unfold scanText
    split
    · next hnil => exact absurd (by rw [hnil]) hcontent
    · next hsplit => rw [hsplit]
  cases hcomment : scanComment text with
  | ok found => exact absurd (.inl hcomment) (hnot found)
  | error failed =>
    cases hclosing : scanClosing text with
    | ok found => exact absurd (.inr (.inl hclosing)) (hnot found)
    | error failed' =>
      cases hopening : scanOpening text with
      | ok found => exact absurd (.inr (.inr hopening)) (hnot found)
      | error failed'' =>
        simp only [scanToken, scanners, firstSuccess, hcomment, hclosing, hopening, htext]

/-! ## Tokens -/

/-- A run of text is read where one can end. -/
theorem scanToken_text_before {text after : List Char} {token : Token} (hne : text ≠ [])
    (hstarts : startsTag text = false) (h : scanToken text = .ok (token, after)) :
    EndsText after ∧ ∃ source, text = source ++ after ∧
      ∀ other, EndsText other → scanToken (source ++ other) = .ok (token, other) := by
  rw [scanToken_of_not_startsTag hne hstarts] at h
  have happend := splitAtTag_append text
  have hlast := endsText_splitAtTag text
  have hagain : splitAtTag ((splitAtTag text).1 ++ (splitAtTag text).2) = splitAtTag text := by
    rw [happend]
  generalize splitAtTag text = split at *
  obtain ⟨content, last⟩ := split
  cases h
  refine ⟨hlast, content, happend.symm, fun other hends => ?_⟩
  cases content with
  | nil =>
    rw [List.nil_append] at happend
    rcases hlast with hnil | hlast
    · exact absurd (happend ▸ hnil) hne
    · rw [happend, hstarts] at hlast
      cases hlast
  | cons c content =>
    rw [← happend] at hstarts
    have hother : splitAtTag (c :: (content ++ other)) = (c :: content, other) :=
      splitAtTag_other hagain hends
    have hread := scanToken_of_not_startsTag (List.cons_ne_nil _ _)
      (startsTag_append_of_endsText hstarts hends)
    rw [hother] at hread
    exact hread

/-- A text falls into the source of a token and what comes after, and in front of any other text the source
gives the same token. -/
structure ReadBefore (text after : List Char) (token : Token) (source : List Char) : Prop where
  text_eq : text = source ++ after
  starts : startsTag source = true
  read : ∀ other, scanToken (source ++ other) = .ok (token, other)

/-- A comment that is read has a source of its own. -/
theorem exists_comment_source {rest after : List Char} {token : Token}
    (h : scanToken ("<!--".toList ++ rest) = .ok (token, after)) :
    ∃ source, ReadBefore ("<!--".toList ++ rest) after token source := by
  rw [scanToken_comment_start] at h
  cases hcut : cutAt? "-->".toList rest with
  | none =>
    rw [hcut] at h
    cases h
  | some found =>
    rw [hcut] at h
    cases h
    have hbody := FirstAt.not_infix (firstAt_of_cutAt? hcut) (by decide)
    refine ⟨"<!--".toList ++ (found.1 ++ "-->".toList), ?_, rfl, fun other => ?_⟩
    · rw [eq_append_of_cutAt? hcut]
      simp only [List.append_assoc]
    · simp only [List.append_assoc]
      rw [scanToken_comment_start, cutAt?_comment_end hbody]

/-- A closing tag that is read has a source of its own. -/
theorem exists_closing_source {rest after : List Char} {token : Token}
    (h : scanToken ("</".toList ++ rest) = .ok (token, after)) :
    ∃ source, ReadBefore ("</".toList ++ rest) after token source := by
  rw [scanToken_closing_start] at h
  cases hname : scanQuoted '>' rest with
  | error stop =>
    rw [hname] at h
    cases h
  | ok found =>
    rw [hname] at h
    cases h
    obtain ⟨rfl, hfree⟩ := eq_append_of_scanQuoted hname
    refine ⟨"</".toList ++ (found.1 ++ ['>']), by simp, rfl, fun other => ?_⟩
    rw [List.append_assoc, List.append_assoc, scanToken_closing_start]
    simp only [List.singleton_append, scanQuoted_append hfree]

/-- An opening tag that is read has a source of its own. -/
theorem exists_opening_source {c : Char} (hletter : isAsciiLetter c = true) {rest after : List Char}
    {token : Token} (h : scanToken ('<' :: c :: rest) = .ok (token, after)) :
    ∃ source, ReadBefore ('<' :: c :: rest) after token source := by
  obtain ⟨run, spaced, rfl, hrun, hspaced⟩ := exists_tag rest
  rw [scanToken_tag hletter hrun hspaced] at h
  cases hattributes : scanAttributes spaced with
  | error stop =>
    rw [hattributes] at h
    cases h
  | ok found =>
    rw [hattributes] at h
    cases h
    obtain ⟨source, rfl, hne, hread⟩ := scanAttributes_before hattributes
    have hsource : source ≠ [] := by
      rintro rfl
      exact hne rfl
    rw [List.head?_append_of_ne_nil _ hsource] at hspaced
    refine ⟨'<' :: c :: (run ++ source), by simp, startsTag_of_letter hletter _, fun other => ?_⟩
    have hother : ∀ d ∈ (source ++ other).head?, isTagChar d = false := by
      rw [List.head?_append_of_ne_nil _ hsource]
      exact hspaced
    rw [List.cons_append, List.cons_append, List.append_assoc, scanToken_tag hletter hrun hother,
      hread other]

/-- A comment or a tag is read in front of any text. -/
theorem scanToken_tag_before {text after : List Char} {token : Token} (hstarts : startsTag text = true)
    (h : scanToken text = .ok (token, after)) : ∃ source, ReadBefore text after token source := by
  rcases startsTag_cases hstarts with ⟨rest, rfl⟩ | ⟨rest, rfl⟩ | ⟨c, rest, rfl, hletter⟩
  · exact exists_comment_source h
  · exact exists_closing_source h
  · exact exists_opening_source hletter h

/-- A token is read in front of any text, and a run of text where one can end. -/
theorem scanToken_before {text after : List Char} {token : Token} (hne : text ≠ [])
    (h : scanToken text = .ok (token, after)) :
    ∃ source, text = source ++ after ∧ (startsTag text = true → startsTag source = true) ∧
      ∀ other, (EndsText after → EndsText other) → scanToken (source ++ other) = .ok (token, other) := by
  cases hstarts : startsTag text with
  | false =>
    obtain ⟨hafter, source, htext, hread⟩ := scanToken_text_before hne hstarts h
    exact ⟨source, htext, by simp, fun other hends => hread other (hends hafter)⟩
  | true =>
    obtain ⟨source, htext, hsource, hread⟩ := scanToken_tag_before hstarts h
    exact ⟨source, htext, fun _ => hsource, fun other _ => hread other⟩

/-- A text in which no token is read falls into what can still be continued to a token and the rest, whose
first character rules that out. -/
structure TokenStopsAt (text before stop : List Char) : Prop where
  text_eq : text = before ++ stop
  starts : startsTag before = true
  closes : ∃ more token, scanToken (before ++ more) = .ok (token, [])
  dead : ∀ c rest more, stop = c :: rest → ∃ failed, scanToken (before ++ c :: more) = .error failed

/-- A text that stops at its end can be closed. -/
theorem TokenStopsAt.at_end {text more : List Char} {token : Token} (hstarts : startsTag text = true)
    (h : scanToken (text ++ more) = .ok (token, [])) : TokenStopsAt text text [] :=
  ⟨(List.append_nil _).symm, hstarts, ⟨more, token, h⟩, fun _ _ _ hnil => absurd hnil (by simp)⟩

/-- A comment that is not read stops at the end of the text, where it could still be closed. -/
theorem comment_stops {rest stop : List Char} (h : scanToken ("<!--".toList ++ rest) = .error stop) :
    ∃ before, TokenStopsAt ("<!--".toList ++ rest) before stop := by
  rw [scanToken_comment_start] at h
  cases hcut : cutAt? "-->".toList rest with
  | some found =>
    rw [hcut] at h
    cases h
  | none =>
    rw [hcut] at h
    cases h
    have hclosed := cutAt?_comment_end (cutAt?_eq_none_iff.1 hcut) []
    rw [List.append_nil] at hclosed
    have hread : scanToken ("<!--".toList ++ rest ++ "-->".toList) = .ok (.comment rest, []) := by
      rw [List.append_assoc, scanToken_comment_start, hclosed]
    exact ⟨_, .at_end rfl hread⟩

/-- A closing tag that is not read stops at the end of the text, where it could still be closed. -/
theorem closing_stops {rest stop : List Char} (h : scanToken ("</".toList ++ rest) = .error stop) :
    ∃ before, TokenStopsAt ("</".toList ++ rest) before stop := by
  rw [scanToken_closing_start] at h
  cases hname : scanQuoted '>' rest with
  | ok found =>
    rw [hname] at h
    cases h
  | error failed =>
    rw [hname] at h
    cases h
    obtain ⟨-, hfree⟩ := scanQuoted_error hname
    have hread : scanToken ("</".toList ++ rest ++ ['>']) = .ok (.closing (trim rest), []) := by
      rw [List.append_assoc, scanToken_closing_start, scanQuoted_append hfree]
    exact ⟨_, .at_end rfl hread⟩

/-- An opening tag that is not read stops where its attributes do. -/
theorem opening_stops {c : Char} (hletter : isAsciiLetter c = true) {rest stop : List Char}
    (h : scanToken ('<' :: c :: rest) = .error stop) :
    ∃ before, TokenStopsAt ('<' :: c :: rest) before stop := by
  obtain ⟨run, spaced, rfl, hrun, hspaced⟩ := exists_tag rest
  rw [scanToken_tag hletter hrun hspaced] at h
  cases hattributes : scanAttributes spaced with
  | ok found =>
    rw [hattributes] at h
    cases h
  | error failed =>
    rw [hattributes] at h
    cases h
    obtain ⟨before, rfl, ⟨more, found, halike, hread⟩, hdead⟩ := scanAttributes_error hattributes
    have hends : ∀ other, BeginsAlike (before ++ stop) other →
        ∀ d ∈ other.head?, isTagChar d = false := fun other halike =>
      not_of_head_alike (by decide) halike.head hspaced
    refine ⟨'<' :: c :: (run ++ before), by simp, startsTag_of_letter hletter _,
      ⟨more, .opening (c :: run) found.1 found.2, ?_⟩, fun d others more' hstop => ?_⟩
    · rw [List.cons_append, List.cons_append, List.append_assoc,
        scanToken_tag hletter hrun (hends _ halike), hread]
    · obtain ⟨halike', failed, hfailed⟩ := hdead d others more' hstop
      rw [List.cons_append, List.cons_append, List.append_assoc,
        scanToken_tag hletter hrun (hends _ halike'), hfailed]
      exact ⟨failed, rfl⟩

/-- A token that is not read stops at the end of the longest start with which one could have been. -/
theorem scanToken_error {text stop : List Char} (hne : text ≠ []) (h : scanToken text = .error stop) :
    ∃ before, TokenStopsAt text before stop := by
  have hstarts : startsTag text = true := by
    by_contra hnot
    rw [scanToken_of_not_startsTag hne (by simpa using hnot)] at h
    cases h
  rcases startsTag_cases hstarts with ⟨rest, rfl⟩ | ⟨rest, rfl⟩ | ⟨c, rest, rfl, hletter⟩
  · exact comment_stops h
  · exact closing_stops h
  · exact opening_stops hletter h

/-! ## Whole texts -/

/-- A text is a sequence of tokens. -/
def Accepted (text : List Char) : Prop := ∃ lexemes, lex text = .ok lexemes

/-- The texts that are lexed are those that are sequences of tokens. -/
theorem accepted_iff {text : List Char} : Accepted text ↔ ∃ tokens, Lexes text tokens := by
  constructor
  · rintro ⟨lexemes, hlex⟩
    exact ⟨_, lexes_of_lex hlex⟩
  · rintro ⟨tokens, htokens⟩
    obtain ⟨lexemes, hlex, -⟩ := htokens.lex
    exact ⟨lexemes, hlex⟩

/-- The empty text has no tokens, and is accepted. -/
theorem Accepted.nil : Accepted [] := accepted_iff.2 ⟨[], .done⟩

/-- No token is read from the empty text. -/
theorem ne_nil_of_scanToken {text after : List Char} {token : Token}
    (h : scanToken text = .ok (token, after)) : text ≠ [] := by
  rintro rfl
  exact absurd (length_of_scanToken h) (Nat.not_lt_zero _)

/-- After a token, a text is a sequence of tokens if the rest is. -/
theorem accepted_of_scanToken {text after : List Char} {token : Token}
    (h : scanToken text = .ok (token, after)) : Accepted text ↔ Accepted after := by
  rw [accepted_iff, accepted_iff]
  constructor
  · rintro ⟨tokens, htokens⟩
    cases htokens with
    | done => exact absurd rfl (ne_nil_of_scanToken h)
    | step hscan hafter =>
      rw [h] at hscan
      cases hscan
      exact ⟨_, hafter⟩
  · rintro ⟨tokens, htokens⟩
    exact ⟨_, .step h htokens⟩

/-- A text in which a first token cannot be read is not accepted. -/
theorem not_accepted_of_scanToken {text failed : List Char} (hne : text ≠ [])
    (h : scanToken text = .error failed) : ¬ Accepted text := by
  rw [accepted_iff]
  rintro ⟨tokens, htokens⟩
  cases htokens with
  | done => exact hne rfl
  | step hscan _ =>
    rw [h] at hscan
    cases hscan

/-- A text that is not a sequence of tokens stops at the end of the longest start with which it could
have been. -/
theorem lex_error {text stop : List Char} (h : lex text = .error stop) :
    ∃ before, text = before ++ stop ∧ (startsTag text = true → startsTag before = true) ∧
      (∃ more, Accepted (before ++ more)) ∧
      ∀ c rest, stop = c :: rest → ∀ more, ¬ Accepted (before ++ c :: more) := by
  fun_induction lex text generalizing stop with
  | case1 => cases h
  | case2 text hempty failed hscan =>
    cases h
    have hne : text ≠ [] := fun hnil => hempty (List.isEmpty_iff.2 hnil)
    obtain ⟨before, htext, hstarts, ⟨more, token, hread⟩, hdead⟩ := scanToken_error hne hscan
    refine ⟨before, htext, fun _ => hstarts, ⟨more, (accepted_of_scanToken hread).2 .nil⟩,
      fun c rest hstop more' => ?_⟩
    obtain ⟨failed, hfailed⟩ := hdead c rest more' hstop
    exact not_accepted_of_scanToken (by simp) hfailed
  | case3 text hempty token after hscan ih =>
    have hne : text ≠ [] := fun hnil => hempty (List.isEmpty_iff.2 hnil)
    obtain ⟨source, htext, hstarts, hread⟩ := scanToken_before hne hscan
    have hafter : lex after = .error stop := by
      cases hothers : lex after with
      | error failed =>
        rw [hothers] at h
        cases h
        rfl
      | ok others =>
        rw [hothers] at h
        cases h
    obtain ⟨before, rfl, hbefore, ⟨more, haccepted⟩, hdead⟩ := ih hafter
    -- what comes after a run of text starts a tag, and so does the part of it before the failure
    have hends : ∀ other, EndsText (before ++ stop) → EndsText (before ++ other) := by
      rintro other (hnil | hstart)
      · rw [hnil, lex] at hafter
        cases hafter
      · exact .inr (startsTag_append (hbefore hstart) other)
    have hnext : ∀ other, Accepted (source ++ before ++ other) ↔ Accepted (before ++ other) := by
      intro other
      rw [List.append_assoc]
      exact accepted_of_scanToken (hread _ (hends other))
    refine ⟨source ++ before, by rw [htext, List.append_assoc],
      fun hstart => startsTag_append (hstarts hstart) _, ⟨more, (hnext more).2 haccepted⟩,
      fun c rest hstop more' => ?_⟩
    rw [hnext]
    exact hdead c rest hstop more'

/-! ## The reported offset -/

/-- The bytes of two texts add up. -/
theorem byteLength_append (text more : List Char) :
    byteLength (text ++ more) = byteLength text + byteLength more := by
  have hshift : ∀ (more : List Char) (bytes : Nat),
      more.foldl (fun bytes c => bytes + c.utf8Size) bytes = bytes + byteLength more := by
    intro more
    induction more with
    | nil => exact fun bytes => rfl
    | cons c more ih =>
      intro bytes
      rw [byteLength, List.foldl_cons, List.foldl_cons, ih, ih, Nat.zero_add, Nat.add_assoc]
  rw [byteLength, List.foldl_append, hshift]
  rfl

/-- The bytes of the characters of a string are those of the string. -/
theorem byteLength_toList (text : String) : byteLength text.toList = text.utf8ByteSize := by
  obtain ⟨chars, rfl⟩ : ∃ chars, text = String.ofList chars := ⟨text.toList, by simp⟩
  rw [String.toList_ofList]
  induction chars with
  | nil => rfl
  | cons c chars ih =>
    have hsplit : String.ofList (c :: chars) = String.singleton c ++ String.ofList chars := by
      rw [← String.toList_inj]
      simp
    rw [hsplit, String.utf8ByteSize_append, ← ih, ← List.singleton_append, byteLength_append]
    simp [byteLength]

/-- A markup text that is not a sequence of tokens is reported with the byte offset of the longest start
that could still have become one: the offset is a boundary between two characters of the text, some text
that goes on from there is a sequence of tokens, and none is that goes on with the next character. -/
theorem malformed_at_longest_start {text : String} (h : ¬ Accepted text.toList) :
    ∃ (before rest : String) (offset : Nat), parse text = .error (.markup offset .malformed) ∧
      text = before ++ rest ∧ offset = before.utf8ByteSize ∧
      String.Pos.Raw.IsValid text ⟨offset⟩ ∧ offset ≤ text.utf8ByteSize ∧
      (∃ more : String, Accepted (before ++ more).toList) ∧
      ∀ c others, rest.toList = c :: others →
        ∀ more : String, ¬ Accepted (before.push c ++ more).toList := by
  cases hlex : lex text.toList with
  | ok lexemes => exact absurd ⟨lexemes, hlex⟩ h
  | error stop =>
    obtain ⟨before, htext, -, ⟨more, haccepted⟩, hdead⟩ := lex_error hlex
    have hsplit : text = String.ofList before ++ String.ofList stop := by
      rw [← String.toList_inj, htext]
      simp
    have hoffset : byteLength text.toList - byteLength stop = (String.ofList before).utf8ByteSize := by
      rw [htext, byteLength_append, Nat.add_sub_cancel, ← byteLength_toList, String.toList_ofList]
    refine ⟨String.ofList before, String.ofList stop, (String.ofList before).utf8ByteSize, ?_, hsplit,
      rfl, ?_, ?_, ⟨String.ofList more, by simpa using haccepted⟩, fun c others hstop more' => ?_⟩
    · simp only [parse, hlex, hoffset]
    · exact String.Pos.Raw.isValid_iff_exists_append.2 ⟨_, _, hsplit, rfl⟩
    · rw [hsplit, String.utf8ByteSize_append]
      exact Nat.le_add_right _ _
    · have hnot := hdead c others (by simpa using hstop) more'.toList
      simpa using hnot

/-- An attribute without a name: the failure stands at its equals sign, behind a character of two bytes. -/
theorem malformed_at_longest_start_misplaced :
    ¬ Accepted "é<a =x>".toList ∧
      ∃ (before rest : String) (offset : Nat),
        parse "é<a =x>" = .error (.markup offset .malformed) ∧
        "é<a =x>" = before ++ rest ∧ offset = before.utf8ByteSize ∧
        String.Pos.Raw.IsValid "é<a =x>" ⟨offset⟩ ∧ offset ≤ "é<a =x>".utf8ByteSize ∧
        (∃ more : String, Accepted (before ++ more).toList) ∧
        ∀ c others, rest.toList = c :: others →
          ∀ more : String, ¬ Accepted (before.push c ++ more).toList := by
  have hattributes : scanAttributes " =x>".toList = .error "=x>".toList :=
    scanAttributes_misplaced (c := '=') rfl (by decide) (by decide) (by decide)
  have htag : scanToken "<a =x>".toList = .error "=x>".toList := by
    have hletter : isAsciiLetter 'a' = true := by decide
    have hspaced : ∀ d ∈ " =x>".toList.head?, isTagChar d = false := by
      intro d hd
      obtain rfl : ' ' = d := by simpa using hd
      decide
    have hread := scanToken_tag hletter (List.forall_mem_nil _) hspaced
    rw [hattributes] at hread
    exact hread
  have htext : scanToken "é<a =x>".toList = .ok (.text ['é'], "<a =x>".toList) :=
    scanToken_of_not_startsTag (by simp) (by decide)
  have hrejected : ¬ Accepted "é<a =x>".toList := by
    rw [accepted_of_scanToken htext]
    exact not_accepted_of_scanToken (by simp) htag
  exact ⟨hrejected, malformed_at_longest_start hrejected⟩

end DataBinding.Markup
