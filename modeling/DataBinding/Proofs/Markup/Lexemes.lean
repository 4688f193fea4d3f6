import DataBinding.Proofs.Markup.FurthestFailure

/-!
# The lexemes of a text

The lexemes of a text are its pieces: put together they are the text again. Each is the same when it stands
alone, and its first characters tell its kind: comments and tags begin with the start of one, and in a run of
text there is none. So the kind of a token is settled before it is scanned, and the order in which the scanners
are tried does not matter.
-/

set_option autoImplicit false

namespace DataBinding.Markup

/-! ## The scanners exclude each other -/

section Scanners

variable {text after stop failed : List Char} {token : Token} {found other : Token × List Char}

/-- A comment starts with `<!--`. -/
theorem starts_of_scanComment (h : scanComment text = .ok found) : ∃ rest, text = "<!--".toList ++ rest := by
  unfold scanComment at h
  split at h
  · cases h
  · next rest hexpect => exact ⟨rest, eq_append_of_expect hexpect⟩

/-- A closing tag starts with `</`. -/
theorem starts_of_scanClosing (h : scanClosing text = .ok found) : ∃ rest, text = "</".toList ++ rest := by
  unfold scanClosing at h
  split at h
  · cases h
  · next rest hexpect => exact ⟨rest, eq_append_of_expect hexpect⟩

/-- An opening tag starts with `<` and a letter. -/
theorem starts_of_scanOpening (h : scanOpening text = .ok found) :
    ∃ c rest, text = '<' :: c :: rest ∧ isAsciiLetter c = true := by
  unfold scanOpening at h
  split at h
  · cases h
  · next hexpect =>
    split at h
    · cases h
    · next c rest =>
      split at h
      · next hletter => exact ⟨c, rest, eq_append_of_expect hexpect, hletter⟩
      · cases h

/-- Text starts neither a tag nor a comment. -/
theorem not_startsTag_of_scanText (h : scanText text = .ok found) : startsTag text = false := by
  obtain ⟨token, after⟩ := found
  obtain ⟨-, hnot, -⟩ := sound_of_scanText h
  exact Bool.eq_false_iff.2 fun hstarts => hnot (.inr hstarts)

/-- At most one scanner succeeds. -/
theorem scanners_exclusive (text : List Char) : scanners.Pairwise fun first second =>
    ∀ found other, first text = .ok found → second text ≠ .ok other := by
  have htext : ∀ {found other}, scanComment text = .ok found ∨ scanClosing text = .ok found ∨
      scanOpening text = .ok found → scanText text ≠ .ok other := by
    intro found other h hrun
    have hnot := not_startsTag_of_scanText hrun
    rw [startsTag_of_scanTag h] at hnot
    cases hnot
  simp only [scanners, List.pairwise_cons, List.mem_cons, List.not_mem_nil, or_false, forall_eq_or_imp, forall_eq,
    false_imp_iff, implies_true, List.Pairwise.nil, and_true]
  refine ⟨⟨fun found other h h' => ?_, fun found other h h' => ?_, fun found other h => htext (.inl h)⟩,
    ⟨fun found other h h' => ?_, fun found other h => htext (.inr (.inl h))⟩,
    fun found other h => htext (.inr (.inr h))⟩
  · obtain ⟨rest, rfl⟩ := starts_of_scanComment h
    obtain ⟨rest', heq⟩ := starts_of_scanClosing h'
    cases heq
  · obtain ⟨rest, rfl⟩ := starts_of_scanComment h
    obtain ⟨c, rest', heq, hletter⟩ := starts_of_scanOpening h'
    cases heq
    exact absurd hletter (by decide)
  · obtain ⟨rest, rfl⟩ := starts_of_scanClosing h
    obtain ⟨c, rest', heq, hletter⟩ := starts_of_scanOpening h'
    cases heq
    exact absurd hletter (by decide)

/-! ## The order of the scanners -/

/-- Expecting something fails at a place of the text. -/
theorem expect_error_suffix {expected : List Char} (h : expect expected text = .error failed) :
    failed <:+ text := by
  induction expected generalizing text with
  | nil => cases h
  | cons c expected ih =>
    cases text with
    | nil =>
      cases h
      exact List.nil_suffix
    | cons d text =>
      unfold expect at h
      split at h
      · exact (ih h).trans (List.suffix_cons d text)
      · cases h
        exact List.suffix_rfl

/-- Expecting something goes on at a place of the text. -/
theorem expect_suffix {expected : List Char} (h : expect expected text = .ok after) : after <:+ text :=
  ⟨expected, (eq_append_of_expect h).symm⟩

/-- A comment that is not one is given up at a place of the text. -/
theorem scanComment_error_suffix (h : scanComment text = .error failed) : failed <:+ text := by
  unfold scanComment at h
  split at h
  · next hexpect =>
    cases h
    exact expect_error_suffix hexpect
  · split at h <;> cases h
    exact List.nil_suffix

/-- A closing tag that is not one is given up at a place of the text. -/
theorem scanClosing_error_suffix (h : scanClosing text = .error failed) : failed <:+ text := by
  unfold scanClosing at h
  split at h
  · next hexpect =>
    cases h
    exact expect_error_suffix hexpect
  · split at h
    · next hname =>
      cases h
      obtain ⟨rfl, -⟩ := scanQuoted_error hname
      exact List.nil_suffix
    · cases h

/-- An opening tag that is not one is given up at a place of the text: before its name, or among its
attributes. -/
theorem scanOpening_error_suffix (h : scanOpening text = .error failed) : failed <:+ text := by
  unfold scanOpening at h
  split at h
  · next hexpect =>
    cases h
    exact expect_error_suffix hexpect
  · next rest hexpect =>
    have hrest := expect_suffix hexpect
    split at h
    · cases h
      exact List.nil_suffix
    · next c more =>
      split at h
      · split at h
        · next hattributes =>
          cases h
          obtain ⟨before, hsplit, -⟩ := scanAttributes_error hattributes
          have hstop : failed <:+ more.dropWhile isTagChar := ⟨before, hsplit.symm⟩
          exact ((hstop.trans (List.dropWhile_suffix _)).trans (List.suffix_cons c more)).trans hrest
        · cases h
      · cases h
        exact hrest

/-- A run of text that is empty is given up where the text starts. -/
theorem scanText_error_suffix (h : scanText text = .error failed) : failed <:+ text := by
  unfold scanText at h
  split at h <;> cases h
  exact List.suffix_rfl

/-- A scanner that gives up does so at a place in the text. -/
theorem suffix_of_scanners (text : List Char) :
    ∀ scanner ∈ scanners, ∀ failed, scanner text = .error failed → failed <:+ text := by
  simp only [scanners, List.mem_cons, List.not_mem_nil, or_false, forall_eq_or_imp, forall_eq]
  exact ⟨fun _ => scanComment_error_suffix, fun _ => scanClosing_error_suffix,
    fun _ => scanOpening_error_suffix, fun _ => scanText_error_suffix⟩

/-- The further one of two places of a text is a place of the text. -/
theorem further_suffix {a b : List Char} (ha : a <:+ text) (hb : b <:+ text) : further a b <:+ text := by
  unfold further
  split
  · exact hb
  · exact ha

/-- Of several places in a text, the furthest does not depend on their order. -/
theorem further_comm {a b : List Char} (ha : a <:+ text) (hb : b <:+ text) :
    further (further stop a) b = further (further stop b) a := by
  have hsame : a.length = b.length → a = b := fun hlength =>
    (List.suffix_of_suffix_length_le ha hb hlength.le).eq_of_length hlength
  unfold further
  grind

variable {order order' : List (List Char → Scan Token)}

/-- What the first scanner to succeed finds does not depend on the order in which they are tried, nor does the
place where all of them have given up. -/
theorem firstSuccess_perm (horder : order.Perm order') (hstop : stop <:+ text)
    (hfailed : ∀ scanner ∈ order, ∀ failed, scanner text = .error failed → failed <:+ text)
    (hone : ∀ first ∈ order, ∀ second ∈ order, ∀ found other,
      first text = .ok found → second text = .ok other → found = other) :
    firstSuccess text stop order = firstSuccess text stop order' := by
  induction horder generalizing stop with
  | nil => rfl
  | cons scanner _ ih =>
    simp only [firstSuccess]
    cases hscan : scanner text with
    | ok found => rfl
    | error failed =>
      refine ih (further_suffix hstop (hfailed _ List.mem_cons_self _ hscan))
        (fun s hs => hfailed s (List.mem_cons_of_mem _ hs))
        fun s hs s' hs' => hone s (List.mem_cons_of_mem _ hs) s' (List.mem_cons_of_mem _ hs')
  | swap first second rest =>
    simp only [firstSuccess]
    -- Two scanners that both succeed find the same; if both give up, the further place is kept either way.
    cases hfirst : first text with
    | ok found =>
      cases hsecond : second text with
      | ok other => simp [hone first (by simp) second (by simp) _ _ hfirst hsecond]
      | error failed => rfl
    | error failed =>
      cases hsecond : second text with
      | ok other => rfl
      | error failed' =>
        simp only [further_comm (hfailed _ (by simp) _ hfirst) (hfailed _ (by simp) _ hsecond)]
  | trans hfirst _ ih ih' =>
    refine (ih hstop hfailed hone).trans (ih' hstop ?_ ?_)
    · exact fun s hs => hfailed s (hfirst.mem_iff.2 hs)
    · exact fun s hs s' hs' => hone s (hfirst.mem_iff.2 hs) s' (hfirst.mem_iff.2 hs')

/-- The scanners may be tried in any order. -/
theorem firstSuccess_of_perm (horder : order.Perm scanners) (text : List Char) :
    firstSuccess text text order = scanToken text := by
  refine (firstSuccess_perm horder.symm List.suffix_rfl (suffix_of_scanners text) ?_).symm
  intro first hfirst second hsecond found other hfound hother
  by_cases hsame : first = second
  · rw [hsame, hother] at hfound
    exact (Except.ok.inj hfound).symm
  · have hsymmetric : Std.Symm fun first second : List Char → Scan Token =>
        ∀ found other, first text = .ok found → second text ≠ .ok other :=
      ⟨fun _ _ h found other hfound hother => h other found hother hfound⟩
    exact absurd hother ((scanners_exclusive text).forall hfirst hsecond hsame found other hfound)

end Scanners

/-! ## Lexemes -/

/-- What a lexeme is, wherever it stands: some characters, with the start of a tag or a comment nowhere if it is
a text and at the beginning if it is not, that are its token also when they are lexed alone. -/
structure Lexeme.Standalone (lexeme : Lexeme) : Prop where
  ne : lexeme.source ≠ []
  plain : lexeme.token.isText = true → ∀ rest, rest <:+ lexeme.source → startsTag rest = false
  starts : lexeme.token.isText = false → startsTag lexeme.source = true
  alone : lex lexeme.source = .ok [lexeme]

/-- A first token and the lexemes of the rest are the lexemes of a text. -/
theorem lex_of_scanToken {text after : List Char} {token : Token} {others : List Lexeme}
    (hscan : scanToken text = .ok (token, after)) (hothers : lex after = .ok others) :
    lex text = .ok (⟨text.take (text.length - after.length), token⟩ :: others) := by
  have hne : ¬ text.isEmpty = true := by
    rw [List.isEmpty_iff]
    exact ne_nil_of_scanToken hscan
  rw [lex, if_neg hne]
  split
  · next herror =>
    rw [hscan] at herror
    cases herror
  · next hok =>
    rw [hscan] at hok
    cases hok
    rw [hothers]
    rfl

/-- No tag or comment starts in a run of text. -/
theorem not_startsTag_of_splitAtTag (text : List Char) {rest : List Char} (h : rest <:+ (splitAtTag text).1) :
    startsTag rest = false := by
  induction text with
  | nil =>
    obtain rfl := List.suffix_nil.1 h
    rfl
  | cons c text ih =>
    unfold splitAtTag at h
    split at h
    · obtain rfl := List.suffix_nil.1 h
      rfl
    · next hnot =>
      rcases List.suffix_cons_iff.1 h with rfl | h
      · rw [Bool.eq_false_iff]
        intro hstarts
        have hmore := startsTag_append hstarts (splitAtTag text).2
        rw [List.cons_append, splitAtTag_append] at hmore
        exact hnot hmore
      · exact ih h

/-- A token and the characters that were read for it are a lexeme that stands alone. -/
theorem standalone_of_scanToken {text after : List Char} {token : Token}
    (h : scanToken text = .ok (token, after)) :
    ∃ source, text = source ++ after ∧ Lexeme.Standalone ⟨source, token⟩ := by
  have hne := ne_nil_of_scanToken h
  obtain ⟨source, htext, hstarts, hread⟩ := scanToken_before hne h
  have hscan : scanToken source = .ok (token, []) := by
    rw [← List.append_nil source]
    exact hread [] fun _ => .inl rfl
  have hsource := ne_nil_of_scanToken hscan
  refine ⟨source, htext, hsource, fun htoken rest hrest => ?_, fun htoken => ?_, ?_⟩
  · have hnot : startsTag source = false := by
      obtain ⟨-, hends⟩ := sound_of_scanToken hscan
      exact Bool.eq_false_iff.2 fun hstarts => (hends htoken).1 (.inr hstarts)
    have hrun : (splitAtTag source).1 = source := by
      have hsplit := splitAtTag_append source
      rw [scanToken_of_not_startsTag hsource hnot] at hscan
      rwa [(Prod.mk.inj (Except.ok.inj hscan)).2, List.append_nil] at hsplit
    exact not_startsTag_of_splitAtTag source (by rwa [hrun])
  · refine hstarts (by_contra fun hnot => ?_)
    rw [scanToken_of_not_startsTag hne (by simpa using hnot)] at h
    cases h
    cases htoken
  · have hend : lex [] = .ok [] := by
      rw [lex]
      rfl
    simpa using lex_of_scanToken hscan hend

/-- The lexemes of a text are its pieces, and each of them stands alone. -/
theorem lexemes_of_lex {text : List Char} {lexemes : List Lexeme} (h : lex text = .ok lexemes) :
    lexemes.flatMap Lexeme.source = text ∧ ∀ lexeme ∈ lexemes, lexeme.Standalone := by
  fun_induction lex text generalizing lexemes with
  | case1 text hempty =>
    cases h
    exact ⟨(List.isEmpty_iff.1 hempty).symm, List.forall_mem_nil _⟩
  | case2 => cases h
  | case3 text _ token after hscan ih =>
    cases hothers : lex after with
    | error stop =>
      rw [hothers] at h
      cases h
    | ok others =>
      rw [hothers] at h
      cases h
      obtain ⟨hpieces, hstandalone⟩ := ih hothers
      obtain ⟨source, rfl, hsource⟩ := standalone_of_scanToken hscan
      have htake : (source ++ after).take ((source ++ after).length - after.length) = source := by simp
      rw [htake]
      exact ⟨by rw [List.flatMap_cons, hpieces], List.forall_mem_cons.2 ⟨hsource, hstandalone⟩⟩

/-- The lexemes of a text that is a sequence of tokens are its pieces, no two of which next to each other are
texts, and each is what it is wherever it stands. At no place of any text do two scanners succeed, so that the
order in which they are tried does not matter. -/
theorem lexemes_partition (text : List Char) :
    (∀ lexemes, lex text = .ok lexemes →
      lexemes.flatMap Lexeme.source = text ∧
      lexemes.IsChain (fun first second => ¬ (first.token.isText = true ∧ second.token.isText = true)) ∧
      ∀ lexeme ∈ lexemes, lexeme.Standalone) ∧
    ∀ rest, rest <:+ text →
      scanners.Pairwise (fun first second => ∀ found other, first rest = .ok found → second rest ≠ .ok other) ∧
      ∀ order, order.Perm scanners → firstSuccess rest rest order = scanToken rest := by
  refine ⟨fun lexemes hlex => ?_, fun rest _ => ⟨scanners_exclusive rest, fun order horder =>
    firstSuccess_of_perm horder rest⟩⟩
  obtain ⟨hpieces, hstandalone⟩ := lexemes_of_lex hlex
  obtain ⟨-, hchain, -⟩ := (lexes_of_lex hlex).sound
  refine ⟨hpieces, (List.isChain_map _).1 hchain |>.imp fun first second hapart => ?_, hstandalone⟩
  rintro ⟨hfirst, hsecond⟩
  rcases hapart with hapart | hapart
  · rw [hapart] at hfirst
    cases hfirst
  · rw [hapart] at hsecond
    cases hsecond

/-- A `<` that starts no tag, a comment with a `>` in it, and a tag with a value that ends in a slash. -/
def strayText : List Char := "1 < 2<!-- > --><p a = b/>".toList

/-- The three lexemes of that text. -/
def strayLexemes : List Lexeme :=
  [⟨"1 < 2".toList, .text "1 < 2".toList⟩, ⟨"<!-- > -->".toList, .comment " > ".toList⟩,
    ⟨"<p a = b/>".toList, .opening ['p'] [(['a'], "b/".toList)] false⟩]

/-- A text with a stray opening bracket is cut into three lexemes, and reversing the order of the scanners
changes nothing for its tag. -/
theorem lexemes_partition_of_stray : lex strayText = .ok strayLexemes ∧
    strayLexemes.flatMap Lexeme.source = strayText ∧ (∀ lexeme ∈ strayLexemes, lexeme.Standalone) ∧
    firstSuccess "<p a = b/>".toList "<p a = b/>".toList scanners.reverse =
      .ok (.opening ['p'] [(['a'], "b/".toList)] false, []) := by
  have hend : scanAttributes ['>'] = .ok (([], false), []) := scanAttributes_end (by decide)
  have hname : " a = b/>".toList.dropWhile isBlank = ['a'] ++ " = b/>".toList := by decide
  have hletters : ∀ c ∈ ['a'], isNameChar c = true := List.forall_mem_singleton.2 (by decide)
  have hblank : ∀ c ∈ " = b/>".toList.head?, isNameChar c = false := by
    rintro c ⟨⟩
    decide
  have hattributes : scanAttributes " a = b/>".toList = .ok (([(['a'], "b/".toList)], false), []) :=
    scanAttributes_attribute hname (by decide) hletters hblank (by decide) hend
  have htag : scanToken "<p a = b/>".toList = .ok (.opening ['p'] [(['a'], "b/".toList)] false, []) := by
    have hletter : isAsciiLetter 'p' = true := by decide
    have hspaced : ∀ d ∈ " a = b/>".toList.head?, isTagChar d = false := by
      rintro d ⟨⟩
      decide
    have hread := scanToken_tag hletter (List.forall_mem_nil _) hspaced
    rw [hattributes] at hread
    exact hread
  have hlast : lex "<p a = b/>".toList = .ok [⟨"<p a = b/>".toList, .opening ['p'] [(['a'], "b/".toList)] false⟩] :=
    lex_of_scanToken htag (by rw [lex]; rfl)
  have htext : scanToken strayText = .ok (.text "1 < 2".toList, "<!-- > --><p a = b/>".toList) := by decide
  have hcomment : scanToken "<!-- > --><p a = b/>".toList = .ok (.comment " > ".toList, "<p a = b/>".toList) := by
    decide
  have hlex : lex strayText = .ok strayLexemes := lex_of_scanToken htext (lex_of_scanToken hcomment hlast)
  obtain ⟨hpieces, -, hstandalone⟩ := (lexemes_partition strayText).1 _ hlex
  have hsuffix : "<p a = b/>".toList <:+ strayText := ⟨"1 < 2<!-- > -->".toList, rfl⟩
  obtain ⟨-, horder⟩ := (lexemes_partition strayText).2 _ hsuffix
  exact ⟨hlex, hpieces, hstandalone, (horder _ scanners.reverse_perm).trans htag⟩

end DataBinding.Markup
