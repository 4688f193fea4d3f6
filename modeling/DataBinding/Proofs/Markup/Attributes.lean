import DataBinding.Proofs.Markup.Scanning

/-!
# Attributes before different texts

The scanner of attributes looks at most one character past a run that it reads, blanks apart. What it
has read it therefore reads again before any other text that begins in the same way, or that begins with
the `>` at which every run ends. Where it gives up, it has read the longest start of the text with which
it could still have succeeded.
-/

set_option autoImplicit false

namespace DataBinding.Markup

/-! ## Beginning in the same way -/

/-- The second text begins, before and after its blanks, as the first does or with a `>`. -/
structure BeginsAlike (text other : List Char) : Prop where
  head : other.head? = some '>' ∨ text.head? = other.head?
  spaced : (other.dropWhile isBlank).head? = some '>' ∨
    (text.dropWhile isBlank).head? = (other.dropWhile isBlank).head?

/-- A text that begins alike does not begin with a character of a run that the first one does not begin
with, if `>` is no such character. -/
theorem not_of_head_alike {p : Char → Bool} (hp : p '>' = false) {text other : List Char}
    (hhead : other.head? = some '>' ∨ text.head? = other.head?)
    (h : ∀ c ∈ text.head?, p c = false) : ∀ c ∈ other.head?, p c = false := by
  intro c hc
  rcases hhead with hgt | hsame
  · rw [hgt] at hc
    cases hc
    exact hp
  · exact h c (hsame ▸ hc)

/-- Texts that go on differently after a common start in which not everything is blank. -/
theorem BeginsAlike.of_common {start : List Char} (h : start.dropWhile isBlank ≠ [])
    (text other : List Char) : BeginsAlike (start ++ text) (start ++ other) := by
  have hspaced : ∀ more : List Char, ((start ++ more).dropWhile isBlank).head? =
      (start.dropWhile isBlank).head? := by
    intro more
    rw [List.dropWhile_append, if_neg (by simpa using h), List.head?_append_of_ne_nil _ h]
  have hne : start ≠ [] := by
    rintro rfl
    exact h rfl
  refine ⟨.inr ?_, .inr (by rw [hspaced, hspaced])⟩
  rw [List.head?_append_of_ne_nil _ hne, List.head?_append_of_ne_nil _ hne]

/-- After a run has been dropped, the next character does not belong to it. -/
theorem head?_dropWhile_eq_false (p : Char → Bool) (text : List Char) :
    ∀ c ∈ (text.dropWhile p).head?, p c = false := by
  intro c hc
  have hhead := List.head?_dropWhile_not p text
  rw [Option.mem_def.1 hc] at hhead
  simpa using hhead

/-- A text is the blanks at its start and what follows them. -/
theorem exists_blanks (text : List Char) :
    ∃ blanks, text = blanks ++ text.dropWhile isBlank ∧ ∀ c ∈ blanks, isBlank c = true :=
  ⟨text.takeWhile isBlank, List.takeWhile_append_dropWhile.symm,
    List.all_eq_true.1 List.all_takeWhile⟩

/-! ## Values -/

/-- Without an equals sign an attribute has the empty value, and nothing is read. -/
theorem scanValue_without {text : List Char} (h : ∀ rest, text.dropWhile isBlank ≠ '=' :: rest) :
    scanValue text = .ok ([], text) := by
  unfold scanValue
  split
  · next rest hdrop => exact absurd hdrop (h rest)
  · rfl

/-- A quotation mark that a value can stand in. -/
def IsQuote (c : Char) : Prop := c = '"' ∨ c = '\''

/-- Quotes are no blanks. -/
theorem isBlank_of_isQuote {c : Char} (h : IsQuote c) : isBlank c = false := by
  rcases h with rfl | rfl
  · decide
  · decide

/-- After an equals sign and a quote, the value is quoted. -/
theorem scanValue_quoted {text rest inner : List Char} {quote : Char} (hquote : IsQuote quote)
    (hequals : text.dropWhile isBlank = '=' :: rest) (hrest : rest.dropWhile isBlank = quote :: inner) :
    scanValue text = scanQuoted quote inner := by
  rcases hquote with rfl | rfl
  · simp only [scanValue, hequals, hrest]
  · simp only [scanValue, hequals, hrest]

/-- After an equals sign and no quote, the value is a run of bare characters. -/
theorem scanValue_bare {text rest : List Char} (hequals : text.dropWhile isBlank = '=' :: rest)
    (hrest : ∀ c ∈ (rest.dropWhile isBlank).head?, ¬ IsQuote c) :
    scanValue text = .ok ((rest.dropWhile isBlank).takeWhile isBareChar,
      (rest.dropWhile isBlank).dropWhile isBareChar) := by
  simp only [scanValue, hequals]
  split
  · next inner hinner => exact absurd (.inl rfl) (hrest '"' (by rw [hinner]; rfl))
  · next inner hinner => exact absurd (.inr rfl) (hrest '\'' (by rw [hinner]; rfl))
  · rfl

/-- Up to its value, an attribute can be read in front of any text that does not start with a blank. -/
theorem exists_equals {text rest : List Char} (hequals : text.dropWhile isBlank = '=' :: rest) :
    ∃ start, text = start ++ rest.dropWhile isBlank ∧ start.dropWhile isBlank ≠ [] ∧
      ∀ other : List Char, (∀ c ∈ other.head?, isBlank c = false) →
        ∃ more, (start ++ other).dropWhile isBlank = '=' :: more ∧ more.dropWhile isBlank = other := by
  obtain ⟨blanks, htext, hblanks⟩ := exists_blanks text
  obtain ⟨spaces, hrest, hspaces⟩ := exists_blanks rest
  have hskip : ∀ other : List Char,
      (blanks ++ '=' :: (spaces ++ other)).dropWhile isBlank = '=' :: (spaces ++ other) := by
    intro other
    rw [List.dropWhile_append_of_pos hblanks]
    exact List.dropWhile_cons_of_neg (by decide)
  refine ⟨blanks ++ '=' :: spaces, ?_, ?_, fun other hother => ⟨spaces ++ other, ?_, ?_⟩⟩
  · rw [List.append_assoc, List.cons_append, ← hrest, ← hequals]
    exact htext
  · have hstart := hskip []
    rw [List.append_nil] at hstart
    rw [hstart]
    exact List.cons_ne_nil _ _
  · rw [List.append_assoc, List.cons_append]
    exact hskip other
  · exact dropWhile_append_stop hspaces hother

/-- A quoted value that is read ends at the first quote. -/
theorem eq_append_of_scanQuoted {quote : Char} {text value after : List Char}
    (h : scanQuoted quote text = .ok (value, after)) :
    text = value ++ quote :: after ∧ quote ∉ value := by
  unfold scanQuoted at h
  split at h
  · cases h
  · next c rest hdrop =>
    cases h
    have hsplit := List.takeWhile_append_dropWhile (p := (· != quote)) (l := text)
    have hhead := List.head?_dropWhile_not (· != quote) text
    rw [hdrop] at hhead hsplit
    have hc : c = quote := by simpa using hhead
    rw [hc] at hsplit
    refine ⟨hsplit.symm, fun hmem => ?_⟩
    have hall := List.all_eq_true.1 (List.all_takeWhile (p := (· != quote)) (l := text)) quote hmem
    simp at hall

/-- A quoted value that is not read has no closing quote, and the failure stands at the end of the text. -/
theorem scanQuoted_error {quote : Char} {text stop : List Char}
    (h : scanQuoted quote text = .error stop) : stop = [] ∧ quote ∉ text := by
  unfold scanQuoted at h
  split at h
  · next hdrop =>
    cases h
    have hrun := List.takeWhile_append_dropWhile (p := (· != quote)) (l := text)
    rw [hdrop, List.append_nil] at hrun
    refine ⟨rfl, fun hmem => ?_⟩
    have hall := List.all_eq_true.1 (List.all_takeWhile (p := (· != quote)) (l := text)) quote
      (hrun.symm ▸ hmem)
    simp at hall
  · cases h

/-- The three ways in which the value of an attribute can begin. -/
theorem value_cases (text : List Char) :
    (∀ rest, text.dropWhile isBlank ≠ '=' :: rest) ∨
      (∃ rest quote inner, text.dropWhile isBlank = '=' :: rest ∧ IsQuote quote ∧
        rest.dropWhile isBlank = quote :: inner) ∨
      ∃ rest, text.dropWhile isBlank = '=' :: rest ∧
        ∀ c ∈ (rest.dropWhile isBlank).head?, ¬ IsQuote c := by
  by_cases hequals : ∃ rest, text.dropWhile isBlank = '=' :: rest
  · obtain ⟨rest, hequals⟩ := hequals
    by_cases hquoted : ∃ quote inner, IsQuote quote ∧ rest.dropWhile isBlank = quote :: inner
    · obtain ⟨quote, inner, hquote, hrest⟩ := hquoted
      exact .inr (.inl ⟨rest, quote, inner, hequals, hquote, hrest⟩)
    · refine .inr (.inr ⟨rest, hequals, fun c hc hquote => hquoted ?_⟩)
      obtain ⟨inner, hinner⟩ := List.head?_eq_some_iff.1 hc
      exact ⟨c, inner, hquote, hinner⟩
  · exact .inl fun rest hrest => hequals ⟨rest, hrest⟩

/-- A value in quotes is read in front of any text. -/
theorem scanValue_closed {text rest value inner : List Char} {quote : Char} (hquote : IsQuote quote)
    (hequals : text.dropWhile isBlank = '=' :: rest) (hrest : rest.dropWhile isBlank = quote :: inner)
    (hfree : quote ∉ value) :
    ∃ start, text = start ++ quote :: inner ∧
      ∀ after, scanValue (start ++ quote :: (value ++ quote :: after)) = .ok (value, after) := by
  obtain ⟨start, htext, -, hstart⟩ := exists_equals hequals
  refine ⟨start, hrest ▸ htext, fun after => ?_⟩
  obtain ⟨more, hmore, hquote'⟩ := hstart (quote :: (value ++ quote :: after))
    (by rintro _ ⟨⟩; exact isBlank_of_isQuote hquote)
  rw [scanValue_quoted hquote hmore hquote', scanQuoted_append hfree]

/-- A bare value is read in the same way in front of a text that begins alike. -/
theorem scanValue_bare_alike {text rest : List Char} (hequals : text.dropWhile isBlank = '=' :: rest)
    (hbare : ∀ c ∈ (rest.dropWhile isBlank).head?, ¬ IsQuote c) {value after : List Char}
    (hsplit : rest.dropWhile isBlank = value ++ after) (hvalue : ∀ c ∈ value, isBareChar c = true)
    (hafter : ∀ c ∈ after.head?, isBareChar c = false) :
    ∃ source, text = source ++ after ∧
      ∀ other, BeginsAlike after other → scanValue (source ++ other) = .ok (value, other) := by
  obtain ⟨start, htext, -, hstart⟩ := exists_equals hequals
  refine ⟨start ++ value, by rw [List.append_assoc, ← hsplit, ← htext], fun other halike => ?_⟩
  have hhead : (value ++ other).head? = some '>' ∨
      (rest.dropWhile isBlank).head? = (value ++ other).head? := by
    rw [hsplit]
    cases value with
    | nil => exact halike.head
    | cons c value => exact .inr rfl
  obtain ⟨more, hmore, hother⟩ := hstart (value ++ other)
    (not_of_head_alike (by decide) hhead (head?_dropWhile_eq_false isBlank rest))
  have hfree : ∀ c ∈ (more.dropWhile isBlank).head?, ¬ IsQuote c := by
    intro c hc
    rw [hother] at hc
    rcases hhead with hgt | hsame
    · rw [hgt] at hc
      cases hc
      simp [IsQuote]
    · exact hbare c (hsame ▸ hc)
  have hstops := not_of_head_alike (by decide) halike.head hafter
  rw [List.append_assoc, scanValue_bare hmore hfree, hother, takeWhile_append_stop hvalue hstops,
    dropWhile_append_stop hvalue hstops]

/-- A value is read in the same way in front of a text that begins alike. -/
theorem scanValue_alike {text value after : List Char} (h : scanValue text = .ok (value, after)) :
    ∃ source, text = source ++ after ∧
      ∀ other, BeginsAlike after other → scanValue (source ++ other) = .ok (value, other) := by
  rcases value_cases text with hnone | ⟨rest, quote, inner, hequals, hquote, hrest⟩ |
    ⟨rest, hequals, hbare⟩
  · rw [scanValue_without hnone] at h
    cases h
    refine ⟨[], rfl, fun other halike => scanValue_without fun rest hrest => ?_⟩
    rw [List.nil_append] at hrest
    rcases halike.spaced with hgt | hsame
    · rw [hrest] at hgt
      cases hgt
    · rw [hrest] at hsame
      obtain ⟨more, hmore⟩ := List.head?_eq_some_iff.1 hsame
      exact hnone more hmore
  · rw [scanValue_quoted hquote hequals hrest] at h
    obtain ⟨rfl, hfree⟩ := eq_append_of_scanQuoted h
    obtain ⟨start, htext, hread⟩ := scanValue_closed hquote hequals hrest hfree
    refine ⟨start ++ quote :: (value ++ [quote]), by simp [htext], fun other _ => ?_⟩
    rw [← hread other]
    simp
  · rw [scanValue_bare hequals hbare] at h
    cases h
    exact scanValue_bare_alike hequals hbare List.takeWhile_append_dropWhile.symm
      (List.all_eq_true.1 List.all_takeWhile) (head?_dropWhile_eq_false isBareChar _)

/-- A value that is not read is one in quotes that are not closed. -/
theorem scanValue_error {text stop : List Char} (h : scanValue text = .error stop) :
    stop = [] ∧ ∃ quote value, ∀ after, scanValue (text ++ quote :: after) = .ok (value, after) := by
  rcases value_cases text with hnone | ⟨rest, quote, inner, hequals, hquote, hrest⟩ |
    ⟨rest, hequals, hbare⟩
  · rw [scanValue_without hnone] at h
    cases h
  · rw [scanValue_quoted hquote hequals hrest] at h
    obtain ⟨hstop, hfree⟩ := scanQuoted_error h
    obtain ⟨start, htext, hread⟩ := scanValue_closed hquote hequals hrest hfree
    refine ⟨hstop, quote, inner, fun after => ?_⟩
    rw [← hread after, htext]
    simp
  · rw [scanValue_bare hequals hbare] at h
    cases h

/-! ## Attributes -/

/-- Where a name begins, an attribute is read and put in front of those after it. -/
theorem scanAttributes_name {text name rest : List Char} (hdrop : text.dropWhile isBlank = name ++ rest)
    (hne : name ≠ []) (hname : ∀ c ∈ name, isNameChar c = true)
    (hrest : ∀ c ∈ rest.head?, isNameChar c = false) :
    scanAttributes text = (scanValue rest).bind fun (value, more) =>
      (scanAttributes more).map fun ((others, selfClosing), after) =>
        (((name, value) :: others, selfClosing), after) := by
  have htake : (text.dropWhile isBlank).takeWhile isNameChar = name := by
    rw [hdrop]
    exact takeWhile_append_stop hname hrest
  have hskip : (text.dropWhile isBlank).dropWhile isNameChar = rest := by
    rw [hdrop]
    exact dropWhile_append_stop hname hrest
  have hstart : ∀ c after, text.dropWhile isBlank = c :: after → isNameChar c = true := by
    intro c after hc
    cases name with
    | nil => exact absurd rfl hne
    | cons d name =>
      rw [hdrop] at hc
      cases hc
      exact hname c List.mem_cons_self
  rw [scanAttributes]
  split
  · next hgt => exact absurd (hstart _ _ hgt) (by decide)
  · next hslash => exact absurd (hstart _ _ hslash) (by decide)
  · next hslash => exact absurd (hstart _ _ hslash) (by decide)
  · rw [htake, dif_neg hne]
    split
    · next stop herror =>
      rw [hskip] at herror
      rw [herror]
      rfl
    · next value more hok =>
      rw [hskip] at hok
      rw [hok]
      cases hmore : scanAttributes more with
      | error stop => simp [Except.bind, Except.map, hmore]
      | ok found => simp [Except.bind, Except.map, hmore]

/-- Where neither a name nor the end of the tag begins, no attributes are read. -/
theorem scanAttributes_misplaced {text rest : List Char} {c : Char}
    (hdrop : text.dropWhile isBlank = c :: rest) (hgt : c ≠ '>') (hslash : c ≠ '/')
    (hname : isNameChar c = false) : scanAttributes text = .error (c :: rest) := by
  rw [scanAttributes]
  split
  · next h =>
    rw [hdrop] at h
    exact absurd (List.cons.inj h).1 hgt
  · next h =>
    rw [hdrop] at h
    exact absurd (List.cons.inj h).1 hslash
  · next h =>
    rw [hdrop] at h
    exact absurd (List.cons.inj h).1 hslash
  · have htake : (text.dropWhile isBlank).takeWhile isNameChar = [] := by
      rw [hdrop]
      exact List.takeWhile_cons_of_neg (by simp [hname])
    rw [dif_pos htake, hdrop]

/-- A slash that is not followed by the end of the tag is refused behind it. -/
theorem scanAttributes_slash {text rest : List Char} (hdrop : text.dropWhile isBlank = '/' :: rest)
    (hrest : ∀ after, rest ≠ '>' :: after) : scanAttributes text = .error rest := by
  rw [scanAttributes]
  split
  · next h =>
    rw [hdrop] at h
    cases h
  · next h =>
    rw [hdrop] at h
    cases h
    exact absurd rfl (hrest _)
  · next h =>
    rw [hdrop] at h
    cases h
    rfl
  · next _ _ hnot => exact absurd hdrop (hnot _)

/-- Attributes end with a slash and a closing bracket, and then the tag closes itself. -/
theorem scanAttributes_selfClosing {text after : List Char}
    (hdrop : text.dropWhile isBlank = '/' :: '>' :: after) :
    scanAttributes text = .ok (([], true), after) := by
  rw [scanAttributes]
  split
  · next h =>
    rw [hdrop] at h
    cases h
  · next h =>
    rw [hdrop] at h
    cases h
    rfl
  · next hnot h =>
    rw [hdrop] at h
    cases h
    exact absurd rfl (hnot _)
  · next _ hnot _ => exact absurd hdrop (hnot _)

/-- A text in which a name stands after some blanks. -/
structure NameAt (text blanks name skipped : List Char) : Prop where
  text_eq : text = blanks ++ (name ++ skipped)
  read : ∀ other, (blanks ++ (name ++ other)).dropWhile isBlank = name ++ other
  ne : name ≠ []
  chars : ∀ c ∈ name, isNameChar c = true
  ends : ∀ c ∈ skipped.head?, isNameChar c = false

/-- Where a name can be read, the text falls into blanks, the name and what follows it. -/
theorem exists_nameAt {text : List Char}
    (hne : (text.dropWhile isBlank).takeWhile isNameChar ≠ []) :
    ∃ blanks, NameAt text blanks ((text.dropWhile isBlank).takeWhile isNameChar)
      ((text.dropWhile isBlank).dropWhile isNameChar) := by
  obtain ⟨blanks, htext, hblanks⟩ := exists_blanks text
  have hsplit := List.takeWhile_append_dropWhile (p := isNameChar) (l := text.dropWhile isBlank)
  have hfirst := head?_dropWhile_eq_false isBlank text
  rw [← hsplit] at htext hfirst
  refine ⟨blanks, htext, fun other => ?_, hne, List.all_eq_true.1 List.all_takeWhile,
    head?_dropWhile_eq_false isNameChar _⟩
  apply dropWhile_append_stop hblanks
  rw [List.head?_append_of_ne_nil _ hne] at hfirst ⊢
  exact hfirst

/-- What is read of an attribute is read in the same way in front of a text that begins alike. -/
theorem attribute_alike {text value rest : List Char}
    (hne : (text.dropWhile isBlank).takeWhile isNameChar ≠ [])
    (hvalue : scanValue ((text.dropWhile isBlank).dropWhile isNameChar) = .ok (value, rest)) :
    ∃ source, text = source ++ rest ∧ source.dropWhile isBlank ≠ [] ∧
      ∀ other, BeginsAlike rest other → scanAttributes (source ++ other) =
        (scanAttributes other).map fun ((others, selfClosing), after) =>
          ((((text.dropWhile isBlank).takeWhile isNameChar, value) :: others, selfClosing), after) := by
  obtain ⟨blanks, hname⟩ := exists_nameAt hne
  obtain ⟨given, hgiven, hread⟩ := scanValue_alike hvalue
  generalize (text.dropWhile isBlank).takeWhile isNameChar = name at *
  generalize (text.dropWhile isBlank).dropWhile isNameChar = skipped at *
  refine ⟨blanks ++ (name ++ given), ?_, ?_, fun other halike => ?_⟩
  · rw [hname.text_eq, hgiven, List.append_assoc, List.append_assoc]
  · rw [hname.read]
    exact fun hnil => hne (List.append_eq_nil_iff.1 hnil).1
  · have hends : ∀ c ∈ (given ++ other).head?, isNameChar c = false := by
      refine not_of_head_alike (by decide) ?_ hname.ends
      rw [hgiven]
      cases given with
      | nil => exact halike.head
      | cons c given => exact .inr rfl
    have happend : blanks ++ (name ++ given) ++ other = blanks ++ (name ++ (given ++ other)) := by simp
    rw [happend, scanAttributes_name (hname.read _) hne hname.chars hends, hread other halike]
    rfl

/-- Attributes with the end of their tag are read in front of any text. -/
theorem scanAttributes_before {text after : List Char} {found : List (List Char × List Char) × Bool}
    (h : scanAttributes text = .ok (found, after)) :
    ∃ source, text = source ++ after ∧ source.dropWhile isBlank ≠ [] ∧
      ∀ other, scanAttributes (source ++ other) = .ok (found, other) := by
  fun_induction scanAttributes text generalizing found after with
  -- The tag ends.
  | case1 text rest hdrop =>
    cases h
    obtain ⟨blanks, htext, hblanks⟩ := exists_blanks text
    have hread : ∀ other, (blanks ++ '>' :: other).dropWhile isBlank = '>' :: other := fun other =>
      dropWhile_append_stop hblanks (by simp; decide)
    refine ⟨blanks ++ ['>'], by rw [htext, hdrop]; simp, by simp [hread], fun other => ?_⟩
    rw [List.append_assoc]
    exact scanAttributes_end (hread other)
  -- The tag closes itself.
  | case2 text rest hdrop =>
    cases h
    obtain ⟨blanks, htext, hblanks⟩ := exists_blanks text
    have hread : ∀ other, (blanks ++ '/' :: other).dropWhile isBlank = '/' :: other := fun other =>
      dropWhile_append_stop hblanks (by simp; decide)
    refine ⟨blanks ++ ['/', '>'], by rw [htext, hdrop]; simp, by simp [hread], fun other => ?_⟩
    rw [List.append_assoc]
    exact scanAttributes_selfClosing (hread _)
  | case3 => cases h
  | case4 => cases h
  | case5 => cases h
  | case6 => cases h
  -- There is an attribute: whether its value ends depends on the character after it, which stays the same.
  | case7 text _ rest others selfClosing last hmore _ _ _ hne hvalue ih =>
    cases h
    obtain ⟨source, htext, hspaced, hread⟩ := attribute_alike hne hvalue
    obtain ⟨source', hrest, hspaced', hread'⟩ := ih hmore
    refine ⟨source ++ source', ?_, ?_, fun other => ?_⟩
    · rw [List.append_assoc, ← hrest, ← htext]
    · rw [List.dropWhile_append, if_neg (by simpa using hspaced)]
      exact fun hnil => hspaced (List.append_eq_nil_iff.1 hnil).1
    · have halike : BeginsAlike rest (source' ++ other) := by
        rw [hrest]
        exact .of_common hspaced' _ _
      rw [List.append_assoc, hread _ halike, hread' other]
      rfl

/-- Texts begin alike if they have the same blanks and then the same character. -/
theorem BeginsAlike.of_next {blanks : List Char} (hblanks : ∀ c ∈ blanks, isBlank c = true) {c : Char}
    (hc : isBlank c = false) (rest more : List Char) :
    BeginsAlike (blanks ++ c :: rest) (blanks ++ c :: more) := by
  have hdrop : ∀ others, (blanks ++ c :: others).dropWhile isBlank = c :: others := fun others =>
    dropWhile_append_stop hblanks (by simp [hc])
  refine ⟨.inr ?_, .inr (by rw [hdrop, hdrop]; rfl)⟩
  cases blanks with
  | nil => rfl
  | cons d blanks => rfl

/-- The end of a tag behind the blanks of a text begins like the text. -/
theorem BeginsAlike.of_end {blanks : List Char} (hblanks : ∀ c ∈ blanks, isBlank c = true)
    (text : List Char) : BeginsAlike (blanks ++ text) (blanks ++ ['>']) := by
  have hdrop : (blanks ++ ['>']).dropWhile isBlank = ['>'] :=
    dropWhile_append_stop hblanks (by simp; decide)
  refine ⟨?_, .inl (by rw [hdrop]; rfl)⟩
  cases blanks with
  | nil => exact .inl rfl
  | cons d blanks => exact .inr rfl

/-! ## Where attributes stop -/

/-- A text of attributes that are not read falls into what can still be continued to the end of a tag and
the rest, whose first character rules that out. -/
structure StopsAt (text before stop : List Char) : Prop where
  text_eq : text = before ++ stop
  closes : ∃ more found, BeginsAlike text (before ++ more) ∧
    scanAttributes (before ++ more) = .ok (found, [])
  dead : ∀ c rest more, stop = c :: rest → BeginsAlike text (before ++ c :: more) ∧
    ∃ failed, scanAttributes (before ++ c :: more) = .error failed

/-- A slash that is not followed by the end of the tag. -/
theorem StopsAt.slash {blanks rest : List Char} (hblanks : ∀ c ∈ blanks, isBlank c = true)
    (hrest : ∀ after, rest ≠ '>' :: after) : StopsAt (blanks ++ '/' :: rest) (blanks ++ ['/']) rest := by
  have hread : ∀ other, (blanks ++ '/' :: other).dropWhile isBlank = '/' :: other := fun other =>
    dropWhile_append_stop hblanks (by simp; decide)
  have hsplit : blanks ++ '/' :: rest = blanks ++ ['/'] ++ rest := by simp
  have halike : ∀ other, BeginsAlike (blanks ++ '/' :: rest) (blanks ++ ['/'] ++ other) := by
    rw [hsplit]
    exact BeginsAlike.of_common (by simp [hread]) rest
  refine ⟨hsplit, ⟨['>'], ([], true), halike _, ?_⟩, fun c others more hstop => ⟨halike _, c :: more, ?_⟩⟩
  · rw [List.append_assoc]
    exact scanAttributes_selfClosing (hread _)
  · rw [List.append_assoc]
    refine scanAttributes_slash (hread _) fun after hafter => ?_
    cases hafter
    exact hrest others hstop

/-- Something that is no part of a tag. -/
theorem StopsAt.misplaced {blanks stop : List Char} (hblanks : ∀ c ∈ blanks, isBlank c = true)
    (hfirst : ∀ c ∈ stop.head?, isBlank c = false) (hgt : ∀ rest, stop ≠ '>' :: rest)
    (hslash : ∀ rest, stop ≠ '/' :: rest) (hname : stop.takeWhile isNameChar = []) :
    StopsAt (blanks ++ stop) blanks stop := by
  have hread : (blanks ++ ['>']).dropWhile isBlank = ['>'] :=
    dropWhile_append_stop hblanks (by simp; decide)
  refine ⟨rfl, ⟨['>'], ([], false), .of_end hblanks _, scanAttributes_end hread⟩, ?_⟩
  rintro c rest more rfl
  have hc : isBlank c = false := hfirst c rfl
  refine ⟨.of_next hblanks hc _ _, c :: more, ?_⟩
  refine scanAttributes_misplaced (dropWhile_append_stop hblanks (by simp [hc])) ?_ ?_ ?_
  · rintro rfl
    exact hgt rest rfl
  · rintro rfl
    exact hslash rest rfl
  · by_contra hnamed
    rw [List.takeWhile_cons_of_pos (by simpa using hnamed)] at hname
    cases hname

/-- An attribute whose quotes are not closed can still be closed. -/
theorem StopsAt.unclosed {text stop : List Char}
    (hne : (text.dropWhile isBlank).takeWhile isNameChar ≠ [])
    (hvalue : scanValue ((text.dropWhile isBlank).dropWhile isNameChar) = .error stop) :
    StopsAt text text stop := by
  obtain ⟨rfl, quote, value, hread⟩ := scanValue_error hvalue
  obtain ⟨blanks, hname⟩ := exists_nameAt hne
  have hspaced : text.dropWhile isBlank ≠ [] := by
    intro hnil
    rw [hnil] at hne
    exact hne rfl
  have halike := BeginsAlike.of_common hspaced [] [quote, '>']
  rw [List.append_nil] at halike
  generalize (text.dropWhile isBlank).takeWhile isNameChar = name at *
  generalize (text.dropWhile isBlank).dropWhile isNameChar = skipped at *
  refine ⟨(List.append_nil _).symm, ⟨[quote, '>'], ([(name, value)], false), halike, ?_⟩,
    fun _ _ _ hnil => absurd hnil (by simp)⟩
  have hskipped : skipped ≠ [] := by
    rintro rfl
    cases hvalue
  have hdrop : (text ++ [quote, '>']).dropWhile isBlank = name ++ (skipped ++ [quote, '>']) := by
    rw [hname.text_eq, List.append_assoc, List.append_assoc]
    exact hname.read _
  have hends := hname.ends
  have hhead : (skipped ++ [quote, '>']).head? = skipped.head? := List.head?_append_of_ne_nil skipped hskipped
  rw [← hhead] at hends
  have hgt : ['>'].dropWhile isBlank = ['>'] := List.dropWhile_cons_of_neg (by decide)
  rw [scanAttributes_name hdrop hne hname.chars hends, hread ['>']]
  simp only [Except.bind, scanAttributes_end hgt]
  rfl

/-- An attribute in front of a text that stops somewhere. -/
theorem StopsAt.later {text value rest before stop : List Char}
    (hne : (text.dropWhile isBlank).takeWhile isNameChar ≠ [])
    (hvalue : scanValue ((text.dropWhile isBlank).dropWhile isNameChar) = .ok (value, rest))
    (h : StopsAt rest before stop) : ∃ source, StopsAt text (source ++ before) stop := by
  obtain ⟨source, htext, hspaced, hread⟩ := attribute_alike hne hvalue
  have halike : ∀ other, BeginsAlike text (source ++ other) := by
    rw [htext]
    exact BeginsAlike.of_common hspaced rest
  refine ⟨source, ?_, ?_, fun c others more hstop => ?_⟩
  · rw [List.append_assoc, ← h.text_eq, ← htext]
  · obtain ⟨more, found, hbegins, hfound⟩ := h.closes
    refine ⟨more, ?_⟩
    rw [List.append_assoc, hread _ hbegins, hfound]
    exact ⟨_, halike _, rfl⟩
  · obtain ⟨hbegins, failed, hfailed⟩ := h.dead c others more hstop
    rw [List.append_assoc, hread _ hbegins, hfailed]
    exact ⟨halike _, failed, rfl⟩

/-- Attributes that are not read stop at the end of the longest start with which they could have been. -/
theorem scanAttributes_error {text stop : List Char} (h : scanAttributes text = .error stop) :
    ∃ before, StopsAt text before stop := by
  obtain ⟨blanks, htext, hblanks⟩ := exists_blanks text
  fun_induction scanAttributes text generalizing stop blanks with
  | case1 => cases h
  | case2 => cases h
  | case3 text rest hnot hdrop =>
    cases h
    rw [hdrop] at htext
    rw [htext]
    exact ⟨_, .slash hblanks hnot⟩
  | case4 text hgt hself hslash hempty =>
    cases h
    have hstops := StopsAt.misplaced hblanks (head?_dropWhile_eq_false isBlank text) hgt hslash hempty
    rw [← htext] at hstops
    exact ⟨blanks, hstops⟩
  | case5 text stop _ _ _ hne hvalue =>
    cases h
    exact ⟨text, .unclosed hne hvalue⟩
  | case6 text value rest stop hmore _ _ _ hne hvalue ih =>
    cases h
    obtain ⟨blanks', hrest, hblanks'⟩ := exists_blanks rest
    obtain ⟨before, hbefore⟩ := ih hmore blanks' hrest hblanks'
    obtain ⟨source, hstops⟩ := hbefore.later hne hvalue
    exact ⟨source ++ before, hstops⟩
  | case7 => cases h

end DataBinding.Markup
