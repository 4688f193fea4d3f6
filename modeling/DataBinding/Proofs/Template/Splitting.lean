import Mathlib.Data.List.Chain
import DataBinding.Model.Rendering
import DataBinding.Proofs.Template.Marks
import DataBinding.Proofs.Text.Words

/-!
# Splitting a text at its markers

A text is split at the marks that capture something. `Divides` says what a text and the parts of its template
have to do with each other: between two bindings stands what is between their marks, marks that capture nothing
included, as one literal. So nothing of the text is lost but blanks around paths, and in a literal there is
nothing left to split. A text that cannot be split has a path with an empty segment, and the first one of these
is the one that the error names.
-/

set_option autoImplicit false

namespace DataBinding

/-! ## Paths as they are written -/

/-- The pieces of a text with the separator between them are the text. -/
theorem intercalate_pieces (separator : Char) (text : List Char) :
    [separator].intercalate (pieces (· == separator) text) = text := by
  induction text with
  | nil => rfl
  | cons c rest ih =>
    unfold pieces
    cases hpieces : pieces (· == separator) rest with
    | nil => exact absurd hpieces (pieces_ne_nil _ _)
    | cons first others =>
      rw [hpieces] at ih
      split
      · next hseparator =>
        rw [eq_of_beq hseparator, ← ih]
        simp [List.intercalate]
      · rw [← ih]
        cases others <;> simp [List.intercalate]

/-- Whether a captured path has an empty segment. -/
def HasEmptySegment (path : List Char) : Prop := [] ∈ pieces (· == '.') path

/-- A string is empty if and only if it has no characters. -/
theorem isEmpty_ofList (text : List Char) : (String.ofList text).isEmpty = true ↔ text = [] := by
  rw [String.isEmpty_iff, ← String.toList_inj, String.toList_ofList]
  rfl

namespace Path

/-- A path is written as it was read. -/
theorem text_of_parse {text : String} {path : Path} (h : parse text = .ok path) : path.text = text := by
  unfold parse at h
  simp only at h
  split at h
  · cases h
  · cases h
    have hne : (pieces (· == '.') text.toList).map String.ofList ≠ [] := by simp [pieces_ne_nil]
    have hsegments : ∀ keys : List String, keys ≠ [] → keys.dropLast ++ [keys.getLastD ""] = keys := by
      intro keys hkeys
      rw [List.getLastD_eq_getLast?, List.getLast?_eq_some_getLast hkeys, Option.getD_some,
        List.dropLast_concat_getLast]
    unfold Path.text segments
    rw [hsegments _ hne, ← String.toList_inj, String.toList_intercalate]
    simpa using intercalate_pieces '.' text.toList

/-- A text that is no path has an empty segment, and the error names the text. -/
theorem of_parse_error {text : String} {e : Error} (h : parse text = .error e) :
    HasEmptySegment text.toList ∧ e = .invalidPath text := by
  unfold parse at h
  simp only at h
  split at h
  · next hempty =>
    cases h
    simp only [List.any_map, List.any_eq_true, Function.comp_apply, isEmpty_ofList] at hempty
    obtain ⟨piece, hmem, rfl⟩ := hempty
    exact ⟨hmem, rfl⟩
  · cases h

/-- A path that is parsed has no empty segment. -/
theorem not_hasEmptySegment_of_parse {text : String} {path : Path} (h : parse text = .ok path) :
    ¬ HasEmptySegment text.toList := by
  intro hempty
  unfold parse at h
  simp only at h
  rw [if_pos] at h
  · cases h
  · simp only [List.any_map, List.any_eq_true, Function.comp_apply, isEmpty_ofList]
    exact ⟨[], hempty, rfl⟩

end Path

/-! ## Captures -/

/-- What is captured for a path is the path, with some blanks around it if paths are trimmed. -/
def Surrounds (trimPaths : Bool) (captured path : List Char) : Prop :=
  ∃ before after, captured = before ++ path ++ after ∧ (∀ c ∈ before ++ after, isBlank c = true) ∧
    (trimPaths = false → before ++ after = [])

/-- A text is its trimmed form with blanks around it. -/
theorem surrounds_trim (text : List Char) : Surrounds true text (trim text) := by
  have hall : ∀ text : List Char, ∀ c ∈ text.takeWhile isBlank, isBlank c = true := fun text =>
    List.all_eq_true.1 List.all_takeWhile
  let inner := text.dropWhile isBlank
  refine ⟨text.takeWhile isBlank, (inner.reverse.takeWhile isBlank).reverse, ?_, ?_, fun h => by cases h⟩
  · have hinner : trim text ++ (inner.reverse.takeWhile isBlank).reverse = inner := by
      unfold trim trimEnd
      rw [← List.reverse_append, List.takeWhile_append_dropWhile, List.reverse_reverse]
    rw [List.append_assoc, hinner, List.takeWhile_append_dropWhile]
  · simp only [List.forall_mem_append, List.mem_reverse]
    exact ⟨hall text, hall _⟩

/-- What stands between delimiters is the captured path, with blanks around it at most if paths are trimmed. -/
theorem surrounds_capture (trimPaths : Bool) (captured : List Char) :
    Surrounds trimPaths captured (Marker.capture trimPaths captured) := by
  cases trimPaths with
  | true => exact surrounds_trim captured
  | false => exact ⟨[], [], by simp [Marker.capture], by simp, by simp⟩

/-- Whether a part of a template is a literal. -/
def TemplatePart.isLiteral : TemplatePart → Bool
  | .literal _ => true
  | .binding _ => false

namespace Template

variable {d : Delimiters} {trimPaths : Bool} {text : List Char} {parts : List TemplatePart}

/-! ## Dividing a text -/

/-- A text divided into the parts of a template. A literal goes from one mark that captures something to the
next, or to the end. -/
inductive Divides (d : Delimiters) (trimPaths : Bool) : List Char → List TemplatePart → Prop where
  | last {text rest : List Char} {idle : List Mark} (hleads : Leads d text idle rest)
      (hidle : ∀ mark ∈ idle, mark.Idle trimPaths) (hrest : Unmarked d rest) :
      Divides d trimPaths text (literalPart text)
  | binding {text after : List Char} {idle : List Mark} {mark : Mark} {path : Path} {parts : List TemplatePart}
      (hleads : Leads d text (idle ++ [mark]) after) (hidle : ∀ other ∈ idle, other.Idle trimPaths)
      (hbinds : ¬ mark.Idle trimPaths)
      (hpath : Path.parse (String.ofList (Marker.capture trimPaths mark.captured)) = .ok path)
      (hafter : Divides d trimPaths after parts) :
      Divides d trimPaths text (literalPart (Mark.texts d idle ++ mark.before) ++ .binding path :: parts)

/-- A text is what parts of a template say: literals as they are, and paths between delimiters, with some
blanks around them if paths are trimmed. -/
def Spells (d : Delimiters) (trimPaths : Bool) : List TemplatePart → List Char → Prop
  | [], text => text = []
  | .literal literal :: rest, text => ∃ more, text = literal.toList ++ more ∧ Spells d trimPaths rest more
  | .binding path :: rest, text => ∃ captured more,
      text = d.opening.toList ++ captured ++ d.closing.toList ++ more ∧
      Surrounds trimPaths captured path.text.toList ∧ Spells d trimPaths rest more


namespace Divides

/-- A literal in front of parts says what its text says in front of theirs. -/
theorem spells_literalPart (literal : List Char) (h : Spells d trimPaths parts text) :
    Spells d trimPaths (literalPart literal ++ parts) (literal ++ text) := by
  unfold literalPart
  split
  · next hempty =>
    rw [List.isEmpty_iff.1 hempty]
    exact h
  · exact ⟨text, by rw [String.toList_ofList], h⟩

/-- The text can be had back from the parts. -/
theorem spells (h : Divides d trimPaths text parts) : Spells d trimPaths parts text := by
  induction h with
  | @last text =>
    have hspells : Spells d trimPaths ([] : List TemplatePart) [] := rfl
    simpa using spells_literalPart text hspells
  | @binding text after idle mark path parts hleads _ _ hpath _ ih =>
    have htext : text = (Mark.texts d idle ++ mark.before) ++
        (d.opening.toList ++ mark.captured ++ d.closing.toList ++ after) := by
      rw [hleads.text_eq]
      simp [Mark.texts, Mark.text]
    rw [htext]
    refine spells_literalPart _ ⟨mark.captured, after, rfl, ?_, ih⟩
    rw [Path.text_of_parse hpath, String.toList_ofList]
    exact surrounds_capture trimPaths mark.captured

/-- Literals are not empty, and nothing in them is a marker. -/
theorem literals (h : Divides d trimPaths text parts) (hopening : d.opening.toList ≠ []) {literal : String}
    (hliteral : .literal literal ∈ parts) :
    literal ≠ "" ∧ containsBinding d trimPaths literal.toList = false := by
  have hpart : ∀ {text rest : List Char} {idle : List Mark}, Leads d text idle rest →
      (∀ mark ∈ idle, mark.Idle trimPaths) → Unmarked d rest → .literal literal ∈ literalPart text →
      literal ≠ "" ∧ containsBinding d trimPaths literal.toList = false := by
    intro text rest idle hleads hidle hrest hmem
    unfold literalPart at hmem
    split at hmem
    · cases hmem
    · next hne =>
      cases List.mem_singleton.1 hmem
      refine ⟨fun hempty => hne ?_, ?_⟩
      · rw [← String.toList_inj, String.toList_ofList] at hempty
        rw [hempty]
        rfl
      · unfold containsBinding
        rw [String.toList_ofList, Marker.first?_eq_none hleads hidle hrest]
        rfl
  induction h with
  | last hleads hidle hrest => exact hpart hleads hidle hrest hliteral
  | @binding text after idle mark path parts hleads hidle _ _ _ ih =>
    rcases List.mem_append.1 hliteral with hfirst | hrest
    · obtain ⟨between, hbefore, hmark⟩ := hleads.of_append
      cases hmark with
      | mark hfound _ _ => exact hpart (hbefore.other _) hidle (hfound.unmarked hopening) hfirst
    · exact ih ((List.mem_cons.1 hrest).resolve_left fun heq => by cases heq)

/-- Between two literals there is a binding. -/
theorem isChain (h : Divides d trimPaths text parts) :
    parts.IsChain fun first second => ¬ (first.isLiteral = true ∧ second.isLiteral = true) := by
  induction h with
  | last =>
    unfold literalPart
    split
    · exact .nil
    · exact .singleton _
  | @binding text after idle mark path parts _ _ _ _ _ ih =>
    have hbinding : (TemplatePart.binding path :: parts).IsChain fun first second =>
        ¬ (first.isLiteral = true ∧ second.isLiteral = true) :=
      List.isChain_cons.2 ⟨fun _ _ hboth => absurd hboth.1 Bool.false_ne_true, ih⟩
    unfold literalPart
    split
    · exact hbinding
    · refine List.isChain_cons.2 ⟨fun next hnext hboth => ?_, hbinding⟩
      cases Option.some.inj hnext
      cases hboth.2

end Divides

/-! ## Reading a template -/

/-- The parts that a text is split into divide it. The induction follows the markers that the parser finds;
marks that capture nothing lie within the literals. -/
theorem divides_of_parseParts (hopening : d.opening.toList ≠ []) (hclosing : d.closing.toList ≠ [])
    (h : parseParts d trimPaths text = .ok parts) : Divides d trimPaths text parts := by
  fun_induction parseParts d trimPaths text generalizing parts with
  | case1 text hnone =>
    cases h
    obtain ⟨idle, rest, hleads, hidle, hrest⟩ := Marker.leads_of_first?_eq_none hopening hclosing hnone
    exact .last hleads hidle hrest
  | case2 => cases h
  | case3 text marker hmarker path hpath ih =>
    cases hafter : parseParts d trimPaths marker.after with
    | error e =>
      rw [hafter] at h
      cases h
    | ok others =>
      rw [hafter] at h
      cases h
      obtain ⟨idle, mark, hleads, hidle, hbinds, hbefore, hcaptured⟩ := Marker.leads_of_first? hmarker
      rw [hbefore]
      exact .binding hleads hidle hbinds (hcaptured ▸ hpath) (ih hafter)

/-- The first path with an empty segment that a text captures. -/
def CapturesEmptySegment (d : Delimiters) (trimPaths : Bool) (text captured : List Char) : Prop :=
  ∃ marks mark after, Leads d text (marks ++ [mark]) after ∧
    (∀ other ∈ marks, other.Idle trimPaths ∨ ¬ HasEmptySegment (Marker.capture trimPaths other.captured)) ∧
    ¬ mark.Idle trimPaths ∧ captured = Marker.capture trimPaths mark.captured ∧ HasEmptySegment captured

/-- A text that is no template is refused for the first path in it with an empty segment. -/
theorem capturesEmptySegment_of_parseParts {e : Error} (h : parseParts d trimPaths text = .error e) :
    ∃ captured, CapturesEmptySegment d trimPaths text captured ∧ e = .invalidPath (String.ofList captured) := by
  fun_induction parseParts d trimPaths text with
  | case1 => cases h
  | case2 text marker hmarker e' hpath =>
    cases h
    obtain ⟨hempty, rfl⟩ := Path.of_parse_error hpath
    rw [String.toList_ofList] at hempty
    obtain ⟨idle, mark, hleads, hidle, hbinds, -, hcaptured⟩ := Marker.leads_of_first? hmarker
    exact ⟨_, ⟨idle, mark, _, hleads, fun other hother => .inl (hidle other hother), hbinds, hcaptured, hempty⟩,
      rfl⟩
  | case3 text marker hmarker path hpath ih =>
    cases hafter : parseParts d trimPaths marker.after with
    | ok others =>
      rw [hafter] at h
      cases h
    | error e' =>
      rw [hafter] at h
      cases h
      obtain ⟨captured, ⟨marks, last, after, hleads', hmarks, hlast⟩, rfl⟩ := ih hafter
      obtain ⟨idle, mark, hleads, hidle, hbinds, -, hcaptured⟩ := Marker.leads_of_first? hmarker
      have hread := Path.not_hasEmptySegment_of_parse hpath
      rw [String.toList_ofList, hcaptured] at hread
      refine ⟨captured, ⟨idle ++ [mark] ++ marks, last, after, ?_, ?_, hlast⟩, rfl⟩
      · rw [List.append_assoc]
        exact hleads.trans hleads'
      · simp only [List.forall_mem_append, List.mem_singleton, forall_eq]
        exact ⟨⟨fun other hother => .inl (hidle other hother), .inr hread⟩, hmarks⟩

/-- A text without a marker is one literal. -/
theorem parseParts_of_first?_eq_none (h : Marker.first? d trimPaths text = none) :
    parseParts d trimPaths text = .ok (literalPart text) := by
  unfold parseParts
  split
  · rfl
  · next hsome =>
    rw [h] at hsome
    cases hsome

/-- A literal has no paths. -/
theorem paths_literalPart (text : List Char) : paths ⟨literalPart text⟩ = [] := by
  unfold literalPart
  split <;> rfl

/-- A literal is rendered as it stands, whatever the model. -/
theorem render?_literalPart (m : Model) (root : Value) (text : String) :
    m.render? ⟨literalPart text.toList⟩ root = some (.ok text) := by
  unfold literalPart
  split
  · next hempty =>
    obtain rfl : text = "" := by simpa using hempty
    rfl
  · simp [Model.render?, Model.renderParts?, Except.map]

/-- A text with a marker binds at least one path. -/
theorem paths_ne_nil {marker : Marker} (hmarker : Marker.first? d trimPaths text = some marker)
    (h : parseParts d trimPaths text = .ok parts) : paths ⟨parts⟩ ≠ [] := by
  fun_induction parseParts d trimPaths text generalizing parts with
  | case1 text hnone =>
    rw [hmarker] at hnone
    cases hnone
  | case2 => cases h
  | case3 text found hfound path hpath ih =>
    cases hafter : parseParts d trimPaths found.after with
    | error e =>
      rw [hafter] at h
      cases h
    | ok others =>
      rw [hafter] at h
      cases h
      simp [paths]

/-- Whether a text has a marker that captures something can be told from what reading it comes to. -/
theorem containsBinding_iff (text : String) : containsBinding d trimPaths text.toList = true ↔
    (∃ captured, parse d trimPaths text = .error (.invalidPath captured)) ∨
      ∃ template, parse d trimPaths text = .ok template ∧ template.paths ≠ [] := by
  unfold containsBinding parse
  rw [Option.isSome_iff_exists]
  constructor
  · rintro ⟨marker, hmarker⟩
    cases hparts : parseParts d trimPaths text.toList with
    | error e =>
      obtain ⟨captured, -, rfl⟩ := capturesEmptySegment_of_parseParts hparts
      exact .inl ⟨_, rfl⟩
    | ok parts => exact .inr ⟨⟨parts⟩, rfl, paths_ne_nil hmarker hparts⟩
  · intro h
    cases hmarker : Marker.first? d trimPaths text.toList with
    | some marker => exact ⟨marker, rfl⟩
    | none =>
      rw [parseParts_of_first?_eq_none hmarker] at h
      obtain ⟨captured, herror⟩ | ⟨template, htemplate, hpaths⟩ := h
      · cases herror
      · cases htemplate
        exact absurd (paths_literalPart text.toList) hpaths

/-- A text in which no mark captures anything is shown as it is. -/
theorem parse_of_idle {text : String}
    (h : ∀ marks after, Leads d text.toList marks after → ∀ mark ∈ marks, mark.Idle trimPaths) :
    ∃ template, parse d trimPaths text = .ok template ∧
      ∀ (m : Model) (root : Value), m.render? template root = some (.ok text) := by
  -- A marker that is found would be a mark that captures something.
  have hnone : Marker.first? d trimPaths text.toList = none := by
    by_contra hsome
    obtain ⟨marker, hmarker⟩ := Option.ne_none_iff_exists'.1 hsome
    obtain ⟨idle, mark, hleads, -, hbinds, -⟩ := Marker.leads_of_first? hmarker
    exact hbinds (h _ _ hleads mark (List.mem_append_right idle (List.mem_singleton.2 rfl)))
  refine ⟨⟨literalPart text.toList⟩, ?_, fun m root => render?_literalPart m root text⟩
  unfold parse
  rw [parseParts_of_first?_eq_none hnone]
  rfl

/-- A text is split at its marks that capture something, whatever the delimiters are, as long as they are not
empty. A template says what its text said, blanks around paths apart; its literals are what stands between
those marks, in one piece, and there is no marker left in them. A text is refused for the first path in it with
an empty segment. It has a marker exactly if it is refused or its template has a path, and if no mark captures
anything it is shown as it is. -/
theorem splits_exactly (hopening : d.opening ≠ "") (hclosing : d.closing ≠ "") (text : String) :
    (containsBinding d trimPaths text.toList = true ↔
      (∃ captured, parse d trimPaths text = .error (.invalidPath captured)) ∨
        ∃ template, parse d trimPaths text = .ok template ∧ template.paths ≠ []) ∧
    (∀ template, parse d trimPaths text = .ok template →
      Spells d trimPaths template.parts text.toList ∧
      (∀ literal, .literal literal ∈ template.parts →
        literal ≠ "" ∧ containsBinding d trimPaths literal.toList = false) ∧
      template.parts.IsChain (fun first second => ¬ (first.isLiteral = true ∧ second.isLiteral = true)) ∧
      Divides d trimPaths text.toList template.parts) ∧
    (∀ e, parse d trimPaths text = .error e → ∃ captured,
      CapturesEmptySegment d trimPaths text.toList captured ∧ e = .invalidPath (String.ofList captured)) ∧
    ((∀ marks after, Leads d text.toList marks after → ∀ mark ∈ marks, mark.Idle trimPaths) →
      ∃ template, parse d trimPaths text = .ok template ∧
        ∀ (m : Model) (root : Value), m.render? template root = some (.ok text)) := by
  have hne : ∀ {text : String}, text ≠ "" → text.toList ≠ [] := fun htext hnil =>
    htext (String.toList_inj.1 hnil)
  refine ⟨containsBinding_iff text, fun template htemplate => ?_, fun e herror => ?_, parse_of_idle⟩
  · unfold parse at htemplate
    cases hparts : parseParts d trimPaths text.toList with
    | error e =>
      rw [hparts] at htemplate
      cases htemplate
    | ok parts =>
      rw [hparts] at htemplate
      cases htemplate
      have hdivides := divides_of_parseParts (hne hopening) (hne hclosing) hparts
      exact ⟨hdivides.spells, fun literal => hdivides.literals (hne hopening), hdivides.isChain, hdivides⟩
  · unfold parse at herror
    cases hparts : parseParts d trimPaths text.toList with
    | ok parts =>
      rw [hparts] at herror
      cases herror
    | error e' =>
      rw [hparts] at herror
      cases herror
      exact capturesEmptySegment_of_parseParts hparts

/-- The closing delimiter is the start of the opening one: the first mark captures a blank, the second a path
after a blank, and what is opened last is not closed. -/
theorem splits_exactly_overlapping :
    let d : Delimiters := ⟨"[[", "["⟩
    let parts : List TemplatePart := [.literal "a[[ [b", .binding ⟨[], "c"⟩, .literal "d[["]
    d.opening ≠ "" ∧ d.closing ≠ "" ∧ containsBinding d true "a[[ [b[[ c[d[[".toList = true ∧
      parse d true "a[[ [b[[ c[d[[" = .ok ⟨parts⟩ ∧ Spells d true parts "a[[ [b[[ c[d[[".toList ∧
      containsBinding d true "d[[".toList = false ∧ Divides d true "a[[ [b[[ c[d[[".toList parts := by
  intro d parts
  have hopening : d.opening ≠ "" := by decide
  have hclosing : d.closing ≠ "" := by decide
  have hparse : parse d true "a[[ [b[[ c[d[[" = .ok ⟨parts⟩ := by decide +kernel
  have hpaths : paths ⟨parts⟩ ≠ [] := by decide
  have hcontains : containsBinding d true "a[[ [b[[ c[d[[".toList = true :=
    (splits_exactly hopening hclosing _).1.2 (.inr ⟨_, hparse, hpaths⟩)
  obtain ⟨hspells, hliterals, -, hdivides⟩ := (splits_exactly hopening hclosing _).2.1 _ hparse
  exact ⟨hopening, hclosing, hcontains, hparse, hspells, (hliterals "d[[" (by decide)).2, hdivides⟩

end Template

end DataBinding
