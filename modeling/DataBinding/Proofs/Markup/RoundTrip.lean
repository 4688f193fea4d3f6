import DataBinding.Proofs.Markup.Nesting

/-!
# Markup reads back as the trees that it was written for

The markup of trees in normal form splits into exactly the tokens of the trees: each piece is read by
the scanner of its kind, and after a text comes the start of a tag or a comment. Other trees have the
markup of their normal form. So parsing gives back the normal form of all writable trees; and since
every result of parsing is writable and in normal form, writing it and parsing again changes nothing.
-/

set_option autoImplicit false

namespace DataBinding.Markup

open DataBinding.Markup.Tree

/-- A tree that is no text is written with the start of a tag or a comment. -/
theorem startsTag_write {tree : Tree} (h : tree.Writable) (hnot : tree.isText = false)
    (text : List Char) : startsTag (tree.write ++ text) = true := by
  cases h with
  | text content => cases hnot
  | comment hbody => rfl
  | element htag hnames hdistinct hchildren =>
    obtain ⟨c, rest, hstart, hletter⟩ := htag.starts
    rw [write, writeOpening, hstart]
    exact startsTag_of_letter hletter _

/-- A run of text ends before trees that do not begin with a text. -/
theorem endsText_writeAll {trees : List Tree} (h : ∀ tree ∈ trees, tree.Writable)
    (hnot : ∀ first ∈ trees.head?, first.isText = false) {text : List Char} (htext : EndsText text) :
    EndsText (writeAll trees ++ text) := by
  cases trees with
  | nil => exact htext
  | cons first rest =>
    rw [writeAll, List.append_assoc]
    exact .inr (startsTag_write (h first List.mem_cons_self) (hnot first rfl) _)

mutual

/-- A tree is written as its tokens, in front of a text that is a sequence of tokens and, after a text, ends
it. The induction is on the tree, together with the one on its children. -/
theorem lexes_write : ∀ {tree : Tree}, tree.Writable → tree.Normal → ∀ {after : List Char}
    {tokens : List Token}, (tree.isText = true → EndsText after) → Lexes after tokens →
    Lexes (tree.write ++ after) (tree.tokens ++ tokens)
  | .text content, _, .text hne, after, tokens, hends, hafter => by
    have hcontent : content.toList ≠ [] := by
      intro hempty
      apply hne
      rw [← String.toList_inj, hempty, String.toList_empty]
    exact .step (scanToken_text hcontent (hends rfl)) hafter
  | .comment body, .comment hbody, _, after, tokens, _, hafter =>
    .step (scanToken_comment hbody after) hafter
  | .element tag attributes children, .element htag hnames _ hchildren,
      .element _ hnormal hapart, after, tokens, _, hafter => by
    rw [write, Tree.tokens, List.append_assoc, List.cons_append]
    refine .step (scanToken_opening htag hnames _) ?_
    by_cases hvoid : isVoid tag = true
    · rw [if_pos hvoid, if_pos hvoid]
      exact hafter
    · have hclosing : Lexes (writeClosing tag ++ after) (.closing tag.toList :: tokens) :=
        .step (scanToken_closing htag after) hafter
      rw [if_neg hvoid, if_neg hvoid, List.append_assoc, List.append_assoc]
      exact lexes_writeAll hchildren ⟨hnormal, hapart⟩ (.inr rfl) hclosing

/-- The markup of trees in normal form splits into the tokens of the trees. -/
theorem lexes_writeAll : ∀ {trees : List Tree}, (∀ tree ∈ trees, tree.Writable) → AllNormal trees →
    ∀ {after : List Char} {tokens : List Token}, EndsText after → Lexes after tokens →
    Lexes (writeAll trees ++ after) (Tree.allTokens trees ++ tokens)
  | [], _, _, _, _, _, hafter => hafter
  | tree :: rest, hwritable, hnormal, after, tokens, hends, hafter => by
    obtain ⟨hfirst, hothers⟩ := List.forall_mem_cons.1 hwritable
    obtain ⟨hfirst', hnext, hothers'⟩ := allNormal_cons.1 hnormal
    rw [writeAll, Tree.allTokens, List.append_assoc, List.append_assoc]
    refine lexes_write hfirst hfirst' (fun hisText => ?_) (lexes_writeAll hothers hothers' hends hafter)
    refine endsText_writeAll hothers (fun next hmem => ?_) hends
    exact (hnext next hmem).resolve_left (by simp [hisText])

end

/-- Placing lexemes keeps their tokens. -/
theorem map_token_place (offset : Nat) (lexemes : List Lexeme) :
    (place offset lexemes).map Placed.token = lexemes.map Lexeme.token := by
  induction lexemes generalizing offset with
  | nil => rfl
  | cons lexeme lexemes ih => rw [place, List.map_cons, ih, List.map_cons]

/-- Parsing the markup of trees in normal form gives the trees back. -/
theorem parse_writeAll {trees : List Tree} (hwritable : ∀ tree ∈ trees, tree.Writable)
    (hnormal : AllNormal trees) : parse (String.ofList (writeAll trees)) = .ok trees := by
  have hlexes := lexes_writeAll hwritable hnormal (.inl rfl) .done
  rw [List.append_nil, List.append_nil] at hlexes
  obtain ⟨lexemes, hlex, htokens⟩ := hlexes.lex
  have hplaced : (place 0 lexemes).map Placed.token = Tree.allTokens trees := by
    rw [map_token_place, htokens]
  have hgrow := grow_allTokens hwritable hnormal hplaced [] [] []
  rw [List.append_nil, List.append_nil] at hgrow
  rw [parse, String.toList_ofList, hlex]
  simp only [build]
  rw [hgrow, grow, List.reverse_reverse]

/-- What parsing gives can be written and is in normal form. -/
theorem kept_of_parse {text : String} {trees : List Tree} (h : parse text = .ok trees) : Kept trees := by
  unfold parse at h
  split at h
  · cases h
  · next lexemes hlex =>
    obtain ⟨hsound, hchain, -⟩ := (lexes_of_lex hlex).sound
    have htokens := map_token_place 0 lexemes
    rw [← htokens] at hsound hchain
    have hstart : Growing (place 0 lexemes) [] [] := by
      refine ⟨fun entry hentry => ?_, hchain, fun _ hmem => absurd hmem List.not_mem_nil, .nil, ?_⟩
      · exact hsound _ (List.mem_map_of_mem hentry)
      · intro last hlast
        cases hlast
    exact kept_of_grow hstart h

/-- The markup of trees, joined, is what they are written as together. -/
theorem join_markup (trees : List Tree) :
    String.join (trees.map markup) = String.ofList (writeAll trees) := by
  rw [← String.toList_inj, String.toList_join, String.toList_ofList]
  induction trees with
  | nil => rfl
  | cons tree rest ih =>
    rw [List.map_cons, List.flatMap_cons, ih, markup, String.toList_ofList, writeAll]

/-- Parsing the markup of writable trees, one after the other, gives their normal form. What parsing
gives is always writable and in normal form, so that its markup parses to itself. -/
theorem parse_markup :
    (∀ trees : List Tree, (∀ tree ∈ trees, tree.Writable) →
      parse (String.join (trees.map markup)) = .ok (normalizeAll trees)) ∧
    ∀ (text : String) (trees : List Tree), parse text = .ok trees →
      (∀ tree ∈ trees, tree.Writable) ∧ normalizeAll trees = trees ∧
        parse (String.join (trees.map markup)) = .ok trees := by
  refine ⟨fun trees hwritable => ?_, fun text trees hparse => ?_⟩
  · rw [join_markup, ← writeAll_normalizeAll]
    exact parse_writeAll (writable_normalizeAll hwritable) (allNormal_normalizeAll trees)
  · obtain ⟨hwritable, hnormal⟩ := kept_of_parse hparse
    refine ⟨hwritable, normalizeAll_of_allNormal hnormal, ?_⟩
    rw [join_markup]
    exact parse_writeAll hwritable hnormal

/-- Two texts that the markup makes one, a void element with a child that it drops, and a paragraph with
a quoted attribute and a comment. -/
def torn : List Tree :=
  [.text "a <", .text " b & c", .element "br" [] [.text "lost"],
    .element "p" [("title", "\"x\" > y")] [.comment "-"]]

/-- The torn trees as they are read back. -/
def mended : List Tree :=
  [.text "a < b & c", .element "br" [] [], .element "p" [("title", "\"x\" > y")] [.comment "-"]]

/-- The torn trees can be written. -/
theorem writable_torn : ∀ tree ∈ torn, tree.Writable := by
  have hbr : IsTag "br" :=
    ⟨⟨'b', ['r'], by decide, by decide⟩, List.all_eq_true.1 (by decide), by decide⟩
  have hp : IsTag "p" :=
    ⟨⟨'p', [], by decide, by decide⟩, List.all_eq_true.1 (by decide), by decide⟩
  have htitle : IsAttributeName "title" :=
    ⟨⟨'t', ['i', 't', 'l', 'e'], by decide, by decide⟩, List.all_eq_true.1 (by decide)⟩
  simp only [torn, List.forall_mem_cons, List.not_mem_nil, false_imp_iff, implies_true, and_true]
  refine ⟨.text _, .text _, .element hbr ?_ ?_ ?_, .element hp ?_ ?_ ?_⟩
  · simp
  · simp
  · simpa using .text "lost"
  · simpa using htitle
  · simp
  · simpa using .comment (by decide)

/-- The torn trees are read back mended, and stay as they are from then on. -/
theorem parse_markup_of_torn : (∀ tree ∈ torn, tree.Writable) ∧
    parse (String.join (torn.map markup)) = .ok mended ∧ (∀ tree ∈ mended, tree.Writable) ∧
    normalizeAll mended = mended ∧ parse (String.join (mended.map markup)) = .ok mended := by
  have hnormal : normalizeAll torn = mended := rfl
  have hread := parse_markup.1 torn writable_torn
  rw [hnormal] at hread
  exact ⟨writable_torn, hread, parse_markup.2 _ mended hread⟩

end DataBinding.Markup
