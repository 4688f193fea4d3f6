import DataBinding.Proofs.Keyed
import DataBinding.Proofs.Markup.Tokens

/-!
# Tokens and trees

A tree has its tokens, and building takes the tokens of trees back to the trees. In the other direction,
whatever is built from tokens that can be read has a shape that can be written and is in normal form.
The second statement needs an invariant: the trees that are complete so far have it in every element that
is open, and the token after a text is not a text.
-/

set_option autoImplicit false

namespace DataBinding

namespace Markup

open DataBinding.Markup.Tree

/-! ## Attributes -/

/-- Attributes with distinct names are put behind each other as they come. -/
theorem foldl_put_of_nodup {before attributes : List (String × String)}
    (h : ((before ++ attributes).map Prod.fst).Nodup) :
    attributes.foldl (fun before (name, value) => Keyed.put name value before) before =
      before ++ attributes := by
  induction attributes generalizing before with
  | nil => simp
  | cons entry attributes ih =>
    obtain ⟨name, value⟩ := entry
    have hfresh : name ∉ before.map Prod.fst := by
      intro hmem
      rw [List.map_append, List.nodup_append] at h
      exact h.2.2 name hmem name (by simp) rfl
    have happend : before ++ (name, value) :: attributes = before ++ [(name, value)] ++ attributes := by
      simp
    simp only [List.foldl_cons]
    rw [Keyed.put_of_not_mem hfresh, happend]
    apply ih
    rw [← happend]
    exact h

/-- However often attributes are given, each name is kept once. -/
theorem nodup_foldl_put (attributes : List (String × String)) {before : List (String × String)}
    (h : (before.map Prod.fst).Nodup) :
    ((attributes.foldl (fun before (name, value) => Keyed.put name value before)
      before).map Prod.fst).Nodup := by
  induction attributes generalizing before with
  | nil => exact h
  | cons entry attributes ih => exact ih (Keyed.nodup_put h entry.1 entry.2)

/-- The names that are kept are among those that were given. -/
theorem mem_foldl_put {attributes before : List (String × String)} {name : String}
    (h : name ∈ (attributes.foldl (fun before (name, value) => Keyed.put name value before)
      before).map Prod.fst) : name ∈ before.map Prod.fst ∨ name ∈ attributes.map Prod.fst := by
  induction attributes generalizing before with
  | nil => exact .inl h
  | cons entry attributes ih =>
    rcases ih h with hmem | hmem
    · rcases Keyed.mem_put hmem with heq | hmem
      · exact .inr (by simp [heq])
      · exact .inl hmem
    · exact .inr (List.mem_cons_of_mem _ hmem)

/-- Attributes with different names are read back as they were written. -/
theorem readAttributes_written {attributes : List (String × String)}
    (h : (attributes.map Prod.fst).Nodup) :
    readAttributes (attributes.map writtenAttribute) = attributes := by
  have hread : ∀ read : List Char × List Char → String × String,
      (∀ entry, read (writtenAttribute entry) = entry) →
      (attributes.map writtenAttribute).map read = attributes := by
    intro read hback
    have hid : read ∘ writtenAttribute = id := funext hback
    rw [List.map_map, hid, List.map_id]
  rw [readAttributes, hread _ fun entry => by simp [writtenAttribute, unescape_escape],
    collectAttributes, foldl_put_of_nodup (by simpa using h), List.nil_append]

/-- The attributes of an element have distinct names. -/
theorem nodup_readAttributes (attributes : List (List Char × List Char)) :
    ((readAttributes attributes).map Prod.fst).Nodup :=
  nodup_foldl_put _ List.nodup_nil

/-- The attributes of an element have the names that were read. -/
theorem isAttributeName_readAttributes {attributes : List (List Char × List Char)}
    (h : ∀ entry ∈ attributes, IsAttributeName (String.ofList entry.1)) :
    ∀ entry ∈ readAttributes attributes, IsAttributeName entry.1 := by
  intro entry hentry
  rcases mem_foldl_put (List.mem_map_of_mem hentry) with hmem | hmem
  · cases hmem
  · rw [List.map_map] at hmem
    obtain ⟨source, hsource, hname⟩ := List.mem_map.1 hmem
    rw [← hname]
    exact h source hsource

/-! ## The tokens of trees -/

mutual

/-- The tokens that a tree is written with. -/
def Tree.tokens : Tree → List Token
  | .text content => [.text (escape content.toList)]
  | .comment body => [.comment body.toList]
  | .element tag attributes children =>
    .opening tag.toList (attributes.map writtenAttribute) false ::
      (if isVoid tag then [] else Tree.allTokens children ++ [.closing tag.toList])

/-- The tokens of trees that follow each other. -/
def Tree.allTokens : List Tree → List Token
  | [] => []
  | tree :: rest => tree.tokens ++ Tree.allTokens rest

end

/-- A written opening tag opens its element, unless that is void and complete already. -/
theorem grow_opening {tag : String} {attributes : List (String × String)} (htag : IsTag tag)
    (hdistinct : (attributes.map Prod.fst).Nodup) (offset : Nat) (rest : List Placed)
    (stack : List OpenElement) (before : List Tree) :
    grow (⟨offset, .opening tag.toList (attributes.map writtenAttribute) false⟩ :: rest) stack before =
      if isVoid tag then grow rest stack (.element tag attributes [] :: before)
      else grow rest (⟨tag, attributes, offset, before⟩ :: stack) [] := by
  rw [grow]
  simp only [String.ofList_toList, htag.lower, readAttributes_written hdistinct, Bool.false_or]

/-- A written closing tag completes the element that it belongs to. -/
theorem grow_closing (inner : OpenElement) (htag : IsTag inner.tag) (offset : Nat) (rest : List Placed)
    (outer : List OpenElement) (before : List Tree) :
    grow (⟨offset, .closing inner.tag.toList⟩ :: rest) (inner :: outer) before =
      grow rest outer (.element inner.tag inner.attributes before.reverse :: inner.siblings) := by
  rw [grow]
  simp only [String.ofList_toList, htag.lower, if_true]

mutual

/-- The tokens of a tree that can be written build that tree, before whatever stands there. The induction is
on the tree, together with the one on its children. -/
theorem grow_tokens : ∀ {tree : Tree}, tree.Writable → tree.Normal → ∀ {placed : List Placed},
    placed.map Placed.token = tree.tokens → ∀ more stack before,
    grow (placed ++ more) stack before = grow more stack (tree :: before)
  | .text content, _, _, placed, hplaced, more, stack, before => by
    obtain ⟨first, rest, rfl, hfirst, hrest⟩ := List.map_eq_cons_iff.1 hplaced
    obtain rfl := List.map_eq_nil_iff.1 hrest
    obtain ⟨offset, token⟩ := first
    cases hfirst
    rw [List.cons_append, List.nil_append, grow]
    simp only [unescape_escape, String.ofList_toList]
  | .comment body, _, _, placed, hplaced, more, stack, before => by
    obtain ⟨first, rest, rfl, hfirst, hrest⟩ := List.map_eq_cons_iff.1 hplaced
    obtain rfl := List.map_eq_nil_iff.1 hrest
    obtain ⟨offset, token⟩ := first
    cases hfirst
    rw [List.cons_append, List.nil_append, grow]
    simp only [String.ofList_toList]
  | .element tag attributes children, .element htag _ hdistinct hchildren,
      .element hvoid hnormal hapart, placed, hplaced, more, stack, before => by
    obtain ⟨first, inside, rfl, hfirst, hinside⟩ := List.map_eq_cons_iff.1 hplaced
    obtain ⟨offset, token⟩ := first
    cases hfirst
    rw [List.cons_append, grow_opening htag hdistinct]
    -- A void element has no closing tag, and nothing between the tags.
    by_cases h : isVoid tag = true
    · rw [if_pos h] at hinside ⊢
      obtain rfl := List.map_eq_nil_iff.1 hinside
      rw [hvoid h, List.nil_append]
    · rw [if_neg h] at hinside ⊢
      obtain ⟨within, last, rfl, hwithin, hlast⟩ := List.map_eq_append_iff.1 hinside
      obtain ⟨closing, rest, rfl, hclosing, hrest⟩ := List.map_eq_cons_iff.1 hlast
      obtain rfl := List.map_eq_nil_iff.1 hrest
      obtain ⟨offset', token⟩ := closing
      cases hclosing
      rw [List.append_assoc, grow_allTokens hchildren ⟨hnormal, hapart⟩ hwithin, List.append_nil]
      have hclose := grow_closing ⟨tag, attributes, offset, before⟩ htag offset' more stack
        children.reverse
      rw [List.reverse_reverse] at hclose
      exact hclose

/-- Building from the tokens of trees adds the trees, in the element that is open. -/
theorem grow_allTokens : ∀ {trees : List Tree}, (∀ tree ∈ trees, tree.Writable) → AllNormal trees →
    ∀ {placed : List Placed}, placed.map Placed.token = Tree.allTokens trees →
    ∀ more stack before,
    grow (placed ++ more) stack before = grow more stack (trees.reverse ++ before)
  | [], _, _, placed, hplaced, more, stack, before => by
    obtain rfl := List.map_eq_nil_iff.1 hplaced
    rfl
  | tree :: rest, hwritable, hnormal, placed, hplaced, more, stack, before => by
    obtain ⟨hfirst, hothers⟩ := List.forall_mem_cons.1 hwritable
    obtain ⟨hfirst', -, hothers'⟩ := allNormal_cons.1 hnormal
    obtain ⟨first, others, rfl, hplaced, hplaced'⟩ := List.map_eq_append_iff.1 hplaced
    rw [List.append_assoc, grow_tokens hfirst hfirst' hplaced, grow_allTokens hothers hothers' hplaced',
      List.reverse_cons, List.append_assoc, List.singleton_append]

end

/-! ## Trees from tokens that can be read -/

/-- It does not matter which of two trees comes first. -/
theorem Tree.Apart.symm {first second : Tree} (h : Apart first second) : Apart second first :=
  Or.symm h

/-- Trees stay in normal form in the other order. -/
theorem Tree.allNormal_reverse {trees : List Tree} (h : AllNormal trees) : AllNormal trees.reverse := by
  refine ⟨fun tree hmem => h.each tree (List.mem_reverse.1 hmem), ?_⟩
  rw [List.isChain_reverse]
  exact h.apart.imp fun _ _ => Apart.symm

/-- Trees that can be written and are in normal form. -/
structure Kept (trees : List Tree) : Prop where
  writable : ∀ tree ∈ trees, tree.Writable
  normal : AllNormal trees

/-- No trees at all can be written and are in normal form. -/
theorem Kept.nil : Kept [] :=
  ⟨fun _ hmem => absurd hmem List.not_mem_nil, fun _ hmem => absurd hmem List.not_mem_nil, .nil⟩

/-- Trees that are kept in the order of building are kept in the order of the document. -/
theorem Kept.reverse {trees : List Tree} (h : Kept trees) : Kept trees.reverse :=
  ⟨fun tree hmem => h.writable tree (List.mem_reverse.1 hmem), allNormal_reverse h.normal⟩

/-- A tree may be put before others if it is in normal form and does not make two texts stand together. -/
theorem Kept.cons {tree : Tree} {rest : List Tree} (h : Kept rest) (hwritable : tree.Writable)
    (hnormal : tree.Normal) (hapart : ∀ next ∈ rest.head?, Apart tree next) : Kept (tree :: rest) :=
  ⟨List.forall_mem_cons.2 ⟨hwritable, h.writable⟩, allNormal_cons.2 ⟨hnormal, hapart, h.normal⟩⟩

/-- An element that can be open, with what stands before it in the element around it. -/
structure OpenElement.Sound (element : OpenElement) : Prop where
  isTag : IsTag element.tag
  notVoid : isVoid element.tag = false
  names : ∀ entry ∈ element.attributes, IsAttributeName entry.1
  distinct : (element.attributes.map Prod.fst).Nodup
  siblings : Kept element.siblings

/-- Where building is: tokens that can be read are left, what is complete so far can be written and is in
normal form, and a text is not followed by another one. -/
structure Growing (placed : List Placed) (stack : List OpenElement) (before : List Tree) : Prop where
  sounds : ∀ entry ∈ placed, entry.token.Sound
  chain : (placed.map Placed.token).IsChain Token.Apart
  opened : ∀ element ∈ stack, element.Sound
  kept : Kept before
  next : ∀ last ∈ before.head?, last.isText = true → ∀ entry ∈ placed.head?, entry.token.isText = false

variable {first : Placed} {rest : List Placed} {stack stack' : List OpenElement}
  {before before' : List Tree}

/-- One token further: the tree that is last now is a text only if the token was. -/
theorem Growing.advance (h : Growing (first :: rest) stack before)
    (hstack : ∀ element ∈ stack', element.Sound) (hbefore : Kept before')
    (htext : ∀ last ∈ before'.head?, last.isText = true → first.token.isText = true) :
    Growing rest stack' before' := by
  obtain ⟨-, hsounds⟩ := List.forall_mem_cons.1 h.sounds
  obtain ⟨hfollows, hchain⟩ := List.isChain_cons.1 h.chain
  refine ⟨hsounds, hchain, hstack, hbefore, fun last hlast hisText entry hentry => ?_⟩
  have hmem : entry.token ∈ (rest.map Placed.token).head? := by
    rw [List.head?_map, Option.mem_def.1 hentry]
    rfl
  exact (hfollows _ hmem).resolve_left (by simp [htext last hlast hisText])

/-- Building goes on after a tree that is no text: whatever follows may follow it. -/
theorem Growing.advance_cons (h : Growing (first :: rest) stack before)
    (hstack : ∀ element ∈ stack', element.Sound) {tree : Tree} (hbefore : Kept before')
    (hwritable : tree.Writable) (hnormal : tree.Normal) (hnot : tree.isText = false) :
    Growing rest stack' (tree :: before') := by
  apply h.advance hstack (hbefore.cons hwritable hnormal fun _ _ => .inl hnot)
  intro last hlast htext
  rw [← Option.some.inj hlast, hnot] at htext
  cases htext

/-- A comment is put before what is there. -/
theorem Growing.comment {offset : Nat} {body : List Char}
    (h : Growing (⟨offset, .comment body⟩ :: rest) stack before) :
    Growing rest stack (.comment (String.ofList body) :: before) := by
  have hlist : (String.ofList body).toList = body := String.toList_ofList
  apply h.advance_cons h.opened h.kept (.comment ?_) (.comment _) rfl
  rw [hlist]
  cases h.sounds _ List.mem_cons_self with
  | comment hbody => exact hbody

/-- A text is put before what is there, and no text follows it. -/
theorem Growing.text {offset : Nat} {content : List Char}
    (h : Growing (⟨offset, .text content⟩ :: rest) stack before) :
    Growing rest stack (.text (String.ofList (unescape content)) :: before) := by
  have hne : String.ofList (unescape content) ≠ "" := by
    intro hempty
    rw [← String.toList_inj, String.toList_ofList] at hempty
    cases h.sounds _ List.mem_cons_self with
    | text hcontent => exact unescape_ne_nil hcontent hempty
  refine h.advance h.opened (h.kept.cons (.text _) (.text hne) fun last hlast => ?_) fun _ _ _ => rfl
  by_cases htext : last.isText = true
  · exact absurd (h.next last hlast htext _ rfl) (by simp [Token.isText])
  · exact .inr (by simpa using htext)

/-- A closing tag puts the complete element before its siblings. -/
theorem Growing.closing {offset : Nat} {name : List Char} {inner : OpenElement}
    (h : Growing (⟨offset, .closing name⟩ :: rest) (inner :: stack) before) :
    Growing rest stack (.element inner.tag inner.attributes before.reverse :: inner.siblings) := by
  obtain ⟨hinner, houter⟩ := List.forall_mem_cons.1 h.opened
  have hinside := h.kept.reverse
  apply h.advance_cons houter hinner.siblings
  · exact .element hinner.isTag hinner.names hinner.distinct hinside.writable
  · refine .element (fun hvoid => ?_) hinside.normal.each hinside.normal.apart
    rw [hinner.notVoid] at hvoid
    cases hvoid
  · rfl

/-- An opening tag either makes an element without children or opens one. -/
theorem Growing.opening {offset : Nat} {name : List Char} {attributes : List (List Char × List Char)}
    {selfClosing : Bool}
    (h : Growing (⟨offset, .opening name attributes selfClosing⟩ :: rest) stack before) :
    Growing rest stack
        (.element (lowercase (String.ofList name)) (readAttributes attributes) [] :: before) ∧
      (isVoid (lowercase (String.ofList name)) = false →
        Growing rest (⟨lowercase (String.ofList name), readAttributes attributes, offset, before⟩ :: stack)
          []) := by
  have hdistinct := nodup_readAttributes attributes
  cases h.sounds _ List.mem_cons_self with
  | opening hname hattributes =>
    have hnames := isAttributeName_readAttributes hattributes
    constructor
    · apply h.advance_cons h.opened h.kept
      · exact .element hname hnames hdistinct Kept.nil.writable
      · exact .element (fun _ => rfl) Kept.nil.normal.each Kept.nil.normal.apart
      · rfl
    · intro hvoid
      have hinner : OpenElement.Sound
          ⟨lowercase (String.ofList name), readAttributes attributes, offset, before⟩ :=
        ⟨hname, hvoid, hnames, hdistinct, h.kept⟩
      refine h.advance (List.forall_mem_cons.2 ⟨hinner, h.opened⟩) Kept.nil fun last hlast => ?_
      cases hlast

/-- What is built from tokens that can be read can be written and is in normal form. -/
theorem kept_of_grow {placed : List Placed} {trees : List Tree} (hstart : Growing placed stack before)
    (h : grow placed stack before = .ok trees) : Kept trees := by
  induction placed generalizing stack before with
  | nil =>
    cases stack with
    | nil =>
      cases h
      exact hstart.kept.reverse
    | cons inner outer => cases h
  | cons first rest ih =>
    obtain ⟨offset, token⟩ := first
    cases token with
    | comment body => exact ih hstart.comment h
    | text content => exact ih hstart.text h
    | closing name =>
      cases stack with
      | nil => cases h
      | cons inner outer =>
        rw [grow] at h
        split at h
        · exact ih hstart.closing h
        · cases h
    | opening name attributes selfClosing =>
      rw [grow] at h
      split at h
      · exact ih hstart.opening.1 h
      · next hopen =>
        simp only [Bool.or_eq_true, not_or, Bool.not_eq_true] at hopen
        exact ih (hstart.opening.2 hopen.2) h

end Markup

end DataBinding
