import DataBinding.Proofs.Markup.Entities
import DataBinding.Markup.Token
import DataBinding.Markup.Tree
import Mathlib.Data.List.Chain

/-!
# Trees that can be written, and their normal form

Markup cannot hold every tree. A tree is writable if its tags and the names of its attributes can be read
as such, the attributes of an element have different names, and no comment has its own end inside. Of
two writable trees the markup can still be the same: it does not show an empty text, nor where one text
ends and the next one starts, nor what is inside a void element. The normal form has none of these.
-/

set_option autoImplicit false

namespace DataBinding.Markup

/-- A name that an element can be written with, in lower case. -/
structure IsTag (tag : String) : Prop where
  starts : ∃ c rest, tag.toList = c :: rest ∧ isAsciiLetter c = true
  chars : ∀ c ∈ tag.toList, isTagChar c = true
  lower : lowercase tag = tag

/-- A name that an attribute can be written with. -/
structure IsAttributeName (name : String) : Prop where
  starts : ∃ c rest, name.toList = c :: rest ∧ isBlank c = false
  chars : ∀ c ∈ name.toList, isNameChar c = true

namespace Tree

/-- A tree that markup can spell: tags and attributes have names that are read as such, no attribute is there twice,
and no comment ends early. -/
inductive Writable : Tree → Prop where
  | text (content : String) : Writable (.text content)
  | comment {body : String} (hbody : ¬ "-->".toList <:+: body.toList) : Writable (.comment body)
  | element {tag : String} {attributes : List (String × String)} {children : List Tree}
      (htag : IsTag tag) (hnames : ∀ entry ∈ attributes, IsAttributeName entry.1)
      (hdistinct : (attributes.map Prod.fst).Nodup) (hchildren : ∀ child ∈ children, Writable child) :
      Writable (.element tag attributes children)

/-- Whether a tree is a text. -/
def isText : Tree → Bool
  | .text _ => true
  | _ => false

/-- Whether two trees may follow each other: they are not both texts. -/
def Apart (first second : Tree) : Prop := first.isText = false ∨ second.isText = false

/-- A tree as it is read back: no text is empty, no two texts follow each other, and void elements have no
children. -/
inductive Normal : Tree → Prop where
  | text {content : String} (hcontent : content ≠ "") : Normal (.text content)
  | comment (body : String) : Normal (.comment body)
  | element {tag : String} {attributes : List (String × String)} {children : List Tree}
      (hvoid : isVoid tag = true → children = []) (hchildren : ∀ child ∈ children, Normal child)
      (hapart : children.IsChain Apart) : Normal (.element tag attributes children)

/-- Trees in normal form, no two texts next to each other. -/
structure AllNormal (trees : List Tree) : Prop where
  each : ∀ tree ∈ trees, tree.Normal
  apart : trees.IsChain Apart

/-- Puts a tree before others. An empty text is left out, and a text becomes one with a text that
follows it. -/
def prepend : Tree → List Tree → List Tree
  | .text content, .text following :: rest => .text (content ++ following) :: rest
  | .text content, rest => if content = "" then rest else .text content :: rest
  | tree, rest => tree :: rest

mutual

/-- A tree without empty texts, with texts that follow each other made one, and with nothing inside void
elements. -/
def normalize : Tree → Tree
  | .text content => .text content
  | .comment body => .comment body
  | .element tag attributes children =>
    .element tag attributes (if isVoid tag then [] else normalizeAll children)

/-- The same for trees that follow each other. -/
def normalizeAll : List Tree → List Tree
  | [] => []
  | tree :: rest => prepend (normalize tree) (normalizeAll rest)

end

/-! ## Putting a tree before others -/

/-- A text in front of no other text is put there unless it is empty. -/
theorem prepend_text {content : String} {rest : List Tree}
    (h : ∀ next ∈ rest.head?, next.isText = false) :
    prepend (.text content) rest = if content = "" then rest else .text content :: rest := by
  cases rest with
  | nil => rfl
  | cons first others =>
    cases first with
    | text following => cases h _ rfl
    | comment body => rfl
    | element tag attributes children => rfl

/-- A tree is put before others as it is, or it is an empty text, or it becomes one with a text. -/
theorem prepend_cases (tree : Tree) (rest : List Tree) :
    (prepend tree rest = tree :: rest ∧ tree ≠ .text "" ∧ ∀ next ∈ rest.head?, Apart tree next) ∨
      (tree = .text "" ∧ prepend tree rest = rest) ∨
      ∃ content following others, tree = .text content ∧ rest = .text following :: others ∧
        prepend tree rest = .text (content ++ following) :: others := by
  cases tree with
  | comment body => exact .inl ⟨rfl, by simp, fun _ _ => .inl rfl⟩
  | element tag attributes children => exact .inl ⟨rfl, by simp, fun _ _ => .inl rfl⟩
  | text content =>
    by_cases hnext : ∀ next ∈ rest.head?, next.isText = false
    · rw [prepend_text hnext]
      by_cases hempty : content = ""
      · rw [if_pos hempty, hempty]
        exact .inr (.inl ⟨rfl, rfl⟩)
      · rw [if_neg hempty]
        exact .inl ⟨rfl, by simpa using hempty, fun next hmem => .inr (hnext next hmem)⟩
    · obtain ⟨following, others, rfl⟩ : ∃ following others, rest = .text following :: others := by
        cases rest with
        | nil => exact absurd (by simp) hnext
        | cons first others =>
          cases first with
          | text following => exact ⟨following, others, rfl⟩
          | comment body => exact absurd (by simp [isText]) hnext
          | element tag attributes children => exact absurd (by simp [isText]) hnext
      exact .inr (.inr ⟨content, following, others, rfl, rfl, rfl⟩)

/-- Putting a tree before others does not change the markup that they are written with. -/
theorem writeAll_prepend (tree : Tree) (rest : List Tree) :
    writeAll (prepend tree rest) = tree.write ++ writeAll rest := by
  rcases prepend_cases tree rest with ⟨h, -⟩ | ⟨rfl, h⟩ | ⟨content, following, others, rfl, rfl, h⟩
  · rw [h, writeAll]
  · rw [h, write, String.toList_empty]
    rfl
  · rw [h]
    simp only [writeAll, write, String.toList_append, escape_append, List.append_assoc]

/-- Trees stay writable when one is put before others. -/
theorem writable_prepend {tree : Tree} {rest : List Tree} (htree : tree.Writable)
    (hrest : ∀ other ∈ rest, other.Writable) : ∀ other ∈ prepend tree rest, other.Writable := by
  rcases prepend_cases tree rest with ⟨h, -⟩ | ⟨rfl, h⟩ | ⟨content, following, others, rfl, rfl, h⟩
  · rw [h]
    exact List.forall_mem_cons.2 ⟨htree, hrest⟩
  · rw [h]
    exact hrest
  · rw [h]
    exact List.forall_mem_cons.2 ⟨.text _, (List.forall_mem_cons.1 hrest).2⟩

/-- Trees are in normal form if the first of them is, the rest are, and the first two are not both texts. -/
theorem allNormal_cons {tree : Tree} {rest : List Tree} :
    AllNormal (tree :: rest) ↔
      tree.Normal ∧ (∀ next ∈ rest.head?, Apart tree next) ∧ AllNormal rest := by
  constructor
  · intro h
    obtain ⟨hfirst, hothers⟩ := List.forall_mem_cons.1 h.each
    obtain ⟨hnext, hapart⟩ := List.isChain_cons.1 h.apart
    exact ⟨hfirst, hnext, hothers, hapart⟩
  · intro h
    obtain ⟨hfirst, hnext, hothers⟩ := h
    exact ⟨List.forall_mem_cons.2 ⟨hfirst, hothers.each⟩, List.isChain_cons.2 ⟨hnext, hothers.apart⟩⟩

/-- A text that ends with something is not empty. -/
theorem append_ne_empty {content following : String} (h : following ≠ "") :
    content ++ following ≠ "" := by
  intro hempty
  have hlists : content.toList ++ following.toList = [] := by
    rw [← String.toList_append, hempty, String.toList_empty]
  apply h
  rw [← String.toList_inj, (List.append_eq_nil_iff.1 hlists).2, String.toList_empty]

/-- Putting a tree before others keeps the normal form, since it joins texts and leaves out empty ones. -/
theorem allNormal_prepend {tree : Tree} {rest : List Tree} (htree : tree.isText = true ∨ tree.Normal)
    (hrest : AllNormal rest) : AllNormal (prepend tree rest) := by
  rcases prepend_cases tree rest with ⟨h, hne, hnext⟩ | ⟨rfl, h⟩ |
    ⟨content, following, others, rfl, rfl, h⟩
  · rw [h]
    refine allNormal_cons.2 ⟨?_, hnext, hrest⟩
    rcases htree with htext | hnormal
    · cases tree with
      | text content => exact .text fun hempty => hne (congrArg Tree.text hempty)
      | comment body => cases htext
      | element tag attributes children => cases htext
    · exact hnormal
  · rw [h]
    exact hrest
  · rw [h]
    obtain ⟨hfollowing, hnext, hothers⟩ := allNormal_cons.1 hrest
    refine allNormal_cons.2 ⟨?_, hnext, hothers⟩
    cases hfollowing with
    | text hne => exact .text (append_ne_empty hne)

/-- Where the result is in normal form, putting a tree before others joins nothing. -/
theorem prepend_of_allNormal {tree : Tree} {rest : List Tree} (h : AllNormal (tree :: rest)) :
    prepend tree rest = tree :: rest := by
  obtain ⟨hfirst, hnext, -⟩ := allNormal_cons.1 h
  rcases prepend_cases tree rest with ⟨h, -⟩ | ⟨rfl, h⟩ | ⟨content, following, others, rfl, rfl, h⟩
  · exact h
  · cases hfirst with
    | text hne => exact absurd rfl hne
  · rcases hnext _ rfl with h | h <;> cases h

/-! ## The normal form -/

mutual

/-- A tree and its normal form are written in the same way. -/
theorem write_normalize : ∀ tree : Tree, (normalize tree).write = tree.write
  | .text _ => rfl
  | .comment _ => rfl
  | .element tag attributes children => by
    unfold normalize write
    by_cases hvoid : isVoid tag = true
    · rw [if_pos hvoid, if_pos hvoid]
    · rw [if_neg hvoid, if_neg hvoid, if_neg hvoid, writeAll_normalizeAll children]

/-- Trees and their normal form have the same markup. -/
theorem writeAll_normalizeAll : ∀ trees : List Tree, writeAll (normalizeAll trees) = writeAll trees
  | [] => rfl
  | tree :: rest => by
    rw [normalizeAll, writeAll_prepend, write_normalize tree, writeAll_normalizeAll rest, writeAll]

end

mutual

/-- The normal form of a tree can be written if the tree can. -/
theorem writable_normalize : ∀ {tree : Tree}, tree.Writable → (normalize tree).Writable
  | .text _, h => h
  | .comment _, h => h
  | .element tag _ children, .element htag hnames hdistinct hchildren => by
    unfold normalize
    refine .element htag hnames hdistinct ?_
    by_cases hvoid : isVoid tag = true
    · rw [if_pos hvoid]
      exact fun _ hmem => absurd hmem List.not_mem_nil
    · rw [if_neg hvoid]
      exact writable_normalizeAll hchildren

/-- The normal forms of some trees can be written if the trees can. -/
theorem writable_normalizeAll : ∀ {trees : List Tree}, (∀ tree ∈ trees, tree.Writable) →
    ∀ tree ∈ normalizeAll trees, tree.Writable
  | [], h => h
  | tree :: rest, h => by
    obtain ⟨hfirst, hrest⟩ := List.forall_mem_cons.1 h
    exact writable_prepend (writable_normalize hfirst) (writable_normalizeAll hrest)

end

mutual

/-- The normal form of a tree is in normal form, up to a text that may be empty. -/
theorem normal_normalize : ∀ tree : Tree, (normalize tree).isText = true ∨ (normalize tree).Normal
  | .text _ => .inl rfl
  | .comment body => .inr (.comment body)
  | .element tag _ children => by
    refine .inr ?_
    unfold normalize
    by_cases hvoid : isVoid tag = true
    · rw [if_pos hvoid]
      exact .element (fun _ => rfl) (fun _ hmem => absurd hmem List.not_mem_nil) .nil
    · rw [if_neg hvoid]
      obtain ⟨heach, hapart⟩ := allNormal_normalizeAll children
      exact .element (fun h => absurd h hvoid) heach hapart

/-- The normal forms of some trees, put before each other, are in normal form. -/
theorem allNormal_normalizeAll : ∀ trees : List Tree, AllNormal (normalizeAll trees)
  | [] => ⟨fun _ hmem => absurd hmem List.not_mem_nil, .nil⟩
  | tree :: rest => allNormal_prepend (normal_normalize tree) (allNormal_normalizeAll rest)

end

mutual

/-- A tree in normal form is its own normal form. -/
theorem normalize_of_normal : ∀ {tree : Tree}, tree.Normal → normalize tree = tree
  | .text _, _ => rfl
  | .comment _, _ => rfl
  | .element tag _ children, .element hvoid hchildren hapart => by
    unfold normalize
    by_cases h : isVoid tag = true
    · rw [if_pos h, hvoid h]
    · rw [if_neg h, normalizeAll_of_allNormal ⟨hchildren, hapart⟩]

/-- Trees in normal form are their own normal form. -/
theorem normalizeAll_of_allNormal : ∀ {trees : List Tree}, AllNormal trees → normalizeAll trees = trees
  | [], _ => rfl
  | tree :: rest, h => by
    obtain ⟨hfirst, -, hrest⟩ := allNormal_cons.1 h
    rw [normalizeAll, normalize_of_normal hfirst, normalizeAll_of_allNormal hrest,
      prepend_of_allNormal h]

end

end Tree

end DataBinding.Markup
