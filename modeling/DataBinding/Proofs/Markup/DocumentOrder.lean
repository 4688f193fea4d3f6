import Mathlib.Data.List.Forall2
import DataBinding.Markup.Selector
import DataBinding.Proofs.Text.Words

/-!
# The first match in document order

Positions are compared like words in a dictionary: a place comes before the places below it, and these come before
the places that follow it, which is the order of a document. `IsFirst` says of what a search has found that it is
the first place where something stands that was asked for, or that nothing was found because it stands nowhere.
A search that goes through places that follow each other, and below each of them before it goes on, is such a search
if the searches below are.
-/

set_option autoImplicit false

namespace DataBinding.Markup

variable {α : Type}

/-- A position comes before another one in document order: it leads to a place above, or leaves the common way
for an earlier place. -/
abbrev Precedes : Position → Position → Prop := List.Lex (· < ·)

/-- A position leads to something that was asked for. -/
def Hits (at? : Position → Option α) (Asked : α → Prop) (position : Position) : Prop :=
  ∃ a, at? position = some a ∧ Asked a

/-- The first of the positions that lead to something asked for; nothing if none does. -/
def IsFirst (at? : Position → Option α) (Asked : α → Prop) : Option Position → Prop
  | some position => Hits at? Asked position ∧ ∀ earlier, Precedes earlier position → ¬ Hits at? Asked earlier
  | none => ∀ position, ¬ Hits at? Asked position

/-- What a position leads to from places that follow each other, if `below` leads on from each of them. -/
def among (below : α → Position → Option α) (items : List α) : Position → Option α
  | [] => none
  | index :: rest => items[index]?.bind (below · rest)

/-- A position that starts later among the same siblings. -/
def postpone (count : Nat) : Position → Position
  | [] => []
  | index :: rest => (index + count) :: rest

/-- Of two different positions one comes before the other. -/
theorem precedes_trichotomy (position position' : Position) :
    Precedes position position' ∨ position = position' ∨ Precedes position' position := by
  induction position generalizing position' with
  | nil =>
    cases position' with
    | nil => exact .inr (.inl rfl)
    | cons index' rest' => exact .inl .nil
  | cons index rest ih =>
    cases position' with
    | nil => exact .inr (.inr .nil)
    | cons index' rest' =>
      rcases Nat.lt_trichotomy index index' with hlt | rfl | hlt
      · exact .inl (.rel hlt)
      · rcases ih rest' with hbefore | rfl | hafter
        · exact .inl (.cons hbefore)
        · exact .inr (.inl rfl)
        · exact .inr (.inr (.cons hafter))
      · exact .inr (.inr (.rel hlt))

/-- Starting later twice is starting later by both counts. -/
theorem postpone_postpone (count more : Nat) (position : Position) :
    postpone count (postpone more position) = postpone (count + more) position := by
  cases position with
  | nil => rfl
  | cons index rest => simp only [postpone, Nat.add_assoc, Nat.add_comm more]

/-- Starting no later leaves a position as it is. -/
theorem map_postpone_zero (found : Option Position) : found.map (postpone 0) = found := by
  cases found with
  | none => rfl
  | some position => cases position <;> rfl

/-- Behind a first item, a position that starts one later leads where it led without that item. -/
theorem among_postpone (below : α → Position → Option α) (item : α) (items : List α) (position : Position) :
    among below (item :: items) (postpone 1 position) = among below items position := by
  cases position <;> rfl

section

variable {β : Type} {at? : Position → Option α} {at?' : Position → Option β} {below : α → Position → Option α}
  {below' : β → Position → Option β} {Asked : α → Prop} {Asked' : β → Prop} {item : α} {items rest : List α}
  {position : Position} {found found' : Option Position}

/-- No item is meant by the empty position, so nothing is asked for there. -/
theorem not_hits_among_nil : ¬ Hits (among below items) Asked [] := by
  rintro ⟨a, hat, -⟩
  cases hat

/-- Positions lead to the same from places that correspond, if they do below each of them. -/
theorem hits_among_congr {items' : List β} (h : List.Forall₂ (fun a b => ∀ position,
    Hits (below a) Asked position ↔ Hits (below' b) Asked' position) items items') (position : Position) :
    Hits (among below items) Asked position ↔ Hits (among below' items') Asked' position := by
  cases position with
  | nil => exact iff_of_false not_hits_among_nil not_hits_among_nil
  | cons index position =>
    induction h generalizing index with
    | nil => exact iff_of_false (fun ⟨_, hat, _⟩ => nomatch hat) fun ⟨_, hat, _⟩ => nomatch hat
    | cons hfirst _ ih =>
      cases index with
      | zero => exact hfirst position
      | succ index => exact ih index

namespace IsFirst

/-- There is only one first match. -/
theorem unique (h : IsFirst at? Asked found) (h' : IsFirst at? Asked found') : found = found' := by
  cases found with
  | none =>
    cases found' with
    | none => rfl
    | some position => exact absurd h'.1 (h position)
  | some position =>
    cases found' with
    | none => exact absurd h.1 (h' position)
    | some position' =>
      rcases precedes_trichotomy position position' with hbefore | rfl | hafter
      · exact absurd h.1 (h'.2 position hbefore)
      · rfl
      · exact absurd h'.1 (h.2 position' hafter)

/-- The first position is that of any other search in which the same positions hit. -/
theorem congr (hhits : ∀ position, Hits at? Asked position ↔ Hits at?' Asked' position)
    (h : IsFirst at? Asked found) : IsFirst at?' Asked' found := by
  cases found with
  | none => exact fun position hhit' => h position ((hhits position).2 hhit')
  | some position =>
    exact ⟨(hhits position).1 h.1, fun earlier hbefore hhit' => h.2 earlier hbefore ((hhits earlier).2 hhit')⟩

/-- Among no items, nothing is first. -/
theorem nowhere : IsFirst (among below []) Asked none := by
  rintro (_ | ⟨index, position⟩) ⟨a, hat, -⟩ <;> cases hat

/-- What is found below the first place is found before anything that follows. -/
theorem here (h : IsFirst (below item) Asked (some position)) :
    IsFirst (among below (item :: rest)) Asked (some (0 :: position)) := by
  refine ⟨h.1, fun earlier hbefore => ?_⟩
  cases hbefore with
  | nil => exact not_hits_among_nil
  | cons hbefore => exact h.2 _ hbefore
  | rel hlt => exact absurd hlt (Nat.not_lt_zero _)

/-- What is nowhere below the first place is found where it is found in what follows. -/
theorem elsewhere (hnone : IsFirst (below item) Asked none) (h : IsFirst (among below rest) Asked found) :
    IsFirst (among below (item :: rest)) Asked (found.map (postpone 1)) := by
  cases found with
  | none =>
    intro position
    match position with
    | [] => exact not_hits_among_nil
    | 0 :: position => exact hnone position
    | (index + 1) :: position => exact h (index :: position)
  | some position =>
    obtain ⟨hhere, hfirst⟩ := h
    cases position with
    | nil => exact absurd hhere not_hits_among_nil
    | cons index position =>
      refine ⟨hhere, fun earlier hbefore => ?_⟩
      cases hbefore with
      | nil => exact not_hits_among_nil
      | cons hbefore => exact hfirst _ (.cons hbefore)
      | @rel earlierIndex earlier _ _ hlt =>
        cases earlierIndex with
        | zero => exact hnone earlier
        | succ earlierIndex => exact hfirst _ (.rel (Nat.lt_of_succ_lt_succ hlt))

/-- What is asked for at a place itself is found there. -/
theorem self (hself : at? [] = some item) (hasked : Asked item) : IsFirst at? Asked (some []) :=
  ⟨⟨item, hself, hasked⟩, fun _ hbefore => nomatch hbefore⟩

/-- What is not asked for at a place itself is found where it is found below it. -/
theorem inside (hself : at? [] = some item)
    (hbelow : ∀ index position, at? (index :: position) = among below items (index :: position))
    (hnot : ¬ Asked item) (h : IsFirst (among below items) Asked found) : IsFirst at? Asked found := by
  refine h.congr fun position => ?_
  cases position with
  | nil =>
    refine iff_of_false not_hits_among_nil fun ⟨a, hat, hasked⟩ => hnot ?_
    rw [hself] at hat
    rwa [Option.some.inj hat]
  | cons index position =>
    unfold Hits
    rw [hbelow]

/-- A search below a place finds the same from the place. -/
theorem bind_inside (hbelow : ∀ index position, at? (index :: position) = among below items (index :: position))
    (h : IsFirst (among below items) Asked found) : found.bind at? = found.bind (among below items) := by
  cases found with
  | none => rfl
  | some position =>
    cases position with
    | nil => exact absurd h.1 not_hits_among_nil
    | cons index position => exact hbelow index position

end IsFirst

end

/-! ## Trees -/

/-- A selector asks for elements with this tag and these attributes: with `#` for those whose id is what follows it,
with `.` for those whose class has what follows it as one of its words, and else for those whose tag it is, in
whatever case the letters A to Z are. -/
inductive Asks (text tag : String) (attributes : List (String × String)) : Prop where
  | id {name : String} : text.toList = '#' :: name.toList → Keyed.get? "id" attributes = some name →
      Asks text tag attributes
  | word {name classes : String} : text.toList = '.' :: name.toList → Keyed.get? "class" attributes = some classes →
      IsWord name.toList classes.toList → Asks text tag attributes
  | tag : (∀ name, text.toList ≠ '#' :: name) → (∀ name, text.toList ≠ '.' :: name) →
      lowercase tag = lowercase text → Asks text tag attributes

/-- A selector accepts exactly the elements that it asks for. -/
theorem accepts_iff_asks {text tag : String} {attributes : List (String × String)} :
    (Selector.parse text).accepts tag attributes = true ↔ Asks text tag attributes := by
  unfold Selector.parse
  split
  · next name hstart =>
    rw [Selector.accepts, beq_iff_eq]
    constructor
    · exact .id (by rw [hstart, String.toList_ofList])
    · rintro (⟨htext, hid⟩ | ⟨htext, -, -⟩ | ⟨hhash, -, -⟩)
      · obtain rfl := (List.cons.inj (hstart.symm.trans htext)).2
        rw [hid, String.ofList_toList]
      · cases hstart.symm.trans htext
      · exact absurd hstart (hhash name)
  · next name hstart =>
    rw [Selector.accepts]
    constructor
    · intro haccepted
      split at haccepted
      · next classes hclasses =>
        have hword := mem_words_iff.1 (List.contains_iff_mem.1 haccepted)
        exact .word (by rw [hstart, String.toList_ofList]) hclasses hword
      · cases haccepted
    · rintro (⟨htext, -⟩ | ⟨htext, hclasses, hword⟩ | ⟨-, hdot, -⟩)
      · cases hstart.symm.trans htext
      · obtain rfl := (List.cons.inj (hstart.symm.trans htext)).2
        rw [hclasses, String.ofList_toList]
        exact List.contains_iff_mem.2 (mem_words_iff.2 hword)
      · exact absurd hstart (hdot name)
  · next hhash hdot =>
    rw [Selector.accepts, beq_iff_eq]
    constructor
    · exact .tag hhash hdot
    · rintro (⟨htext, -⟩ | ⟨htext, -, -⟩ | ⟨-, -, htag⟩)
      · exact absurd htext (hhash _)
      · exact absurd htext (hdot _)
      · exact htag

namespace Tree

/-- The children of a tree. -/
def children : Tree → List Tree
  | .element _ _ children => children
  | _ => []

/-- The tree that a position below a tree leads to. -/
def subtree? : Tree → Position → Option Tree
  | tree, [] => some tree
  | tree, index :: rest => tree.children[index]?.bind (subtree? · rest)

/-- A tree is an element that a selector asks for. -/
def IsAsked (text : String) : Tree → Prop
  | .element tag attributes _ => Asks text tag attributes
  | _ => False

end Tree

/-- The tree that a position leads to from trees that follow each other. -/
def treeAt? (trees : List Tree) : Position → Option Tree := among Tree.subtree? trees

mutual

/-- The match that is found at or below a tree is the first one there. -/
theorem isFirst_find? (text : String) : ∀ tree : Tree,
    IsFirst tree.subtree? (Tree.IsAsked text) ((Selector.parse text).find? tree)
  | .text content => by
    have hnot : ¬ Tree.IsAsked text (.text content) := id
    exact .inside rfl (fun _ _ => rfl) hnot .nowhere
  | .comment body => by
    have hnot : ¬ Tree.IsAsked text (.comment body) := id
    exact .inside rfl (fun _ _ => rfl) hnot .nowhere
  | .element tag attributes children => by
    rw [Selector.find?]
    split
    · next haccepted => exact .self rfl (accepts_iff_asks.1 haccepted)
    · next hrefused =>
      have hnot : ¬ Tree.IsAsked text (.element tag attributes children) := fun hasked =>
        hrefused (accepts_iff_asks.2 hasked)
      obtain ⟨found, hfirst, hfound⟩ := isFirst_findAmong? text children 0
      rw [hfound, map_postpone_zero]
      exact .inside rfl (fun _ _ => rfl) hnot hfirst

/-- The match that is found in trees that follow each other is the first one there, with its first index counted
from the one that is given. -/
theorem isFirst_findAmong? (text : String) : ∀ (trees : List Tree) (index : Nat), ∃ found,
    IsFirst (treeAt? trees) (Tree.IsAsked text) found ∧
      (Selector.parse text).findAmong? index trees = found.map (postpone index)
  | [], _ => ⟨none, .nowhere, rfl⟩
  | tree :: rest, index => by
    have hhere := isFirst_find? text tree
    rw [Selector.findAmong?]
    cases hfind : (Selector.parse text).find? tree with
    | some position =>
      rw [hfind] at hhere
      refine ⟨some (0 :: position), hhere.here, ?_⟩
      simp only [Option.map_some, postpone, Nat.zero_add]
    | none =>
      rw [hfind] at hhere
      obtain ⟨found, hfirst, hfound⟩ := isFirst_findAmong? text rest (index + 1)
      refine ⟨found.map (postpone 1), hhere.elsewhere hfirst, ?_⟩
      rw [hfound, Option.map_map]
      exact congrArg (Option.map · found) (funext fun position => (postpone_postpone index 1 position).symm)

end

/-- A query finds the first element in document order that was asked for. -/
theorem isFirst_query (text : String) (trees : List Tree) :
    IsFirst (treeAt? trees) (Tree.IsAsked text) ((Selector.parse text).query trees) := by
  obtain ⟨found, hfirst, hfound⟩ := isFirst_findAmong? text trees 0
  rw [map_postpone_zero] at hfound
  rw [Selector.query, hfound]
  exact hfirst

end DataBinding.Markup
