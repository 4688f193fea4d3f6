import DataBinding.Markup.Tree
import DataBinding.Text.Blank

/-!
# Selectors

A selector names elements by their `id`, by one of the words of their `class`, or by their tag. Looking
one up gives the first element in document order that it matches: a parent comes before its children,
and they come before its next sibling.
-/

set_option autoImplicit false

namespace DataBinding.Markup

/-- What a selector asks of an element. -/
inductive Selector where
  | ofId (name : String)
  | ofClass (name : String)
  | ofTag (name : String)
  deriving DecidableEq

/-- The place of a node in a list of trees: the index of its tree, then indexes of children. -/
abbrev Position : Type := List Nat

namespace Selector

/-- Reads a selector: `#` asks for an id, `.` for a class, and anything else is a tag. -/
def parse (text : String) : Selector :=
  match text.toList with
  | '#' :: name => .ofId (String.ofList name)
  | '.' :: name => .ofClass (String.ofList name)
  | _ => .ofTag text

/-- Whether an element with this tag and these attributes is meant. Tags are compared in lower case. -/
def accepts (selector : Selector) (tag : String) (attributes : List (String × String)) : Bool :=
  match selector with
  | .ofId name => Keyed.get? "id" attributes == some name
  | .ofClass name =>
    match Keyed.get? "class" attributes with
    | some classes => (words classes.toList).contains name.toList
    | none => false
  | .ofTag name => lowercase tag == lowercase name

mutual

/-- The first match at or below a tree, as a position in that tree. -/
def find? (selector : Selector) : Tree → Option Position
  | .element tag attributes children =>
    if selector.accepts tag attributes then some [] else findAmong? selector 0 children
  | _ => none

/-- The first match in trees that follow each other, the first of which has the given index. -/
def findAmong? (selector : Selector) (index : Nat) : List Tree → Option Position
  | [] => none
  | tree :: rest =>
    match find? selector tree with
    | some position => some (index :: position)
    | none => findAmong? selector (index + 1) rest

end

/-- The first match in a document. -/
def query (selector : Selector) (trees : List Tree) : Option Position := findAmong? selector 0 trees

end Selector

/-- The position of the first tree that is an element. -/
def firstElement? (trees : List Tree) : Option Position :=
  (trees.findIdx? fun
    | .element _ _ _ => true
    | _ => false).map fun index => [index]

end DataBinding.Markup
