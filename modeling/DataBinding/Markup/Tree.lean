import DataBinding.Keyed
import DataBinding.Markup.Entity

/-!
# Trees of markup

A tree is a run of text, a comment, or an element with a tag, attributes and children. `Tree.ofTag` is
how elements are made: tags are in lower case, and an attribute that is set twice keeps its place and
takes the later value.
-/

set_option autoImplicit false

namespace DataBinding.Markup

/-- A tree of markup. -/
inductive Tree where
  | text (content : String)
  | comment (body : String)
  | element (tag : String) (attributes : List (String × String)) (children : List Tree)
  deriving Inhabited

/-- A text with the letters A to Z in lower case. -/
def lowercase (text : String) : String := String.ofList (text.toList.map Char.toLower)

/-- The elements that have no children and no closing tag. -/
def voidTags : List String := ["input", "br", "img", "hr", "meta", "link"]

/-- Whether elements with this tag have no children and no closing tag. -/
def isVoid (tag : String) : Bool := voidTags.contains tag

/-- Attributes set one after the other. -/
def collectAttributes (attributes : List (String × String)) : List (String × String) :=
  attributes.foldl (fun before (name, value) => Keyed.put name value before) []

namespace Tree

/-- An element. -/
def ofTag (tag : String) (attributes : List (String × String)) (children : List Tree) : Tree :=
  .element (lowercase tag) (collectAttributes attributes) children

mutual

/-- The text in a tree. Comments have none. -/
def content : Tree → List Char
  | .text content => content.toList
  | .comment _ => []
  | .element _ _ children => contents children

/-- The text in trees that follow each other. -/
def contents : List Tree → List Char
  | [] => []
  | tree :: rest => content tree ++ contents rest

end

/-- The markup of one attribute, with the blank before it. -/
def writeAttribute (entry : String × String) : List Char :=
  ' ' :: (entry.1.toList ++ '=' :: '"' :: (escape entry.2.toList ++ ['"']))

/-- The opening tag of an element. -/
def writeOpening (tag : String) (attributes : List (String × String)) : List Char :=
  '<' :: (tag.toList ++ (attributes.flatMap writeAttribute ++ ['>']))

/-- The closing tag of an element. -/
def writeClosing (tag : String) : List Char := '<' :: '/' :: (tag.toList ++ ['>'])

mutual

/-- The markup of a tree. -/
def write : Tree → List Char
  | .text content => escape content.toList
  | .comment body => "<!--".toList ++ body.toList ++ "-->".toList
  | .element tag attributes children =>
    writeOpening tag attributes ++
      (if isVoid tag then [] else writeAll children ++ writeClosing tag)

/-- The markup of trees that follow each other. -/
def writeAll : List Tree → List Char
  | [] => []
  | tree :: rest => write tree ++ writeAll rest

end

/-- The markup of a tree, as a string. -/
def markup (tree : Tree) : String := String.ofList tree.write

end Tree

end DataBinding.Markup
