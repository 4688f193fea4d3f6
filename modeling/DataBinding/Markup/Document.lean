import DataBinding.Error
import DataBinding.Markup.Lexer
import DataBinding.Markup.Tree

/-!
# Documents

A document is a list of trees. It is read in two steps: the text is split into tokens, and then the
nesting of the tags is checked. A closing tag closes the innermost element that is open; elements that
close themselves and void elements are never open. Errors name the byte at which the offending tag
starts, or the byte at which the text stops being a sequence of tokens.
-/

set_option autoImplicit false

namespace DataBinding.Markup

/-- A token and the byte offset at which it starts. -/
structure Placed where
  offset : Nat
  token : Token

/-- The number of bytes that a text takes. -/
def byteLength (text : List Char) : Nat := text.foldl (fun bytes c => bytes + c.utf8Size) 0

/-- The tokens of a text with their offsets, the first of them at the given one. -/
def place (offset : Nat) : List Lexeme → List Placed
  | [] => []
  | lexeme :: rest => ⟨offset, lexeme.token⟩ :: place (offset + byteLength lexeme.source) rest

/-- An element whose closing tag is still to come, and the siblings before it, latest first. -/
structure OpenElement where
  tag : String
  attributes : List (String × String)
  offset : Nat
  siblings : List Tree

/-- The attributes of a token, with their entities replaced. -/
def readAttributes (attributes : List (List Char × List Char)) : List (String × String) :=
  collectAttributes (attributes.map fun (name, value) =>
    (String.ofList name, String.ofList (unescape value)))

/-- Builds the trees of the tokens that are left. The elements that are open are given innermost first,
and the trees that stand before the next token in the same element latest first. -/
def grow : List Placed → List OpenElement → List Tree → Except Error (List Tree)
  | [], [], before => .ok before.reverse
  | [], inner :: _, _ => .error (.markup inner.offset (.unclosed inner.tag))
  | ⟨offset, token⟩ :: rest, stack, before =>
    match token with
    | .comment body => grow rest stack (.comment (String.ofList body) :: before)
    | .text content => grow rest stack (.text (String.ofList (unescape content)) :: before)
    | .closing name =>
      let name := lowercase (String.ofList name)
      match stack with
      | [] => .error (.markup offset (.unexpected name))
      | inner :: outer =>
        if inner.tag = name then
          grow rest outer (.element inner.tag inner.attributes before.reverse :: inner.siblings)
        else .error (.markup offset (.mismatched inner.tag name))
    | .opening name attributes selfClosing =>
      let tag := lowercase (String.ofList name)
      let attributes := readAttributes attributes
      if selfClosing || isVoid tag then grow rest stack (.element tag attributes [] :: before)
      else grow rest (⟨tag, attributes, offset, before⟩ :: stack) []

/-- The trees of a list of tokens. -/
def build (tokens : List Placed) : Except Error (List Tree) := grow tokens [] []

/-- The trees of a markup text. -/
def parse (text : String) : Except Error (List Tree) :=
  match lex text.toList with
  | .error stop => .error (.markup (byteLength text.toList - byteLength stop) .malformed)
  | .ok lexemes => build (place 0 lexemes)

end DataBinding.Markup
