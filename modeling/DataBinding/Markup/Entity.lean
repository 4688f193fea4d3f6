import DataBinding.Text.Search

/-!
# Entities

The five entities that markup knows. Four characters are written as entities, the apostrophe is not but
may be read from one. Reading replaces the entities one kind after the other, the ampersand last, so
that what an ampersand entity gives back never takes part in another entity.
-/

set_option autoImplicit false

namespace DataBinding.Markup

/-- The text that a character is written as. -/
def escapeChar : Char → List Char
  | '<' => "&lt;".toList
  | '>' => "&gt;".toList
  | '&' => "&amp;".toList
  | '"' => "&quot;".toList
  | c => [c]

/-- A text with its special characters written as entities. -/
def escape (text : List Char) : List Char := text.flatMap escapeChar

/-- The entities and what they stand for, in the order in which they are replaced. -/
def entities : List (List Char × Char) :=
  [("&lt;".toList, '<'), ("&gt;".toList, '>'), ("&quot;".toList, '"'), ("&#39;".toList, '\''),
    ("&amp;".toList, '&')]

/-- A text with its entities replaced by the characters that they stand for. -/
def unescape (text : List Char) : List Char :=
  entities.foldl (fun text (entity, c) => replaceAll entity [c] text) text

end DataBinding.Markup
