/-!
# Blank characters

The characters with the `White_Space` property, and the two ways in which they divide text: `trim`
takes them off both ends, and `words` are the runs between them.
-/

set_option autoImplicit false

namespace DataBinding

/-- Whether a character has the `White_Space` property. -/
def isBlank (c : Char) : Bool :=
  ('\t' ≤ c && c ≤ '\r') || c == ' ' || c == '\u0085' || c == '\u00a0' || c == '\u1680'
    || ('\u2000' ≤ c && c ≤ '\u200a') || c == '\u2028' || c == '\u2029' || c == '\u202f'
    || c == '\u205f' || c == '\u3000'

/-- The text without the blanks at its end. -/
def trimEnd (text : List Char) : List Char := (text.reverse.dropWhile isBlank).reverse

/-- The text without the blanks at its start and its end. -/
def trim (text : List Char) : List Char := trimEnd (text.dropWhile isBlank)

/-- The pieces of a text between the characters that separate it, empty ones included. There is always
one more piece than there are separators. -/
def pieces (separates : Char → Bool) : List Char → List (List Char)
  | [] => [[]]
  | c :: rest =>
    if separates c then [] :: pieces separates rest
    else match pieces separates rest with
      | [] => [[c]]
      | first :: others => (c :: first) :: others

/-- The runs of characters between blanks. -/
def words (text : List Char) : List (List Char) := (pieces isBlank text).filter (!·.isEmpty)

end DataBinding
