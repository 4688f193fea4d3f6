import DataBinding.Json.Basic
import DataBinding.Number.Layout

/-!
# Writing JSON

The compact text of a document: no white space, members in their order, doubles with the fewest
digits that read back.
-/

set_option autoImplicit false

namespace DataBinding.Json

/-- How doubles are written in JSON: positionally from `1e-5` up to `1e16`, whole ones with `.0`, all
others with a signed exponent. Of two equally near decimals the even one is written. There is no text for
a NaN or an infinity, and `null` stands for them. -/
def layout : Layout where
  tie := .toEven
  lowest := -5
  highest := 15
  pointZero := true
  plus := true
  signedZero := true
  nan := "null"
  infinity := "null"

/-- A digit below 16 as a hexadecimal digit in lower case. -/
def hexChar (n : Nat) : Char := Nat.digitChar n

/-- A character inside a string: the quote, the backslash and the control characters are escaped, and
nothing else is. -/
def escapeChar (c : Char) : List Char :=
  if c = '"' then ['\\', '"']
  else if c = '\\' then ['\\', '\\']
  else if c = '\x08' then ['\\', 'b']
  else if c = '\x0c' then ['\\', 'f']
  else if c = '\n' then ['\\', 'n']
  else if c = '\r' then ['\\', 'r']
  else if c = '\t' then ['\\', 't']
  else if c < ' ' then ['\\', 'u', '0', '0', hexChar (c.toNat / 16), hexChar (c.toNat % 16)]
  else [c]

/-- A string between quotes. -/
def quote (text : String) : List Char := '"' :: (text.toList.flatMap escapeChar ++ ['"'])

/-- The text of a number. -/
def writeNumber : JsonNumber → List Char
  | .int n => (if n < 0 then ['-'] else []) ++ Nat.toDigits 10 n.natAbs
  | .double d =>
    match d with
    | .finite _ _ => layout.write d
    | _ => "null".toList

mutual

/-- The compact text of a document. -/
def write : Json → List Char
  | .null => "null".toList
  | .bool true => "true".toList
  | .bool false => "false".toList
  | .number n => writeNumber n
  | .string text => quote text
  | .array items => '[' :: (writeItems items ++ [']'])
  | .object members => '{' :: (writeMembers members ++ ['}'])

/-- Items with commas between them. -/
def writeItems : List Json → List Char
  | [] => []
  | [item] => write item
  | item :: next :: rest => write item ++ ',' :: writeItems (next :: rest)

/-- Members with commas between them. -/
def writeMembers : List (String × Json) → List Char
  | [] => []
  | [(key, value)] => quote key ++ ':' :: write value
  | (key, value) :: next :: rest => quote key ++ ':' :: (write value ++ ',' :: writeMembers (next :: rest))

end

/-- The compact text of a document, as a string. -/
def compact (j : Json) : String := String.ofList j.write

end DataBinding.Json
