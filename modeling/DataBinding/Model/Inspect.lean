import DataBinding.Json.Printer
import DataBinding.Model.Snapshot
import DataBinding.Text.Printable

/-!
# Inspecting values

The inspected form of a value shows its kind along with its content, for a person who looks into a
model: `Number(1.0)`, `String("a")`, `Array([Number(1), Null])`. Characters that cannot be told by sight
are written as escapes.
-/

set_option autoImplicit false

namespace DataBinding

namespace Inspect

/-- How doubles are inspected: positionally from `1e-4` up to `1e16`, whole ones with `.0`. Of two equally
near decimals the one farther from zero is written. -/
def layout : Layout where
  tie := .awayFromZero
  lowest := -4
  highest := 15
  pointZero := true
  plus := false
  signedZero := true
  nan := "NaN"
  infinity := "inf"

/-- A character inside an inspected text. -/
def escapeChar (c : Char) : List Char :=
  if c = '"' then ['\\', '"']
  else if c = '\\' then ['\\', '\\']
  else if c = '\x00' then ['\\', '0']
  else if c = '\t' then ['\\', 't']
  else if c = '\n' then ['\\', 'n']
  else if c = '\r' then ['\\', 'r']
  else if isPrintable c then [c]
  else ['\\', 'u', '\x7b'] ++ Nat.toDigits 16 c.toNat ++ ['\x7d']

/-- An inspected text, between quotes. -/
def quote (text : String) : List Char := '"' :: (text.toList.flatMap escapeChar ++ ['"'])

/-- Inspected texts with a comma and a blank between them. -/
def listed : List (List Char) → List Char
  | [] => []
  | [text] => text
  | text :: next :: rest => text ++ ',' :: ' ' :: listed (next :: rest)

/-- A kind, with its content in parentheses. -/
def tagged (kind : String) (content : List Char) : List Char := kind.toList ++ '(' :: content ++ [')']

/-- A truth value. -/
def bool (value : Bool) : List Char := if value then "true".toList else "false".toList

mutual

/-- An inspected document. -/
def json : Json → List Char
  | .null => "Null".toList
  | .bool value => tagged "Bool" (bool value)
  | .number value => tagged "Number" (Json.writeNumber value)
  | .string text => tagged "String" (quote text)
  | .array items => "Array [".toList ++ listed (jsonItems items) ++ [']']
  | .object members => "Object \x7b".toList ++ listed (jsonMembers members) ++ ['\x7d']

/-- The inspected items of an array. -/
def jsonItems : List Json → List (List Char)
  | [] => []
  | item :: rest => json item :: jsonItems rest

/-- The inspected members of an object. -/
def jsonMembers : List (String × Json) → List (List Char)
  | [] => []
  | (key, value) :: rest => (quote key ++ ':' :: ' ' :: json value) :: jsonMembers rest

end

end Inspect

namespace Model

/-- The inspected form of a value whose objects nest at most `depth` deep. -/
def inspectWithin? (m : Model) : Nat → Value → Option (List Char)
  | _, .null => some "Null".toList
  | _, .bool value => some (Inspect.tagged "Bool" (Inspect.bool value))
  | _, .number value => some (Inspect.tagged "Number" (Inspect.layout.write value))
  | _, .string text => some (Inspect.tagged "String" (Inspect.quote text))
  | _, .array _ items =>
    some (Inspect.tagged "Array" ('[' :: Inspect.listed (Inspect.jsonItems items) ++ [']']))
  | 0, .object _ => none
  | depth + 1, .object id =>
    ((m.entries id).mapM fun (entry : String × Value) =>
      (m.inspectWithin? depth entry.2).map fun text =>
        Inspect.quote entry.1 ++ ':' :: ' ' :: text).map fun texts =>
          '\x7b' :: (Inspect.listed texts ++ ['\x7d'])

/-- The inspected form of a value. -/
def inspect? (m : Model) (value : Value) : Option (List Char) := m.inspectWithin? m.depth value

end Model

end DataBinding
