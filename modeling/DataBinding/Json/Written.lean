import DataBinding.Json.Basic
import DataBinding.Number.Decimal

/-!
# JSON as it is written

`Json.Written` is the tree of a JSON text before any meaning is given to it: repeated members stand
side by side, numbers keep their decimal spelling, and a string that escapes half of a surrogate pair
has no text. `Json.Written.toJson?` gives the document, if the text has one.
-/

set_option autoImplicit false

namespace DataBinding.Json

/-- A number as it is written: a decimal, and whether it has neither a fraction nor an exponent. -/
structure WrittenNumber where
  negative : Bool
  decimal : Decimal
  whole : Bool

/-- A JSON text as a tree. -/
inductive Written where
  | null
  | bool (value : Bool)
  | number (value : WrittenNumber)
  /-- A string; it has no text if an escape stands for half of a surrogate pair. -/
  | string (text : Option String)
  | array (items : List Written)
  | object (members : List (Option String × Written))
  deriving Inhabited

namespace WrittenNumber

/-- The number that is meant: a whole number that fits 64 bits is an integer, save for negative zero,
and every other number is the nearest double, which must be finite. -/
def toNumber? (n : WrittenNumber) : Option JsonNumber :=
  let magnitude := n.decimal.coefficient
  if n.whole && !n.negative && magnitude < Nat.pow 2 64 then some (.int magnitude)
  else if n.whole && n.negative && 0 < magnitude && magnitude ≤ Nat.pow 2 63 then some (.int (-magnitude))
  else match Double.ofDecimal n.negative n.decimal with
    | .finite negative units => some (.double (.finite negative units))
    | _ => none

end WrittenNumber

namespace Written

mutual

/-- The document of a text in which containers nest at most `depth` deep. Of the members of one key
the last one counts, in the place of the first. -/
def toJson? (depth : Nat) : Written → Option Json
  | .null => some .null
  | .bool value => some (.bool value)
  | .number value => value.toNumber?.map .number
  | .string text => text.map .string
  | .array items =>
    if depth = 0 then none else (itemsToJson? (depth - 1) items).map .array
  | .object members =>
    if depth = 0 then none else (membersToJson? (depth - 1) [] members).map .object

/-- The documents of the items of an array. -/
def itemsToJson? (depth : Nat) : List Written → Option (List Json)
  | [] => some []
  | item :: rest => do
    let first ← toJson? depth item
    let others ← itemsToJson? depth rest
    some (first :: others)

/-- The members of an object, added to those that stand before them. -/
def membersToJson? (depth : Nat) (before : List (String × Json)) :
    List (Option String × Written) → Option (List (String × Json))
  | [] => some before
  | (key, value) :: rest => do
    let key ← key
    let value ← toJson? depth value
    membersToJson? depth (Keyed.put key value before) rest

end

end Written

mutual

/-- A document as a text would write it. -/
def toWritten : Json → Written
  | .null => .null
  | .bool value => .bool value
  | .number (.int n) => .number ⟨n < 0, ⟨n.natAbs, 0⟩, true⟩
  | .number (.double (.finite negative magnitude)) =>
    .number ⟨negative, magnitude.shortest .toEven, false⟩
  | .number (.double _) => .null
  | .string text => .string (some text)
  | .array items => .array (itemsToWritten items)
  | .object members => .object (membersToWritten members)

/-- The items of an array as a text would write them. -/
def itemsToWritten : List Json → List Written
  | [] => []
  | item :: rest => toWritten item :: itemsToWritten rest

/-- The members of an object as a text would write them. -/
def membersToWritten : List (String × Json) → List (Option String × Written)
  | [] => []
  | (key, value) :: rest => (some key, toWritten value) :: membersToWritten rest

end

end DataBinding.Json
