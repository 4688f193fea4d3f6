import DataBinding.Handle
import DataBinding.Json.Basic
import DataBinding.Number.Layout

/-!
# Values of the model

A value is a leaf or a handle on an object. Arrays are leaves: their items are plain JSON and are never
observed.
-/

set_option autoImplicit false

namespace DataBinding

/-- A value that a property holds. -/
inductive Value where
  | null
  | bool (value : Bool)
  | number (value : Double)
  | string (text : String)
  | array (id : ArrayId) (items : List Json)
  | object (id : ObjectId)
  deriving Inhabited

namespace Value

/-- The equality that decides whether a write changes anything: leaves compare by value, a NaN equal to
nothing, and arrays and objects by identity. -/
def strictEq : Value → Value → Bool
  | .null, .null => true
  | .bool a, .bool b => a == b
  | .number a, .number b => a.numEq b
  | .string a, .string b => a == b
  | .array a _, .array b _ => a == b
  | .object a, .object b => a == b
  | _, _ => false

/-- The object that a value is a handle on. -/
def object? : Value → Option ObjectId
  | .object id => some id
  | _ => none

/-- The text of a string. -/
def string? : Value → Option String
  | .string text => some text
  | _ => none

/-- The number that a value is. -/
def number? : Value → Option Double
  | .number value => some value
  | _ => none

/-- How numbers are shown: positionally from `1e-6` to below `1e21`, both zeros as `0`. Of two equally near
decimals the one farther from zero is written. -/
def layout : Layout where
  tie := .awayFromZero
  lowest := -6
  highest := 20
  pointZero := false
  plus := true
  signedZero := false
  nan := "NaN"
  infinity := "Infinity"

end Value

end DataBinding
