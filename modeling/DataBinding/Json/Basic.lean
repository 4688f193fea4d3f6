import DataBinding.Keyed
import DataBinding.Number.Double

/-!
# JSON documents

A document is a tree whose objects keep the order of their members. Numbers are integers or doubles,
and the two kinds are never equal, whatever their values.
-/

set_option autoImplicit false

namespace DataBinding

/-- A number of a JSON document. -/
inductive JsonNumber where
  | int (value : Int)
  | double (value : Double)
  deriving DecidableEq, Inhabited

/-- A JSON document. -/
inductive Json where
  | null
  | bool (value : Bool)
  | number (value : JsonNumber)
  | string (text : String)
  | array (items : List Json)
  | object (members : List (String × Json))
  deriving Inhabited

namespace JsonNumber

/-- The double nearest to a number. -/
def toDouble : JsonNumber → Double
  | .int value => .ofInt value
  | .double value => value

/-- Whether two numbers are of one kind and equal as numbers. -/
def same : JsonNumber → JsonNumber → Bool
  | .int a, .int b => a == b
  | .double a, .double b => a.numEq b
  | _, _ => false

/-- Whole doubles of magnitude below `2 ^ 53` are written as integers, all other finite doubles as
doubles. There is no JSON number for a NaN or an infinity. -/
def ofDouble? (d : Double) : Option JsonNumber :=
  match d.toInt? with
  | some n => if n.natAbs < Nat.pow 2 53 then some (.int n) else some (.double d)
  | none => if d.units?.isSome then some (.double d) else none

end JsonNumber

namespace Json

/-- The document of a double: `null` where there is no JSON number. -/
def ofDouble (d : Double) : Json :=
  match JsonNumber.ofDouble? d with
  | some n => .number n
  | none => .null

/-- The member of an object with a key; nothing if the document is not an object. -/
def member? (key : String) : Json → Option Json
  | .object members => Keyed.get? key members
  | _ => none

mutual

/-- Equality of documents. The order of an object's members does not count. -/
def same : Json → Json → Bool
  | .null, .null => true
  | .bool a, .bool b => a == b
  | .number a, .number b => a.same b
  | .string a, .string b => a == b
  | .array a, .array b => sameItems a b
  | .object a, .object b => a.length == b.length && sameMembers a b
  | _, _ => false

/-- Equality of arrays, item by item. -/
def sameItems : List Json → List Json → Bool
  | [], [] => true
  | a :: as, b :: bs => same a b && sameItems as bs
  | _, _ => false

/-- Whether every member on the left has an equal one on the right. -/
def sameMembers : List (String × Json) → List (String × Json) → Bool
  | [], _ => true
  | (key, a) :: as, bs =>
    (match Keyed.get? key bs with
      | some b => same a b
      | none => false) && sameMembers as bs

end

end Json

end DataBinding
