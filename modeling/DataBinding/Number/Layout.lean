import DataBinding.Number.Decimal

/-!
# Laying out the digits of a number

Which digits a double has is settled by `Magnitude.shortest`, save for ties; how they are written
differs from format to format. A `Layout` is the whole of one format's decisions, and `Layout.write`
carries them out.
-/

set_option autoImplicit false

namespace DataBinding

/-- How a format writes doubles. -/
structure Layout where
  /-- Which of two equally near decimals is written. -/
  tie : Tie
  /-- The least power of ten of the first digit that is written positionally. -/
  lowest : Int
  /-- The greatest power of ten of the first digit that is written positionally. -/
  highest : Int
  /-- Whether whole numbers written positionally end in `.0`. -/
  pointZero : Bool
  /-- Whether a positive exponent carries a plus sign. -/
  plus : Bool
  /-- Whether negative zero carries its sign. -/
  signedZero : Bool
  nan : String
  infinity : String

namespace Layout

/-- Digits written positionally, the first of them at the given power of ten. -/
def positional (layout : Layout) (digits : List Char) (first : Int) : List Char :=
  let whole := (first + 1).toNat
  if first < 0 then '0' :: '.' :: (List.replicate (-first - 1).toNat '0' ++ digits)
  else if digits.length ≤ whole then
    digits ++ List.replicate (whole - digits.length) '0'
      ++ (if layout.pointZero then ['.', '0'] else [])
  else digits.take whole ++ '.' :: digits.drop whole

/-- Digits written with one digit before the point and a power of ten. -/
def scientific (layout : Layout) (digits : List Char) (first : Int) : List Char :=
  let mantissa := match digits with
    | d :: e :: rest => d :: '.' :: e :: rest
    | short => short
  let sign := if first < 0 then ['-'] else if layout.plus then ['+'] else []
  mantissa ++ 'e' :: (sign ++ Nat.toDigits 10 first.natAbs)

/-- The digits of a nonzero decimal, positionally or with an exponent. -/
def writeDecimal (layout : Layout) (d : Decimal) : List Char :=
  if layout.lowest ≤ d.leading ∧ d.leading ≤ layout.highest then
    layout.positional d.digits d.leading
  else layout.scientific d.digits d.leading

/-- The text of a double. -/
def write (layout : Layout) : Double → List Char
  | .nan => layout.nan.toList
  | .infinite negative => (if negative then ['-'] else []) ++ layout.infinity.toList
  | .finite negative magnitude =>
    if magnitude.units = 0 then
      (if negative && layout.signedZero then ['-'] else []) ++ layout.positional ['0'] 0
    else (if negative then ['-'] else []) ++ layout.writeDecimal (magnitude.shortest layout.tie)

end Layout

end DataBinding
