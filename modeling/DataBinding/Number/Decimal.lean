import DataBinding.Number.Double

/-!
# Decimals and the doubles nearest to them

A `Decimal` is a natural coefficient times a power of ten. `Double.ofDecimal` is the double nearest to
it. In the other direction `Magnitude.shortest` is the decimal of the fewest digits that reads back as
a given magnitude and, of those, the nearest to it: it tries grids of 1, 2, … 17 digits, and on each
grid only the two neighbours of the value can read back if any point does. Both neighbours may read back
and be equally near; formats differ in which of the two they take, and a `Tie` says it.
-/

set_option autoImplicit false

namespace DataBinding

/-- The number `coefficient * 10 ^ exponent`. -/
structure Decimal where
  coefficient : Nat
  exponent : Int
  deriving DecidableEq

namespace Decimal

/-- The digits of the coefficient, most significant first. -/
def digits (d : Decimal) : List Char := Nat.toDigits 10 d.coefficient

/-- The power of ten of the first digit. -/
def leading (d : Decimal) : Int := d.exponent + d.digits.length - 1

/-- The same number without zeros at the end of its coefficient. -/
def trim (d : Decimal) : Decimal :=
  if _h : d.coefficient ≠ 0 ∧ d.coefficient % 10 = 0 then
    trim ⟨d.coefficient / 10, d.exponent + 1⟩
  else d
termination_by d.coefficient
decreasing_by omega

/-- A decimal as a quotient of naturals, scaled by `scale`. -/
def quotient (d : Decimal) (scale : Nat) : Nat × Nat :=
  if 0 ≤ d.exponent then (d.coefficient * Nat.pow 10 d.exponent.toNat * scale, 1)
  else (d.coefficient * scale, Nat.pow 10 (-d.exponent).toNat)

end Decimal

namespace Double

/-- The double nearest to a decimal. Numbers of 10 ^ 310 and more are infinite and numbers below
10 ^ (-330) are zero, and are not computed digit by digit. -/
def ofDecimal (negative : Bool) (d : Decimal) : Double :=
  if d.coefficient = 0 then .finite negative .zero
  else if 310 ≤ d.leading then .infinite negative
  else if d.leading ≤ -330 then .finite negative .zero
  else ofRatio negative (d.quotient 1).1 (d.quotient 1).2

end Double

/-- Which of two equally near decimals of a magnitude is taken. -/
inductive Tie where
  /-- The one whose coefficient is even. -/
  | toEven
  /-- The one farther from zero. -/
  | awayFromZero
  deriving DecidableEq, Inhabited

/-- Whether the lesser of two equally near decimals is taken, from its coefficient. -/
def Tie.takesLower (tie : Tie) (coefficient : Nat) : Bool :=
  match tie with
  | .toEven => coefficient % 2 == 0
  | .awayFromZero => false

namespace Magnitude

/-- The power of ten of the first digit of a number of units: `10 ^ 324` units are more than 1, so the
whole part of the scaled value has as many digits as it needs. -/
def leading (units : Nat) : Int := (Nat.toDigits 10 (units * Nat.pow 10 324 / one)).length - 325

/-- The decimal with the given exponent that reads back as `m`. If two do it is the nearer one, and of
two that are equally near the one that `tie` takes. -/
def onGrid? (tie : Tie) (m : Magnitude) (exponent : Int) : Option Decimal :=
  let (num, den) :=
    if 0 ≤ exponent then (m.units, one * Nat.pow 10 exponent.toNat)
    else (m.units * Nat.pow 10 (-exponent).toNat, one)
  let below : Decimal := ⟨num / den, exponent⟩
  let above : Decimal := ⟨num / den + 1, exponent⟩
  let belowPreferred : Bool :=
    2 * (num % den) < den || (2 * (num % den) == den && tie.takesLower below.coefficient)
  let readsBack (d : Decimal) : Bool := Double.ofDecimal false d == .finite false m
  if readsBack below && (!readsBack above || belowPreferred) then some below
  else if readsBack above then some above
  else none

/-- The decimal of the fewest digits that reads back as `m`, and of those the nearest to it. Seventeen
digits always suffice; the exact expansion stands behind them. -/
def shortest (tie : Tie) (m : Magnitude) : Decimal :=
  let first := leading m.units
  let found := (List.range 17).findSome? fun (more : Nat) => m.onGrid? tie (first - more)
  (found.getD ⟨m.units * Nat.pow 5 fractionBits, -fractionBits⟩).trim

end Magnitude

end DataBinding
