import DataBinding.Number.Rounding

/-!
# Double-precision numbers

A double is a NaN, an infinity, or a sign with a magnitude. A magnitude is an exact whole number of
units of `2 ^ (-1074)`, the least positive double, that lies on the grid of doubles: below `2 ^ 53`
every number of units is on it, and from there on the spacing doubles with each further binary digit.
The grid condition is part of the type, so that two finite doubles are equal exactly if they have the
same sign and the same magnitude.

Every operation computes its exact result and rounds once, by `Double.ofRatio`.
-/

set_option autoImplicit false

namespace DataBinding

namespace Magnitude

/-- The distance between neighbouring doubles at a number of units. -/
def spacing (units : Nat) : Nat := Nat.pow 2 (units.log2 - 52)

/-- The number of binary digits below 1 that a double can have. -/
def fractionBits : Nat := 1074

/-- The number of binary digits above and below 1 together. -/
def totalBits : Nat := 2098

/-- The first number of units that is beyond every finite double. -/
def limit : Nat := Nat.pow 2 totalBits

/-- The number of units in 1. -/
def one : Nat := Nat.pow 2 fractionBits

/-- A number of units that some finite double has. -/
def OnGrid (units : Nat) : Prop := units < limit ∧ spacing units ∣ units

instance (units : Nat) : Decidable (OnGrid units) := inferInstanceAs (Decidable (_ ∧ _))

end Magnitude

/-- The magnitude of a finite double, in units of `2 ^ (-1074)`. -/
structure Magnitude where
  units : Nat
  onGrid : Magnitude.OnGrid units
  deriving DecidableEq

namespace Magnitude

/-- The magnitudes that are finite are bounded by a positive number of units. -/
theorem limit_pos : 0 < limit := by
  unfold limit
  generalize totalBits = k
  exact Nat.two_pow_pos k

/-- The magnitude of both zeros. -/
def zero : Magnitude := ⟨0, limit_pos, Nat.dvd_zero _⟩

instance : Inhabited Magnitude := ⟨zero⟩

/-- A number up to `2 ^ 53` times a power of two lies on the grid of doubles. -/
theorem onGrid_mul_pow {k e : Nat} (hk : k ≤ Nat.pow 2 53) (h : k * Nat.pow 2 e < limit) :
    OnGrid (k * Nat.pow 2 e) := by
  refine ⟨h, ?_⟩
  unfold spacing
  simp only [Nat.pow_eq] at hk ⊢
  by_cases hk53 : k = 2 ^ 53
  · subst hk53
    rw [← Nat.pow_add, Nat.log2_two_pow]
    exact Nat.pow_dvd_pow 2 (by omega)
  · by_cases hk0 : k = 0
    · subst hk0; simp
    · have hlt : k < 2 ^ 53 := by omega
      have hne : k * 2 ^ e ≠ 0 := Nat.mul_ne_zero hk0 (by simp)
      have hlog : (k * 2 ^ e).log2 < 53 + e := by
        rw [Nat.log2_lt hne, Nat.pow_add]
        exact Nat.mul_lt_mul_of_pos_right hlt (Nat.two_pow_pos e)
      exact Nat.dvd_trans (Nat.pow_dvd_pow 2 (by omega)) (Nat.dvd_mul_left _ _)

/-- The magnitude nearest to `num / den` units, a tie going to the even neighbour; none if it is
beyond the finite doubles. -/
def ofUnits? (num den : Nat) : Option Magnitude :=
  let shift := (num / den).log2 - 52
  let rounded := roundEven num (den * Nat.pow 2 shift)
  if h : rounded * Nat.pow 2 shift < limit then
    some ⟨rounded * Nat.pow 2 shift, onGrid_mul_pow (by
      apply roundEven_le_of_div_lt
      rw [← Nat.div_div_eq_div_mul]
      apply Nat.div_lt_of_lt_mul
      rw [Nat.pow_eq, Nat.pow_eq, ← Nat.pow_add]
      by_cases hq : num / den = 0
      · rw [hq]; exact Nat.two_pow_pos _
      · exact (Nat.log2_lt hq).1 (by omega)) h⟩
  else none

end Magnitude

/-- A double-precision number. -/
inductive Double where
  | nan
  | infinite (negative : Bool)
  | finite (negative : Bool) (magnitude : Magnitude)
  deriving DecidableEq

namespace Double

/-- Positive zero. -/
def zero : Double := .finite false .zero

instance : Inhabited Double := ⟨zero⟩

/-- The double nearest to `num / den`, with the given sign: infinite beyond the largest double. -/
def ofRatio (negative : Bool) (num den : Nat) : Double :=
  (Magnitude.ofUnits? (num * Magnitude.one) den).elim (.infinite negative) (.finite negative)

/-- The double nearest to an integer. -/
def ofInt (n : Int) : Double := ofRatio (n < 0) n.natAbs 1

/-- A finite double as a whole number of units. -/
def units? : Double → Option Int
  | .finite negative magnitude => some (if negative then -magnitude.units else magnitude.units)
  | _ => none

/-- The double nearest to a whole number of units. A zero takes the sign asked for. -/
def ofUnits (negativeZero : Bool) (units : Int) : Double :=
  if units = 0 then .finite negativeZero .zero else ofRatio (units < 0) units.natAbs Magnitude.one

/-- The integer that a double is, if it is finite and whole. -/
def toInt? (d : Double) : Option Int :=
  d.units?.bind fun units =>
    if units % Magnitude.one = 0 then some (units / Magnitude.one) else none

/-- Numeric equality: a NaN equals nothing, and the two zeros are equal. -/
def numEq : Double → Double → Bool
  | .nan, _ => false
  | _, .nan => false
  | .finite s m, .finite t n => m.units == n.units && (s == t || m.units == 0)
  | .infinite s, .infinite t => s == t
  | _, _ => false

/-- Numeric order: false if either side is a NaN. -/
def numLt : Double → Double → Bool
  | .nan, _ => false
  | _, .nan => false
  | .infinite s, .infinite t => s && !t
  | .infinite s, .finite _ _ => s
  | .finite _ _, .infinite t => !t
  | a@(.finite _ _), b@(.finite _ _) => a.units?.getD 0 < b.units?.getD 0

/-- The sum, rounded to the nearest double. -/
def add : Double → Double → Double
  | .nan, _ => .nan
  | _, .nan => .nan
  | .infinite s, .infinite t => if s = t then .infinite s else .nan
  | .infinite s, .finite _ _ => .infinite s
  | .finite _ _, .infinite t => .infinite t
  | a@(.finite s _), b@(.finite t _) => ofUnits (s && t) (a.units?.getD 0 + b.units?.getD 0)

instance : Add Double := ⟨add⟩

/-- The lesser of two numbers; of a number and a NaN, the number. -/
def min (a b : Double) : Double :=
  if a = .nan then b else if b = .nan then a else if b.numLt a then b else a

end Double

end DataBinding
