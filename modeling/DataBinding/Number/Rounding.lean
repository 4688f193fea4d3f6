/-!
# Rounding quotients to the nearest integer

`roundEven` rounds a quotient of naturals to the nearest natural, a tie going to the even
neighbour. It is the one place in the library where a value is rounded: doubles round through it
once, from the exact number.
-/

set_option autoImplicit false

namespace DataBinding

/-- The natural number nearest to `num / den`; a tie goes to the even neighbour. -/
def roundEven (num den : Nat) : Nat :=
  if 2 * (num % den) < den ∨ (2 * (num % den) = den ∧ num / den % 2 = 0) then num / den
  else num / den + 1

/-- A quotient below a bound rounds to at most that bound. -/
theorem roundEven_le_of_div_lt {num den bound : Nat} (h : num / den < bound) :
    roundEven num den ≤ bound := by
  unfold roundEven
  split <;> omega

/-- A whole quotient is kept. -/
theorem roundEven_mul_right (k den : Nat) (h : 0 < den) : roundEven (k * den) den = k := by
  have hmod : k * den % den = 0 := Nat.mul_mod_left k den
  have hdiv : k * den / den = k := Nat.mul_div_cancel k h
  simp [roundEven, hmod, hdiv, h]

end DataBinding
