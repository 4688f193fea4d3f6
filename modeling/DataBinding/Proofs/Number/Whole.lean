import DataBinding.Json.Basic

/-!
# Whole numbers as doubles

Whole numbers of magnitude below `2 ^ 53` are doubles, and no rounding takes place: `toInt?_ofInt` reads such
a number back. So a number that was written to a document keeps its form when it is read and written again,
and numbers that are equal as doubles are written in the same way.
-/

set_option autoImplicit false

namespace DataBinding

namespace Magnitude

/-- Whole numbers below `2 ^ 53` are below the limit of finite doubles. -/
theorem whole_lt_limit {k : Nat} (hk : k < Nat.pow 2 53) : k * one < limit := by
  have hbits : 53 + fractionBits ≤ totalBits := by decide
  unfold one limit
  generalize fractionBits = bits at hbits ⊢
  generalize totalBits = total at hbits ⊢
  simp only [Nat.pow_eq] at hk ⊢
  calc k * 2 ^ bits < 2 ^ 53 * 2 ^ bits := Nat.mul_lt_mul_of_pos_right hk (Nat.two_pow_pos bits)
    _ = 2 ^ (53 + bits) := (Nat.pow_add 2 53 bits).symm
    _ ≤ 2 ^ total := Nat.pow_le_pow_right Nat.zero_lt_two hbits

/-- Whole numbers below `2 ^ 53` lie on the grid of doubles. -/
theorem onGrid_whole {k : Nat} (hk : k < Nat.pow 2 53) : OnGrid (k * one) := by
  have hlimit := whole_lt_limit hk
  unfold one at hlimit ⊢
  exact onGrid_mul_pow (Nat.le_of_lt hk) hlimit

/-- The number one is a positive number of units. -/
theorem one_pos : 0 < one := by
  unfold one
  generalize fractionBits = bits
  exact Nat.two_pow_pos bits

/-- A whole number below `2 ^ 53` as a magnitude. -/
def whole (k : Nat) (hk : k < Nat.pow 2 53) : Magnitude :=
  ⟨k * one, onGrid_whole hk⟩

/-- The units of an integer are that many ones. -/
theorem units_whole {k : Nat} (hk : k < Nat.pow 2 53) : (whole k hk).units = k * one := rfl

/-- The least digits of a whole number below `2 ^ 53` are not below those that a double has. -/
theorem shift_le {k : Nat} (hk : k < Nat.pow 2 53) : (k * one).log2 - 52 ≤ fractionBits := by
  unfold one
  generalize fractionBits = bits
  simp only [Nat.pow_eq] at hk ⊢
  by_cases hzero : k = 0
  · simp [hzero]
  · have hne : k * 2 ^ bits ≠ 0 := Nat.mul_ne_zero hzero (Nat.ne_of_gt (Nat.two_pow_pos bits))
    have hlog : (k * 2 ^ bits).log2 < 53 + bits := by
      rw [Nat.log2_lt hne, Nat.pow_add]
      exact Nat.mul_lt_mul_of_pos_right hk (Nat.two_pow_pos bits)
    omega

/-- It is the magnitude nearest to itself. -/
theorem ofUnits?_whole {k : Nat} (hk : k < Nat.pow 2 53) :
    ofUnits? (k * one) 1 = some (whole k hk) := by
  have hround : roundEven (k * one) (1 * Nat.pow 2 ((k * one / 1).log2 - 52)) *
      Nat.pow 2 ((k * one / 1).log2 - 52) = k * one := by
    rw [Nat.div_one, Nat.one_mul]
    obtain ⟨e, he⟩ := Nat.exists_eq_add_of_le (shift_le hk)
    generalize (k * one).log2 - 52 = shift at he ⊢
    have hsplit : k * one = k * Nat.pow 2 e * Nat.pow 2 shift := by
      unfold one
      rw [he]
      simp only [Nat.pow_eq]
      rw [Nat.pow_add, Nat.mul_assoc, Nat.mul_comm (2 ^ e)]
    rw [hsplit, roundEven_mul_right (k * Nat.pow 2 e) (Nat.pow 2 shift) (Nat.two_pow_pos shift)]
  unfold ofUnits?
  have hlimit := whole_lt_limit hk
  rw [← hround] at hlimit
  simp only [dif_pos hlimit]
  refine congrArg some ?_
  unfold whole
  simp only [hround]

end Magnitude

namespace Double

/-- A fraction whose rounded magnitude is finite becomes that magnitude with its sign. -/
theorem ofRatio_some {negative : Bool} {num den : Nat} {magnitude : Magnitude}
    (h : Magnitude.ofUnits? (num * Magnitude.one) den = some magnitude) :
    ofRatio negative num den = .finite negative magnitude := by
  unfold ofRatio
  rw [h, Option.elim_some]

/-- An integer below `2 ^ 53` in size becomes a double without rounding. -/
theorem ofInt_eq {n : Int} (hn : n.natAbs < Nat.pow 2 53) :
    ofInt n = .finite (n < 0) (Magnitude.whole n.natAbs hn) :=
  ofRatio_some (Magnitude.ofUnits?_whole hn)

/-- A double whose units are a number of ones is that integer. -/
theorem toInt?_finite (negative : Bool) (magnitude : Magnitude) {n : Int}
    (h : (if negative then -(magnitude.units : Int) else magnitude.units) = n * Magnitude.one) :
    (Double.finite negative magnitude).toInt? = some n := by
  have hone : (Magnitude.one : Int) ≠ 0 := Int.natCast_ne_zero.2 (Nat.ne_of_gt Magnitude.one_pos)
  have hunits : (Double.finite negative magnitude).units? = some (n * Magnitude.one) := congrArg some h
  unfold toInt?
  rw [hunits, Option.bind_some]
  generalize Magnitude.one = one at hone ⊢
  rw [Int.mul_emod_left, if_pos rfl, Int.mul_ediv_cancel _ hone]

/-- A whole number below `2 ^ 53` is read back from its double. -/
theorem toInt?_ofInt {n : Int} (hn : n.natAbs < Nat.pow 2 53) : (ofInt n).toInt? = some n := by
  rw [ofInt_eq hn]
  refine toInt?_finite _ _ ?_
  rw [Magnitude.units_whole]
  generalize Magnitude.one = one
  by_cases hneg : n < 0
  · have habs : (n.natAbs : Int) = -n := by omega
    rw [decide_eq_true hneg, if_pos rfl, Int.natCast_mul, habs, Int.neg_mul, Int.neg_neg]
  · have habs : (n.natAbs : Int) = n := by omega
    rw [decide_eq_false hneg, if_neg Bool.false_ne_true, Int.natCast_mul, habs]

end Double

namespace JsonNumber

/-- A double that is an integer below `2 ^ 53` in size is written as that integer. -/
theorem ofDouble?_of_toInt? {d : Double} {n : Int} (h : d.toInt? = some n)
    (hn : n.natAbs < Nat.pow 2 53) : ofDouble? d = some (.int n) := by
  unfold ofDouble?
  rw [h]
  exact if_pos hn

/-- An integer below `2 ^ 53` is written as itself again. -/
theorem ofDouble?_int {n : Int} (hn : n.natAbs < Nat.pow 2 53) :
    ofDouble? (JsonNumber.int n).toDouble = some (.int n) :=
  ofDouble?_of_toInt? (Double.toInt?_ofInt hn) hn

/-- Doubles that are equal as numbers are written in the same way: the two zeros are. -/
theorem ofDouble?_of_numEq {a b : Double} (h : a.numEq b = true) :
    ofDouble? a = ofDouble? b := by
  cases a with
  | nan => cases h
  | infinite s =>
    cases b with
    | infinite t => rfl
    | _ => cases h
  | finite s m =>
    cases b with
    | finite t n =>
      simp only [Double.numEq, Bool.and_eq_true, Bool.or_eq_true, beq_iff_eq] at h
      obtain ⟨hunits, hsign⟩ := h
      obtain rfl : m = n := by
        cases m
        cases n
        simp only at hunits
        subst hunits
        rfl
      rcases hsign with rfl | hzero
      · rfl
      · have hwhole : ∀ negative, (Double.finite negative m).toInt? = some 0 := fun negative =>
          Double.toInt?_finite negative m (by rw [hzero, Int.zero_mul]; cases negative <;> rfl)
        have hsmall : (0 : Int).natAbs < Nat.pow 2 53 := by decide
        rw [ofDouble?_of_toInt? (hwhole s) hsmall, ofDouble?_of_toInt? (hwhole t) hsmall]
    | _ => cases h

/-- The number of a double is read back as one that is written in the same way. -/
theorem ofDouble?_toDouble {d : Double} {n : JsonNumber} (h : ofDouble? d = some n) :
    ofDouble? n.toDouble = some n := by
  have hkept : n = .double d → ofDouble? n.toDouble = some n := by
    rintro rfl
    exact h
  unfold ofDouble? at h
  split at h
  · split at h
    · next k _ hk =>
      cases h
      exact ofDouble?_int hk
    · exact hkept (Option.some.inj h).symm
  · split at h
    · exact hkept (Option.some.inj h).symm
    · cases h

end JsonNumber

end DataBinding
