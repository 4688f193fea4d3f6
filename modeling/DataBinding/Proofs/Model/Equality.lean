import DataBinding.Model.Value

/-!
# Strict equality of values

Strict equality is symmetric, and a NaN is the only value that is not strictly equal to itself. Two
values agree if they are strictly equal or both NaN; agreeing is what change detection can establish of a
value that it has delivered.
-/

set_option autoImplicit false

namespace DataBinding

/-- Numeric equality of doubles is symmetric. -/
theorem Double.numEq_comm (a b : Double) : a.numEq b = b.numEq a := by
  cases a with
  | nan => cases b <;> rfl
  | infinite s =>
    cases b with
    | infinite t => exact Bool.beq_comm
    | _ => rfl
  | finite s m =>
    cases b with
    | finite t n =>
      simp only [Double.numEq]
      by_cases hunits : m.units = n.units
      · rw [hunits, Bool.beq_comm (a := s)]
      · have hunits' : ¬ n.units = m.units := fun h => hunits h.symm
        rw [beq_eq_false_iff_ne.2 hunits, beq_eq_false_iff_ne.2 hunits', Bool.false_and, Bool.false_and]
    | _ => rfl

/-- A double that is a number equals itself, also if it is infinite. -/
theorem Double.numEq_self {a : Double} (h : a ≠ .nan) : a.numEq a = true := by
  cases a with
  | nan => exact absurd rfl h
  | infinite s => simp [Double.numEq]
  | finite s m => simp [Double.numEq]

/-- Numeric equality of doubles is transitive. -/
theorem Double.numEq_trans {a b c : Double} (hab : a.numEq b = true) (hbc : b.numEq c = true) :
    a.numEq c = true := by
  cases a with
  | nan => cases hab
  | infinite s =>
    cases b with
    | infinite t =>
      cases c with
      | infinite u =>
        simp only [Double.numEq, beq_iff_eq] at hab hbc ⊢
        rw [hab, hbc]
      | _ => cases hbc
    | _ => cases hab
  | finite s m =>
    cases b with
    | finite t n =>
      cases c with
      | finite u l =>
        simp only [Double.numEq, Bool.and_eq_true, Bool.or_eq_true, beq_iff_eq] at hab hbc ⊢
        refine ⟨hab.1.trans hbc.1, ?_⟩
        rcases hab.2 with hst | hzero
        · rcases hbc.2 with htu | hzero
          · exact .inl (hst.trans htu)
          · exact .inr (hab.1.trans hzero)
        · exact .inr hzero
      | _ => cases hbc
    | _ => cases hab

namespace Value

/-- Strict equality of values is symmetric. -/
theorem strictEq_comm (a b : Value) : a.strictEq b = b.strictEq a := by
  cases a <;> cases b <;> first | rfl | exact Bool.beq_comm | exact Double.numEq_comm _ _

/-- Two values are strictly equal or both NaN. -/
def Agrees (a b : Value) : Prop := a.strictEq b = true ∨ (a = .number .nan ∧ b = .number .nan)

/-- A value agrees with itself, also where it is not strictly equal to itself. -/
theorem agrees_self (a : Value) : a.Agrees a := by
  by_cases hnan : a = .number .nan
  · exact .inr ⟨hnan, hnan⟩
  · refine .inl ?_
    cases a with
    | number value =>
      exact Double.numEq_self fun h => hnan (by rw [h])
    | _ => simp [strictEq]

/-- Strict equality of values is transitive. -/
theorem strictEq_trans {a b c : Value} (hab : a.strictEq b = true) (hbc : b.strictEq c = true) :
    a.strictEq c = true := by
  cases a <;> cases b <;> first | cases hab | skip
  all_goals cases c <;> first | cases hbc | skip
  case null => rfl
  case number => exact Double.numEq_trans hab hbc
  all_goals exact beq_iff_eq.2 ((eq_of_beq hab).trans (eq_of_beq hbc))

/-- Nothing is strictly equal to one of two values that agree and not to the other. -/
theorem Agrees.strictEq_eq {a b : Value} (h : a.Agrees b) (value : Value) :
    value.strictEq a = value.strictEq b := by
  rcases h with hsame | ⟨rfl, rfl⟩
  · rw [Bool.eq_iff_iff]
    exact ⟨fun ha => strictEq_trans ha hsame, fun hb => strictEq_trans hb (strictEq_comm a b ▸ hsame)⟩
  · rfl

/-- What is strictly equal to something is strictly equal to itself. -/
theorem strictEq_self_of_strictEq {a b : Value} (h : a.strictEq b = true) : b.strictEq b = true :=
  strictEq_trans (strictEq_comm a b ▸ h) h

end Value

end DataBinding
