import DiceCalculator.EvalError

/-!
# Checks of operands

A check passes exactly the values that its operator can use, so what passes leaves no fault. What
fails a check is reported as an error that names the operand.
-/
namespace DiceCalculator

theorem EvalError.unless_eq_ok_iff {keeps : Bool} {rule : OperandRule} {operand : Expr}
    {value : Int} : EvalError.unless keeps rule operand value = .ok () ↔ keeps = true := by
  cases keeps <;> simp [EvalError.unless]

theorem EvalError.unless_eq_error {keeps : Bool} {rule : OperandRule} {operand : Expr}
    {value : Int} {failure : EvalFailure}
    (h : EvalError.unless keeps rule operand value = .error failure) :
    ∃ error, failure = .rejected error := by
  cases keeps with
  | true => simp [EvalError.unless] at h
  | false => exact ⟨_, (Except.error.inj h).symm⟩

theorem Expr.checkSides_eq_ok_iff {sides : Expr} {value : Int} :
    sides.checkSides value = .ok () ↔ 1 ≤ value := by
  rw [checkSides, EvalError.unless_eq_ok_iff, decide_eq_true_iff]

theorem Expr.checkCount_eq_ok_iff {count : Expr} {value : Int} :
    count.checkCount value = .ok () ↔ 0 ≤ value := by
  rw [checkCount, EvalError.unless_eq_ok_iff, decide_eq_true_iff]

namespace ArithOp

/-- The right operands with which an operation has a result. -/
def Admits : ArithOp → Int → Prop
  | quotient, b => b ≠ 0
  | power, b => 0 ≤ b ∧ b ≤ maxExponent
  | _, _ => True

theorem checkRight_eq_ok_iff {op : ArithOp} {rhs : Expr} {b : Int} :
    op.checkRight rhs b = .ok () ↔ op.Admits b := by
  cases op with
  | quotient => rw [checkRight, EvalError.unless_eq_ok_iff, bne_iff_ne, Admits]
  | power =>
      by_cases hb : 0 ≤ b <;> simp [checkRight, EvalError.unless, Admits, hb, bind, Except.bind]
  | sum => exact iff_of_true rfl trivial
  | difference => exact iff_of_true rfl trivial
  | product => exact iff_of_true rfl trivial

theorem checkRight_eq_error {op : ArithOp} {rhs : Expr} {value : Int}
    {failure : EvalFailure} (h : op.checkRight rhs value = .error failure) :
    ∃ error, failure = .rejected error := by
  cases op with
  | quotient => exact EvalError.unless_eq_error h
  | power =>
      rw [checkRight] at h
      cases hfirst : EvalError.unless (0 ≤ value) .negativeExponent rhs value with
      | error failure' =>
          rw [hfirst] at h
          obtain ⟨error, rfl⟩ := EvalError.unless_eq_error hfirst
          exact ⟨error, (Except.error.inj h).symm⟩
      | ok =>
          rw [hfirst] at h
          exact EvalError.unless_eq_error h
  | sum => cases h
  | difference => cases h
  | product => cases h

theorem tryApply_eq_ok {op : ArithOp} {rhs : Expr} {b : Int}
    (h : op.checkRight rhs b = .ok ()) (a : Int) : op.tryApply a b = .ok (op.apply a b) := by
  rw [checkRight_eq_ok_iff] at h
  cases op with
  | quotient => rw [tryApply, if_neg h]
  | power => rw [tryApply, if_pos h.1]
  | sum => rfl
  | difference => rfl
  | product => rfl

end ArithOp

end DiceCalculator
