import DiceCalculator.Expr.Render
/-!
# Failures of evaluation

An operand may have a value that its operator cannot use. The five kinds of such errors name the
operand and the value. A fault, in contrast, is an undefined arithmetic operation; evaluation checks
every operand before it is used, so that no fault can come out of it.
-/
namespace DiceCalculator

/-- The rules that the value of an operand can break. -/
inductive OperandRule where
  | nonPositiveSides
  | negativeDiceCount
  | negativeExponent
  | exponentTooLarge
  | divisionByZero
  deriving DecidableEq, Repr

/-- An operand whose value breaks a rule. -/
structure EvalError where
  rule : OperandRule
  operand : Expr
  value : Int
  deriving DecidableEq, Repr

/-- Arithmetic operations that have no result. -/
inductive Fault where
  /-- A fraction whose denominator is zero. -/
  | zeroDenominator
  /-- An integer quotient whose divisor is zero. -/
  | zeroDivisor
  /-- A negative power of zero. -/
  | negativePowerOfZero
  /-- A weight divided by one that is too small to be told from zero. -/
  | vanishingWeight
  /-- A negative power that is no integer. -/
  | fractionalPower
  /-- An integer beyond the range of the weights. -/
  | integerTooLarge
  deriving DecidableEq, Repr

/-- Why an evaluation has no result. -/
inductive EvalFailure where
  | rejected (error : EvalError)
  | fault (fault : Fault)
  deriving DecidableEq, Repr

/-- The largest admissible exponent, that of an unsigned 32-bit word. It bounds the work of a power,
not the size of the result. -/
def maxExponent : Int := 4294967295

namespace OperandRule

def summary : OperandRule → String
  | nonPositiveSides => "Dice with non-positive sides are not supported"
  | negativeDiceCount => "A negative number of dice cannot be rolled"
  | negativeExponent => "Negative exponents are not supported"
  | exponentTooLarge => "Exponents larger than " ++ toString maxExponent ++ " are not supported"
  | divisionByZero => "Division by zero is undefined"

def problem : OperandRule → String
  | nonPositiveSides => ", a non-positive number"
  | negativeDiceCount => ", a negative number"
  | negativeExponent => ", a negative number"
  | exponentTooLarge => ""
  | divisionByZero => ""

end OperandRule

def EvalError.message (error : EvalError) : String :=
  error.rule.summary ++ ". The expression " ++ error.operand.render ++ " evaluated to " ++
    toString error.value ++ error.rule.problem ++ "."

def Fault.message : Fault → String
  | zeroDenominator => "division by zero"
  | zeroDivisor => "integer division or modulo by zero"
  | negativePowerOfZero => "0.0 cannot be raised to a negative power"
  | vanishingWeight => "float division by zero"
  | fractionalPower => "the power is not an integer"
  | integerTooLarge => "int too large to convert to float"

def EvalError.unless (keeps : Bool) (rule : OperandRule) (operand : Expr) (value : Int) :
    Except EvalFailure Unit :=
  if keeps then .ok () else .error (.rejected ⟨rule, operand, value⟩)

def Expr.checkSides (sides : Expr) (value : Int) : Except EvalFailure Unit :=
  EvalError.unless (1 ≤ value) .nonPositiveSides sides value

def Expr.checkCount (count : Expr) (value : Int) : Except EvalFailure Unit :=
  EvalError.unless (0 ≤ value) .negativeDiceCount count value

namespace ArithOp

/-- The rules for the right operand of an arithmetic operator. -/
def checkRight (op : ArithOp) (rhs : Expr) (value : Int) : Except EvalFailure Unit :=
  match op with
  | quotient => EvalError.unless (value != 0) .divisionByZero rhs value
  | power => do
    EvalError.unless (0 ≤ value) .negativeExponent rhs value
    EvalError.unless (value ≤ maxExponent) .exponentTooLarge rhs value
  | _ => .ok ()

/-- The result of an operation on any two integers, or the fault that it is. -/
def tryApply (op : ArithOp) (a b : Int) : Except Fault Int :=
  match op with
  | quotient => if b = 0 then .error .zeroDivisor else .ok (quotient.apply a b)
  | power =>
    if 0 ≤ b then .ok (power.apply a b)
    else if a = 0 then .error .negativePowerOfZero
    else .error .fractionalPower
  | op => .ok (op.apply a b)

end ArithOp

end DiceCalculator
