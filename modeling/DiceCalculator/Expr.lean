/-!
# Dice expressions

An expression is an integer literal, a roll of `count` dice with `sides` faces each, an arithmetic
operation, or a signed operand. The number of dice and the number of faces are expressions of their
own, so either may depend on dice.
-/
namespace DiceCalculator

/-- The operations on two integers. -/
inductive ArithOp where
  | sum
  | difference
  | product
  | quotient
  | power
  deriving DecidableEq, Repr

/-- The signs that may stand before an operand. -/
inductive Sign where
  | minus
  | plus
  deriving DecidableEq, Repr

/-- An expression tree. A literal may be negative, although no text reads as one. -/
inductive Expr where
  | literal (value : Int)
  | dice (count sides : Expr)
  | arith (op : ArithOp) (lhs rhs : Expr)
  | signed (sign : Sign) (operand : Expr)
  deriving DecidableEq, Repr

namespace ArithOp

/-- The quotient of two integers without its fractional part: it is rounded toward zero. -/
def truncatedQuotient (a b : Int) : Int := a.tdiv b

/-- The result of an operation, once its right operand is admissible. -/
def apply : ArithOp → Int → Int → Int
  | sum, a, b => a + b
  | difference, a, b => a - b
  | product, a, b => a * b
  | quotient, a, b => truncatedQuotient a b
  | power, a, b => Int.pow a b.toNat

end ArithOp

def Sign.apply : Sign → Int → Int
  | minus, a => -a
  | plus, a => a

/-- Every literal of the expression is non-negative, as in each expression that was read from text.
-/
def Expr.NonNegLiterals : Expr → Prop
  | .literal value => 0 ≤ value
  | .dice count sides => count.NonNegLiterals ∧ sides.NonNegLiterals
  | .arith _ lhs rhs => lhs.NonNegLiterals ∧ rhs.NonNegLiterals
  | .signed _ operand => operand.NonNegLiterals

end DiceCalculator
