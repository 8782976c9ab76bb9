import DiceCalculator.Expr
/-!
# The operator table

Each operator has a symbol, a precedence (a smaller number binds tighter), a side to which it
associates, and a flag that says whether blanks surround it when it is written. The reader and the
writer of expressions both go by this table.
-/
namespace DiceCalculator

/-- The side on which a chain of one operator groups first. -/
inductive Associativity where
  | left
  | right
  deriving DecidableEq, Repr

/-- An operator as it is written. -/
structure Operator where
  symbol : String
  precedence : Nat
  associativity : Associativity
  spaced : Bool
  deriving DecidableEq, Repr

namespace Operator

/-- Between the number of dice and the number of faces. -/
def dice : Operator := ⟨"d", 2, .left, false⟩

/-- Signs bind tighter than every arithmetic operator, also than the power. -/
def sign : Sign → Operator
  | .minus => ⟨"-", 3, .right, false⟩
  | .plus => ⟨"+", 3, .right, false⟩

/-- Powers group from the right, all other arithmetic operators from the left. -/
def arith : ArithOp → Operator
  | .power => ⟨"**", 4, .right, true⟩
  | .quotient => ⟨"/", 5, .left, true⟩
  | .product => ⟨"*", 5, .left, true⟩
  | .difference => ⟨"-", 6, .left, true⟩
  | .sum => ⟨"+", 6, .left, true⟩

/-- The largest precedence in the table: every operator binds at least this tightly. -/
def loosest : Nat := 6

/-- A left operand of this precedence has to be put into parentheses. -/
def wrapsLeft (op : Operator) (operand : Nat) : Bool :=
  match op.associativity with
  | .left => operand > op.precedence
  | .right => operand ≥ op.precedence

def wrapsRight (op : Operator) (operand : Nat) : Bool :=
  match op.associativity with
  | .left => operand ≥ op.precedence
  | .right => operand > op.precedence

def infixText (op : Operator) : String :=
  if op.spaced then " " ++ op.symbol ++ " " else op.symbol

end Operator

/-- The outermost operator of an expression; a literal has none. -/
def Expr.operator? : Expr → Option Operator
  | .literal _ => none
  | .dice _ _ => some .dice
  | .arith op _ _ => some (.arith op)
  | .signed sign _ => some (.sign sign)

/-- The precedence of the outermost operator; a literal binds tightest. -/
def Expr.precedence (e : Expr) : Nat :=
  match e.operator? with
  | none => 0
  | some op => op.precedence

end DiceCalculator
