import DiceCalculator.Expr.Operator
/-!
# Writing expressions

An operand is put into parentheses exactly when the operator table calls for it. Reading the text
of an expression without negative literals gives the expression back.
-/
namespace DiceCalculator

def parenthesizeIf (wrap : Bool) (text : String) : String :=
  if wrap then "(" ++ text ++ ")" else text

/-- The text of an expression. A negative literal is written with its sign and no parentheses. -/
def Expr.render : Expr → String
  | .literal value => toString value
  | .dice count sides =>
    parenthesizeIf (Operator.dice.wrapsLeft count.precedence) count.render ++
      Operator.dice.infixText ++
      parenthesizeIf (Operator.dice.wrapsRight sides.precedence) sides.render
  | .arith op lhs rhs =>
    parenthesizeIf ((Operator.arith op).wrapsLeft lhs.precedence) lhs.render ++
      (Operator.arith op).infixText ++
      parenthesizeIf ((Operator.arith op).wrapsRight rhs.precedence) rhs.render
  | .signed sign operand =>
    (Operator.sign sign).symbol ++
      parenthesizeIf ((Operator.sign sign).wrapsRight operand.precedence) operand.render

end DiceCalculator
