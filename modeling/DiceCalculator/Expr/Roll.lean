import DiceCalculator.EvalError
import DiceCalculator.Rolling.Draws
import DiceCalculator.Rolling.MersenneTwister
/-!
# Rolling expressions

The value of an expression depends on dice, so rolling it is a computation that asks for dice. For a
roll of dice the number of sides is found before the number of dice; everywhere else the left
operand comes first. Rolls that were made before an error stay made.
-/
namespace DiceCalculator

abbrev RollM := ExceptT EvalFailure Draws

def RollM.ofExcept {α : Type} (check : Except EvalFailure α) : RollM α := ExceptT.mk (pure check)

/-- Rolls an expression once. -/
def Expr.roll : Expr → RollM Int
  | .literal value => pure value
  | .dice count sides => do
    let s ← sides.roll
    let n ← count.roll
    RollM.ofExcept (sides.checkSides s)
    RollM.ofExcept (count.checkCount n)
    ExceptT.lift (Draws.total s n.toNat 0)
  | .arith op lhs rhs => do
    let a ← lhs.roll
    let b ← rhs.roll
    RollM.ofExcept (op.checkRight rhs b)
    RollM.ofExcept ((op.tryApply a b).mapError .fault)
  | .signed sign operand => do
    let a ← operand.roll
    pure (sign.apply a)

/-- What one evaluation leaves: the ledger of all its dice and the value. -/
structure RollResult where
  ledger : Ledger
  value : Int
  deriving DecidableEq, Repr

/-- Rolls an expression with a generator and a ledger that may have been used before. -/
def Expr.rollWith (e : Expr) (generator : MersenneTwister) (ledger : Ledger) :
    Draws.Run (Except EvalFailure Int) MersenneTwister :=
  Draws.run MersenneTwister.roll e.roll.run generator ledger

/-- Rolls an expression once. The seed alone determines the outcome. -/
def Expr.evaluate (e : Expr) (seed : Int) : Except EvalFailure RollResult :=
  let run := e.rollWith (MersenneTwister.ofSeed seed) .empty
  run.result.map fun value => ⟨run.ledger, value⟩

end DiceCalculator
