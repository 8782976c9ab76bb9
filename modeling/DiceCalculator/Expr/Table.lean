import DiceCalculator.Combinatorics.DiceSum
import DiceCalculator.Distribution
import DiceCalculator.EvalError
/-!
# The law of an expression

The distribution of an expression is built from the distributions of its operands, which are
independent. Every outcome of an operand is checked before it is used, so that an expression has a
distribution exactly if no roll of it fails. One memory of binomial coefficients serves the whole
computation; it stays as it is when a check fails.
-/
namespace DiceCalculator

/-- A computation with a memory of binomial coefficients that may fail. -/
abbrev TableM := ExceptT EvalFailure (StateM Binomials)

namespace TableM

variable {α : Type}

def ofExcept (check : Except EvalFailure α) : TableM α := ExceptT.mk (pure check)

def ofFault (x : ExceptT Fault (StateM Binomials) α) : TableM α :=
  ExceptT.mk (Except.mapError EvalFailure.fault <$> x.run)

end TableM

def Distribution.checkAll {α : Type} (d : Distribution α)
    (check : Int → Except EvalFailure Unit) : Except EvalFailure Unit :=
  d.outcomes.forM fun o => check o.value

/-- The totals that `n` dice with this number of sides can show. -/
def diceTotals (n sides : Int) : List Int :=
  (List.range (n * sides + 1 - n).toNat).map fun (i : Nat) => n + (i : Int)

variable {α : Type} [Weight α]

/-- The distribution of the total of some dice, where both their number and their number of sides
are random. -/
def diceTable (counts sides : Distribution α) : TableM (Distribution α) :=
  Distribution.ofTally <$> counts.outcomes.foldlM (fun tally n =>
    sides.outcomes.foldlM (fun tally s =>
      (diceTotals n.value s.value).foldlM (fun tally total => do
        let p ← TableM.ofFault (DiceSum.probability total n.value s.value)
        pure (tally.add total (Weight.mul (Weight.mul n.probability s.probability) p)))
        tally) tally) Tally.empty

/-- The distribution of an expression. -/
def Expr.table : Expr → TableM (Distribution α)
  | .literal value => pure (.constant value)
  | .dice count sides => do
    let s : Distribution α ← sides.table
    let n : Distribution α ← count.table
    TableM.ofExcept (s.checkAll sides.checkSides)
    TableM.ofExcept (n.checkAll count.checkCount)
    diceTable n s
  | .arith op lhs rhs => do
    let l : Distribution α ← lhs.table
    let r : Distribution α ← rhs.table
    TableM.ofExcept (r.checkAll (op.checkRight rhs))
    TableM.ofExcept (Distribution.product? (fun a b => (op.tryApply a b).mapError .fault) l r)
  | .signed sign operand => do
    let d : Distribution α ← operand.table
    pure (d.map sign.apply)

def Expr.distributionWith (e : Expr) (memory : Binomials) :
    Except EvalFailure (Distribution α) × Binomials :=
  e.table.run.run memory

def Expr.distribution (e : Expr) : Except EvalFailure (Distribution α) :=
  (e.distributionWith Binomials.empty).1

end DiceCalculator
