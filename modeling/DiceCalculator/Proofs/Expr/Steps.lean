import DiceCalculator.Expr.Roll
import DiceCalculator.Expr.Table
import DiceCalculator.Proofs.Expr.Checks
import Mathlib.Algebra.Ring.Int.Defs

/-!
# Watched evaluation

Some steps of an evaluation make sense for some arguments only: a division, a power, a binomial
coefficient, a die. A watched evaluation does what the evaluation does and notes each such step
with its arguments, in the order in which the steps are taken.
-/
namespace DiceCalculator

/-- A step of an evaluation that is not meant for all arguments. -/
inductive Step (α : Type) where
  /-- A die is asked for. -/
  | die (sides : Int)
  /-- An operation is applied to the values of its operands. -/
  | operation (op : ArithOp) (a b : Int)
  /-- The probability of a total of some dice is asked for. -/
  | probability (total n sides : Int)
  /-- What a total has more than its least value is divided by the number of sides. -/
  | bound (excess sides : Int)
  /-- A binomial coefficient is asked for. -/
  | coefficient (n r : Int)
  /-- A coefficient is found from the one before it by a division. -/
  | diagonal (product divisor : Nat)
  /-- A number of ways is divided by the number of throws of `n` dice. -/
  | share (ways n sides : Int)
  /-- A mass is divided by all mass. -/
  | normalization (mass total : α)
  deriving DecidableEq, Repr

/-- The step is taken with arguments that it is meant for. -/
def Step.Admissible {α : Type} [Weight α] : Step α → Prop
  | die sides => 1 ≤ sides
  | operation op _ b => op.Admits b
  | probability total n sides => 0 ≤ n ∧ 1 ≤ sides ∧ n ≤ total ∧ total ≤ n * sides
  | bound _ sides => sides ≠ 0
  | coefficient n r => 0 ≤ r ∧ r ≤ n
  | diagonal _ divisor => divisor ≠ 0
  | share ways n sides => 0 ≤ n ∧ 0 < sides ^ n.toNat ∧ 0 ≤ ways ∧ ways ≤ sides ^ n.toNat
  | normalization _ total => Weight.isZero total = false

/-- A computation on a state that notes its steps. -/
abbrev Watched (α S : Type) := StateM (List (Step α) × S)

namespace Watched

variable {α S β σ : Type}

def note (step : Step α) : Watched α S Unit := fun (steps, s) => ((), (steps ++ [step], s))

def quiet (x : StateM S β) : Watched α S β := fun (steps, s) =>
  let (b, s) := x.run s
  (b, (steps, s))

def check (outcome : Except EvalFailure β) : ExceptT EvalFailure (Watched α S) β :=
  ExceptT.mk (pure outcome)

def apply (op : ArithOp) (a b : Int) : ExceptT EvalFailure (Watched α S) Int := do
  ExceptT.lift (note (.operation op a b))
  check ((op.tryApply a b).mapError .fault)

/-! ## Counting -/

def walk (n : Nat) : Nat → Watched α Binomials Nat
  | 0 => pure 1
  | r + 1 => do
    let memory ← quiet get
    match memory.kept[cantorNumber n (r + 1)]? with
    | some value =>
      quiet (set { memory with hits := memory.hits + 1 })
      pure value
    | none =>
      let before ← walk (n - 1) r
      note (.diagonal (n * before) (r + 1))
      let value := n * before / (r + 1)
      quiet (modify fun memory => memory.keep n (r + 1) value)
      pure value

def choose (n r : Int) : Watched α Binomials Nat := do
  note (.coefficient n r)
  if n < r then pure 0 else walk n.toNat (Binomials.nearerColumn n r).toNat

def term (total n sides i : Int) : Watched α Binomials Nat := do
  let ((n, i), (m, k)) := DiceSum.factors total n sides i
  let subsets ← choose n i
  let rest ← choose m k
  pure (subsets * rest)

def terms (total n sides : Int) (indices : List Int) : Watched α Binomials Nat :=
  indices.foldlM (fun sum i => do
    let t ← term total n sides i
    pure (sum + t)) 0

def count (total n sides : Int) : Watched α Binomials Int := do
  if n = 0 ∨ sides = 0 then return 1
  if total < n ∨ n * sides < total then return 0
  note (.bound (total - n) sides)
  let bound := DiceSum.bound total n sides
  let positive ← terms total n sides (DiceSum.evens bound)
  let negative ← terms total n sides (DiceSum.odds bound)
  return (positive : Int) - negative

variable [Weight α]

def probability (total n sides : Int) : Watched α Binomials (Except Fault α) := do
  note (.probability total n sides)
  let ways ← count total n sides
  note (.share ways n sides)
  pure (DiceSum.share ways n sides)

/-! ## Distributions -/

def ofTally (tally : Tally α) : Watched α S (Distribution α) := do
  let total := tally.total
  if Weight.isZero total then return .empty
  let outcomes ← tally.toList.mapM fun (value, mass) => do
    note (.normalization mass total)
    pure ⟨value, Weight.div mass total⟩
  return ⟨outcomes⟩

def map (f : Int → Int) (d : Distribution α) : Watched α S (Distribution α) :=
  ofTally (d.outcomes.foldl (fun tally o => tally.add (f o.value) o.probability) .empty)

def product (op : ArithOp) (d e : Distribution α) :
    ExceptT EvalFailure (Watched α S) (Distribution α) := do
  let tally ← d.outcomes.foldlM (fun tally l =>
    e.outcomes.foldlM (fun tally r => do
      let value ← apply op l.value r.value
      pure (tally.add value (Weight.mul l.probability r.probability))) tally) Tally.empty
  ExceptT.lift (ofTally tally)

def diceTable (counts sides : Distribution α) :
    ExceptT EvalFailure (Watched α Binomials) (Distribution α) := do
  let tally ← counts.outcomes.foldlM (fun tally n =>
    sides.outcomes.foldlM (fun tally s =>
      (diceTotals n.value s.value).foldlM (fun tally total => do
        let p ← ExceptT.mk (Except.mapError EvalFailure.fault <$>
          probability total n.value s.value)
        pure (tally.add total (Weight.mul (Weight.mul n.probability s.probability) p)))
        tally) tally) Tally.empty
  ExceptT.lift (ofTally tally)

/-! ## Dice -/

omit [Weight α]

def die (draw : σ → Int → Int × σ) (sides : Int) : Watched α (σ × Ledger) Int := do
  note (.die sides)
  quiet fun (source, ledger) =>
    let (face, source) := draw source sides
    (face, (source, ledger.record sides face))

def total (draw : σ → Int → Int × σ) (sides : Int) : Nat → Int → Watched α (σ × Ledger) Int
  | 0, sum => pure sum
  | count + 1, sum => do
    let face ← die draw sides
    total draw sides count (sum + face)

end Watched

namespace Expr

open Watched

variable {α σ : Type}

def watchedTable [Weight α] : Expr → ExceptT EvalFailure (Watched α Binomials) (Distribution α)
  | .literal value => pure (.constant value)
  | .dice count sides => do
    let s ← sides.watchedTable
    let n ← count.watchedTable
    check (s.checkAll sides.checkSides)
    check (n.checkAll count.checkCount)
    Watched.diceTable n s
  | .arith op lhs rhs => do
    let l ← lhs.watchedTable
    let r ← rhs.watchedTable
    check (r.checkAll (op.checkRight rhs))
    Watched.product op l r
  | .signed sign operand => do
    let d ← operand.watchedTable
    ExceptT.lift (Watched.map sign.apply d)

/-- The roll of an expression, step by step, with whatever answers the requests. -/
def watchedRoll (draw : σ → Int → Int × σ) :
    Expr → ExceptT EvalFailure (Watched α (σ × Ledger)) Int
  | .literal value => pure value
  | .dice count sides => do
    let s ← sides.watchedRoll draw
    let n ← count.watchedRoll draw
    check (sides.checkSides s)
    check (count.checkCount n)
    ExceptT.lift (Watched.total draw s n.toNat 0)
  | .arith op lhs rhs => do
    let a ← lhs.watchedRoll draw
    let b ← rhs.watchedRoll draw
    check (op.checkRight rhs b)
    Watched.apply op a b
  | .signed sign operand => do
    let a ← operand.watchedRoll draw
    pure (sign.apply a)

end Expr

end DiceCalculator
