import DiceCalculator.Combinatorics.Binomials
import DiceCalculator.EvalError
import DiceCalculator.Weight
/-!
# Sums of equal dice

The number of ways in which `n` dice with `s` sides add up to a sum follows from inclusion and
exclusion over the dice that show more than `s`:

  `∑ (-1) ^ i * C(n, i) * C(sum - 1 - i * s, n - 1)`  for `i` up to `(sum - n) / s`.

The positive and the negative terms are added up apart.
-/
namespace DiceCalculator.DiceSum

/-- The largest number of dice that can show too much. -/
def bound (sum n sides : Int) : Int := (sum - n).fdiv sides

def evens (bound : Int) : List Int :=
  (List.range ((bound + 2) / 2).toNat).map fun (i : Nat) => (2 * i : Int)

def odds (bound : Int) : List Int :=
  (List.range ((bound + 1) / 2).toNat).map fun (i : Nat) => (2 * i + 1 : Int)

/-- The two coefficients whose product is the term for `i` dice that show too much. -/
def factors (sum n sides i : Int) : (Int × Int) × (Int × Int) :=
  ((n, i), (sum - 1 - i * sides, n - 1))

/-- The size of the term for `i` dice that show too much. -/
def term (sum n sides i : Int) : StateM Binomials Nat := do
  let ((n, i), (m, k)) := factors sum n sides i
  let subsets ← Binomials.choose n i
  let rest ← Binomials.choose m k
  pure (subsets * rest)

/-- The sum of the terms for all numbers in a list. -/
def terms (sum n sides : Int) (indices : List Int) : StateM Binomials Nat :=
  indices.foldlM (fun total i => do
    let t ← term sum n sides i
    pure (total + t)) 0

/-- The number of ways in which `n` dice with this number of sides add up to a sum. No dice, or dice
without sides, add up in one way to whatever is asked. -/
def count (sum n sides : Int) : StateM Binomials Int := do
  if n = 0 ∨ sides = 0 then return 1
  if sum < n ∨ n * sides < sum then return 0
  let positive ← terms sum n sides (evens (bound sum n sides))
  let negative ← terms sum n sides (odds (bound sum n sides))
  return (positive : Int) - negative

variable {α : Type} [Weight α]

/-- A number of ways as a share of all throws of `n` dice. For a negative number of dice the number
of throws is a fraction. -/
def share (ways n sides : Int) : Except Fault α :=
  match n with
  | .ofNat n =>
    if Int.pow sides n = 0 then .error .zeroDenominator
    else .ok (Weight.ratio ways (Int.pow sides n))
  | .negSucc n =>
    if sides = 0 then .error .negativePowerOfZero
    else if !(Weight.quantity (Weight.ofInt sides : α)).isFinite then .error .integerTooLarge
    else
      let throws : α := Weight.ratio 1 (Int.pow sides (n + 1))
      if Weight.isZero throws then .error .vanishingWeight
      else .ok (Weight.div (Weight.ofInt ways) throws)

def probability (sum n sides : Int) : ExceptT Fault (StateM Binomials) α :=
  ExceptT.mk (do
    let ways ← count sum n sides
    pure (share ways n sides))

end DiceCalculator.DiceSum
