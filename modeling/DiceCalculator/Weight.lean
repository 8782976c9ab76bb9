import DiceCalculator.Number.Binary64
/-!
# Numbers that probabilities are computed with

All analysis is written once, for any kind of weight. Doubles are what the calculator prints; with
rational numbers the same steps are exact.
-/
namespace DiceCalculator

/-- The arithmetic that distributions need. -/
class Weight (α : Type) where
  zero : α
  one : α
  add : α → α → α
  mul : α → α → α
  div : α → α → α
  /-- The weight nearest to an integer. -/
  ofInt : Int → α
  /-- The weight nearest to a quotient of integers whose divisor is not zero. -/
  ratio : Int → Int → α
  /-- Whether a weight counts as zero, so that nothing can be divided by it. -/
  isZero : α → Bool
  less : α → α → Bool
  /-- The exact value of a weight. -/
  quantity : α → Quantity

instance : Weight Float where
  zero := 0.0
  one := 1.0
  add := (· + ·)
  mul := (· * ·)
  div := (· / ·)
  ofInt := Binary64.ofInt
  ratio := Binary64.ofQuotient
  isZero w := w == 0.0
  less a b := a < b
  quantity := Binary64.quantity

instance : Weight Rat where
  zero := 0
  one := 1
  add := (· + ·)
  mul := (· * ·)
  div := (· / ·)
  ofInt n := n
  ratio a b := (a : Rat) / (b : Rat)
  isZero w := w == 0
  less a b := a < b
  quantity := Quantity.ofRat

end DiceCalculator
