/-!
# Exact values of numbers with a fixed format

A number that is to be written out is a signed fraction, an infinity, or no number at all. The sign
of a fraction is kept apart from its size, because a zero may have a sign too.
-/
namespace DiceCalculator

/-- The exact value of a number. -/
inductive Quantity where
  | finite (negative : Bool) (num den : Nat)
  | infinite (negative : Bool)
  | undefined
  deriving DecidableEq, Repr

/-- Why a number has no integer part. -/
inductive NoInteger where
  | undefined
  | infinite
  deriving DecidableEq, Repr

def NoInteger.message : NoInteger → String
  | undefined => "cannot convert float NaN to integer"
  | infinite => "cannot convert float infinity to integer"

namespace Quantity

def ofInt (n : Int) : Quantity := .finite (n < 0) n.natAbs 1

def ofRat (r : Rat) : Quantity := .finite (r.num < 0) r.num.natAbs r.den

/-- The integer part, if there is one: the fractional part of a finite value is dropped. -/
def truncate : Quantity → Except NoInteger Int
  | .finite negative num den =>
    .ok (if negative then -((num / den : Nat) : Int) else ((num / den : Nat) : Int))
  | .infinite _ => .error .infinite
  | .undefined => .error .undefined

def isFinite : Quantity → Bool
  | .finite .. => true
  | _ => false

end Quantity

end DiceCalculator
