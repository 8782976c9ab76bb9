/-!
# Rounding quotients of natural numbers
-/
namespace DiceCalculator

def tenTo (k : Nat) : Nat := Nat.pow 10 k

/-- The integer nearest to a quotient; of two that are equally near, the even one. -/
def roundHalfEven (num den : Nat) : Nat :=
  let q := num / den
  let r := num % den
  if 2 * r < den then q
  else if den < 2 * r then q + 1
  else if q % 2 = 0 then q
  else q + 1

/-- The greatest `e` such that `2 ^ e` is at most the quotient of two positive numbers. -/
def floorLog2 (num den : Nat) : Int :=
  let e : Int := (num.log2 : Int) - den.log2
  let reaches : Bool :=
    match e with
    | .ofNat k => den <<< k ≤ num
    | .negSucc k => den ≤ num <<< (k + 1)
  if reaches then e else e - 1

end DiceCalculator
