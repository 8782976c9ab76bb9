import DiceCalculator.Number.Quantity
import DiceCalculator.Number.Rounding
/-!
# Doubles and their exact values

A finite double is `m * 2 ^ q` with `m < 2 ^ 53` and `q ≥ -1074`. A fraction is turned into the
nearest double by one rounding to the grid of its size, also where doubles lose digits near zero.
-/
namespace DiceCalculator.Binary64

def finestExponent : Int := -1074

/-- The leading bit of a significand, which the encoding of all but the smallest doubles leaves out.
-/
def leadingBit : Nat := 1 <<< 52

def signBit : Nat := 1 <<< 63

/-- The bits of positive infinity: a greater encoding of a size is no number. -/
def infinityBits : Nat := 0x7ff <<< 52

/-- The exponent of the grid on which doubles near this fraction lie. -/
def gridExponent (num den : Nat) : Int := max (floorLog2 num den - 52) finestExponent

/-- The encoding of the double nearest to a non-negative fraction. The step from one grid to the
next needs no care, because the encoding of a size is monotone across grids. -/
def nearestBits (num den : Nat) : Nat :=
  if num = 0 then 0
  else
    let q := gridExponent num den
    let m :=
      match q with
      | .ofNat k => roundHalfEven num (den <<< k)
      | .negSucc k => roundHalfEven (num <<< (k + 1)) den
    min (((q - finestExponent).toNat <<< 52) + m) infinityBits

/-- The double nearest to a signed fraction; it is infinite beyond the range of doubles. -/
def ofRatio (negative : Bool) (num den : Nat) : Float :=
  Float.ofBits (UInt64.ofNat (nearestBits num den + if negative then signBit else 0))

/-- The double nearest to the quotient of two integers. A zero takes the sign of the divisor. -/
def ofQuotient (num den : Int) : Float :=
  ofRatio (decide (num < 0) != decide (den < 0)) num.natAbs den.natAbs

def ofInt (n : Int) : Float := ofRatio (n < 0) n.natAbs 1

/-- The parts of an encoded size: the integer `m` and the exponent `q` of `m * 2 ^ q`. -/
def significand (bits : Nat) : Nat × Int :=
  let exponent := bits >>> 52
  let fraction := bits % leadingBit
  if exponent = 0 then (fraction, finestExponent)
  else (fraction + leadingBit, finestExponent + (exponent - 1))

def sizeBits (x : Float) : Nat := x.toBits.toNat % signBit

def isNegative (x : Float) : Bool := x.toBits.toNat ≥ signBit

def quantity (x : Float) : Quantity :=
  let bits := sizeBits x
  if infinityBits < bits then .undefined
  else if bits = infinityBits then .infinite (isNegative x)
  else
    match significand bits with
    | (m, .ofNat k) => .finite (isNegative x) (m <<< k) 1
    | (m, .negSucc k) => .finite (isNegative x) m (1 <<< (k + 1))

end DiceCalculator.Binary64
