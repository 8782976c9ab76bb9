import DiceCalculator.Number.Binary64
/-!
# Decimal texts of numbers

Two forms are written: the shortest decimal that reads back as the same double, and a fixed number
of places after the point, where the exact value is rounded and a half goes to the even neighbour.
-/
namespace DiceCalculator.Decimal

/-- The greatest `e` such that `10 ^ e` is at most the quotient of two positive numbers, found by
correcting an estimate from the binary logarithm. -/
def floorLog10 (num den : Nat) : Int :=
  let estimate := (floorLog2 num den * 30103) / 100000
  let reaches (e : Int) : Bool :=
    match e with
    | .ofNat k => den * tenTo k ≤ num
    | .negSucc k => den ≤ num * tenTo (k + 1)
  if reaches (estimate + 1) then estimate + 1
  else if reaches estimate then estimate
  else estimate - 1

/-- The numbers strictly between the two ends, or including them. Ends are numerators over a common
denominator. -/
structure Interval where
  low : Nat
  high : Nat
  den : Nat
  closed : Bool

/-- A number `digits * 10 ^ exponent`. -/
structure Scaled where
  digits : Nat
  exponent : Int
  deriving DecidableEq, Repr

/-- The distance-comparable form of a decimal: its numerator over the denominator, where both sides
of a comparison are multiplied by the second factor. -/
def Scaled.numerator (s : Scaled) (den : Nat) : Nat × Nat :=
  match s.exponent with
  | .ofNat k => (s.digits * tenTo k * den, 1)
  | .negSucc k => (s.digits * den, tenTo (k + 1))

def Interval.contains (i : Interval) (s : Scaled) : Bool :=
  let (n, f) := s.numerator i.den
  if i.closed then i.low * f ≤ n && n ≤ i.high * f else i.low * f < n && n < i.high * f

/-- The positive numbers that round to the double `m * 2 ^ q`, with the double itself as a numerator
over the same denominator. Below the least significand of a grid the next double is half as far. -/
def roundingInterval (m : Nat) (q : Int) : Nat × Interval :=
  let scale : Nat × Nat := match q with
    | .ofNat k => (1 <<< k, 1)
    | .negSucc k => (1, 1 <<< (k + 1))
  let narrow := m == Binary64.leadingBit && q != Binary64.finestExponent
  let value := 4 * m * scale.1
  let below := if narrow then scale.1 else 2 * scale.1
  (value, ⟨value - below, value + 2 * scale.1, 4 * scale.2, m % 2 == 0⟩)

/-- The better one of two neighbouring decimals of which at least one lies in the interval: the one
nearer to the value, and of two equally near ones the even one. -/
def nearer? (value : Nat) (i : Interval) (low high : Scaled) : Option Scaled :=
  match i.contains low, i.contains high with
  | false, false => none
  | true, false => some low
  | false, true => some high
  | true, true =>
    let (l, f) := low.numerator i.den
    let (h, _) := high.numerator i.den
    let below := value * f - l
    let above := h - value * f
    if below < above then some low
    else if above < below then some high
    else if low.digits % 2 = 0 then some low else some high

/-- A decimal on the coarsest grid that has one in the interval; `grids` grids are tried. -/
def firstHit (value : Nat) (i : Interval) : Nat → Int → Scaled
  | 0, exponent => ⟨0, exponent⟩
  | grids + 1, exponent =>
    let digits := match exponent with
      | .ofNat k => value / (i.den * tenTo k)
      | .negSucc k => value * tenTo (k + 1) / i.den
    match nearer? value i ⟨digits, exponent⟩ ⟨digits + 1, exponent⟩ with
    | some s => s
    | none => firstHit value i grids (exponent - 1)

def maxDigits : Nat := 17

/-- The shortest decimal that rounds to the positive double `m * 2 ^ q`. -/
def shortest (m : Nat) (q : Int) : Scaled :=
  let (value, interval) := roundingInterval m q
  firstHit value interval maxDigits (floorLog10 value interval.den)

/-- The decimal digits without trailing zeros, and the place of the point before or behind them. -/
def Scaled.normal (s : Scaled) : List Char × Int :=
  let digits := (toString s.digits).toList
  let kept := (digits.reverse.dropWhile (· = '0')).reverse
  (kept, digits.length + s.exponent)

def zeros (n : Nat) : List Char := List.replicate n '0'

/-- Digits with the point in its place; at least one digit stands on either side. -/
def positional (digits : List Char) (point : Int) : List Char :=
  if point ≤ 0 then '0' :: '.' :: zeros (-point).toNat ++ digits
  else
    let whole := digits.take point.toNat
    let rest := digits.drop point.toNat
    whole ++ zeros (point.toNat - whole.length) ++ '.' :: (if rest.isEmpty then ['0'] else rest)

/-- One digit before the point, and an exponent of at least two digits with its sign. -/
def scientific (digits : List Char) (point : Int) : List Char :=
  let exponent := point - 1
  let size := (toString exponent.natAbs).toList
  let fraction := match digits.drop 1 with
    | [] => []
    | rest => '.' :: rest
  digits.take 1 ++ fraction ++ 'e' :: (if exponent < 0 then '-' else '+') ::
    (zeros (2 - size.length) ++ size)

/-- Numbers from this power of ten on, and numbers below the other one, have an exponent. -/
def usesExponent (point : Int) : Bool := point > 16 || point ≤ -4

/-- The shortest text that reads back as the same double. -/
def ofFloat (x : Float) : String :=
  let sign := if Binary64.isNegative x then "-" else ""
  let bits := Binary64.sizeBits x
  if Binary64.infinityBits < bits then "nan"
  else if bits = Binary64.infinityBits then sign ++ "inf"
  else if bits = 0 then sign ++ "0.0"
  else
    let (m, q) := Binary64.significand bits
    let (digits, point) := (shortest m q).normal
    sign ++ String.ofList (if usesExponent point then scientific digits point
      else positional digits point)

/-- The text with this many places after the point. A negative number keeps its sign even if it is
rounded to zero. -/
def fixed (places : Nat) : Quantity → String
  | .undefined => "nan"
  | .infinite negative => if negative then "-inf" else "inf"
  | .finite negative num den =>
    let scaled := roundHalfEven (num * tenTo places) den
    let digits := (toString (scaled / tenTo places)).toList
    let fraction := (toString (scaled % tenTo places)).toList
    let point := if places = 0 then [] else '.' :: (zeros (places - fraction.length) ++ fraction)
    (if negative then "-" else "") ++ String.ofList (digits ++ point)

end DiceCalculator.Decimal
