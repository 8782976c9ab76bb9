import DiceCalculator.Number.Binary64
import DiceCalculator.Text.Numeral
/-!
# Decimal texts of doubles

A decimal number has digits with or without a point among them, and perhaps an exponent. The words
for infinity and for no number are understood too. Blanks may stand around all of them, and the
digits may be those of any script. The number is the double nearest to the decimal.
-/
namespace DiceCalculator.Real

/-- Decimal numbers of at least this many digits before the point are beyond the doubles, and those
with as many zeros behind it are too small for them. -/
def maxScale : Nat := 400

/-- The number that decimal digits of any script stand for. -/
def ofDigits (digits : List Char) : Nat :=
  digits.foldl (fun n c => 10 * n + (Numeral.digit? c).getD 0) 0

def infinity (negative : Bool) : Float := Binary64.ofRatio negative (tenTo maxScale) 1

def undefined : Float := 0.0 / 0.0

def scaled (negative : Bool) (n : Nat) (exponent : Int) : Float :=
  let size : Int := exponent + (Nat.toDigits 10 n).length
  if n = 0 then Binary64.ofRatio negative 0 1
  else if (maxScale : Int) < size then infinity negative
  else if size < -(maxScale : Int) then Binary64.ofRatio negative 0 1
  else
    match exponent with
    | .ofNat k => Binary64.ofRatio negative (n * tenTo k) 1
    | .negSucc k => Binary64.ofRatio negative n (tenTo (k + 1))

def isDigit (c : Char) : Bool := (Numeral.digit? c).isSome

/-- The exponent at the end of a number; nothing stands for zero. -/
def exponent? : List Char → Option Int
  | [] => some 0
  | mark :: rest =>
    let (negative, digits) := Numeral.splitSign rest
    if (mark == 'e' || mark == 'E') && !digits.isEmpty && digits.all isDigit then
      some (Numeral.signed negative (ofDigits digits))
    else none

def decimal? (negative : Bool) (text : List Char) : Option Float :=
  let whole := text.takeWhile isDigit
  let (fraction, rest) := match text.dropWhile isDigit with
    | '.' :: rest => (rest.takeWhile isDigit, rest.dropWhile isDigit)
    | rest => ([], rest)
  if whole.isEmpty && fraction.isEmpty then none
  else
    (exponent? rest).map fun exponent =>
      scaled negative (ofDigits (whole ++ fraction)) (exponent - fraction.length)

def parse? (text : List Char) : Option Float :=
  let (negative, size) := Numeral.splitSign (Numeral.trim text)
  let word := String.ofList (size.map Char.toLower)
  if word == "inf" || word == "infinity" then some (infinity negative)
  else if word == "nan" then some undefined
  else decimal? negative size

end DiceCalculator.Real
