/-!
# Bytes written in base 64

Four digits of six bits each stand for three bytes. Equals signs fill up the last group, and all
that follows a full group of them is ignored, as are characters that are no digits.
-/
namespace DiceCalculator.Base64

def digits : List Char :=
  "ABCDEFGHIJKLMNOPQRSTUVWXYZabcdefghijklmnopqrstuvwxyz0123456789+/".toList

def digit? (c : Char) : Option Nat := digits.idxOf? c

/-- The bytes that follow within a text. Before its rest stand `position` digits of a group, of
which the bits in `carry` are not yet part of a byte, and behind them `pads` equals signs. -/
def decodeFrom (position carry pads : Nat) : List Char → Option (List Nat)
  | [] => if position = 0 then some [] else none
  | c :: rest =>
    if c == '=' then
      if position < 2 then decodeFrom position carry pads rest
      else if 4 ≤ position + pads + 1 then some []
      else decodeFrom position carry (pads + 1) rest
    else
      match digit? c with
      | none => decodeFrom position carry pads rest
      | some value =>
        if position = 0 then decodeFrom 1 value 0 rest
        else
          let byte := (carry <<< (2 * position)) + (value >>> (6 - 2 * position))
          let carry := value % (1 <<< (6 - 2 * position))
          (decodeFrom ((position + 1) % 4) carry 0 rest).map (byte :: ·)

/-- The bytes that a text stands for; nothing if its last group is not complete. -/
def decode? (text : List Char) : Option (List Nat) := decodeFrom 0 0 0 text

end DiceCalculator.Base64
