import DiceCalculator.Text.Quoted
/-!
# Texts given by code points

An escape can name the number of any character, and also a half of a surrogate pair, which stands
for no character alone. A text with such a half in it is no string, so texts with escapes are kept
as the numbers of their characters.
-/
namespace DiceCalculator

/-- The numbers of the characters of a text, and of halves of surrogate pairs. -/
abbrev CodePoints := List Nat

namespace CodePoints

def ofChars (text : List Char) : CodePoints := text.map Char.toNat

/-- The characters of a text, if each number in it is one of a character. -/
def toChars? (text : CodePoints) : Option (List Char) :=
  if text.all fun n => decide n.isValidChar then some (text.map Char.ofNat) else none

/-- A number between quotes of a kind. Halves of surrogate pairs cannot be shown. -/
def escape (quote : Char) (n : Nat) : List Char :=
  if n.isValidChar then Quoted.escape quote (Char.ofNat n) else Quoted.escapeHidden n

def quote (text : CodePoints) : String :=
  let q := Quoted.quoteFor (text.map Char.ofNat)
  String.ofList (q :: text.flatMap (escape q) ++ [q])

end CodePoints

end DiceCalculator
