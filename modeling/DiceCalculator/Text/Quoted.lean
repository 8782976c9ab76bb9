import DiceCalculator.Text.Printable
/-!
# Quoted text

Text in messages is put between quotes, so that blanks and controls in it can be seen. Single quotes
are used unless the text has a single quote and no double quote in it. Bytes are quoted like text,
with a letter in front.
-/
namespace DiceCalculator.Quoted

def quoteFor (text : List Char) : Char :=
  if text.contains '\'' && !text.contains '"' then '"' else '\''

/-- A number in lower-case hexadecimal digits, filled up with zeros to a width. -/
def hex (width n : Nat) : List Char :=
  let digits := Nat.toDigits 16 n
  List.replicate (width - digits.length) '0' ++ digits

/-- The number of a character that cannot be shown, in the shortest of three forms. -/
def escapeHidden (n : Nat) : List Char :=
  if n < 0x100 then '\\' :: 'x' :: hex 2 n
  else if n < 0x10000 then '\\' :: 'u' :: hex 4 n
  else '\\' :: 'U' :: hex 8 n

/-- The characters that are escaped by a letter or by themselves between quotes of a kind. -/
def escapeMark? (quote c : Char) : Option (List Char) :=
  if c == quote || c == '\\' then some ['\\', c]
  else if c == '\n' then some ['\\', 'n']
  else if c == '\r' then some ['\\', 'r']
  else if c == '\t' then some ['\\', 't']
  else none

def escape (quote c : Char) : List Char :=
  match escapeMark? quote c with
  | some escaped => escaped
  | none => if Printable.isPrintable c then [c] else escapeHidden c.toNat

def quote (text : String) : String :=
  let q := quoteFor text.toList
  String.ofList (q :: text.toList.flatMap (escape q) ++ [q])

/-- A byte between quotes of a kind: only ASCII characters are shown. -/
def escapeByte (quote : Char) (byte : Nat) : List Char :=
  let c := Char.ofNat byte
  match escapeMark? quote c with
  | some escaped => escaped
  | none => if 0x20 ≤ byte && byte < 0x7f then [c] else escapeHidden byte

def quoteBytes (bytes : List Nat) : String :=
  let q := quoteFor (bytes.map Char.ofNat)
  String.ofList ('b' :: q :: bytes.flatMap (escapeByte q) ++ [q])

end DiceCalculator.Quoted
