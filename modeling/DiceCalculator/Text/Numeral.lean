import DiceCalculator.Text.CodePoints
/-!
# Numerals that people type

An integer may have blanks around it, a sign, and single underscores between its digits. Decimal
digits of all scripts count, and so do the blanks of all scripts. The ASCII separators from U+001C
to U+001F are no blanks here. In bases above ten, letters of the ASCII alphabet go on where the
digits end; the bases 2, 8 and 16 may be announced by a zero and a letter.
-/
namespace DiceCalculator.Numeral

/-- The zeros of all scripts; the digits from one to nine follow each of them. -/
def zeros : List Nat :=
  [0x30, 0x660, 0x6f0, 0x7c0, 0x966, 0x9e6, 0xa66, 0xae6, 0xb66, 0xbe6, 0xc66, 0xce6, 0xd66,
    0xde6, 0xe50, 0xed0, 0xf20, 0x1040, 0x1090, 0x17e0, 0x1810, 0x1946, 0x19d0, 0x1a80, 0x1a90,
    0x1b50, 0x1bb0, 0x1c40, 0x1c50, 0xa620, 0xa8d0, 0xa900, 0xa9d0, 0xa9f0, 0xaa50, 0xabf0,
    0xff10, 0x104a0, 0x10d30, 0x11066, 0x110f0, 0x11136, 0x111d0, 0x112f0, 0x11450, 0x114d0,
    0x11650, 0x116c0, 0x11730, 0x118e0, 0x11950, 0x11c50, 0x11d50, 0x11da0, 0x16a60, 0x16ac0,
    0x16b50, 0x1d7ce, 0x1d7d8, 0x1d7e2, 0x1d7ec, 0x1d7f6, 0x1e140, 0x1e2f0, 0x1e950, 0x1fbf0]

def digit? (c : Char) : Option Nat :=
  (zeros.find? fun first => first ≤ c.toNat && c.toNat < first + 10).map (c.toNat - ·)

/-- The value of an ASCII letter that goes on where the decimal digits end. -/
def letter? (c : Char) : Option Nat :=
  if 'a' ≤ c && c ≤ 'z' then some (c.toNat - 'a'.toNat + 10)
  else if 'A' ≤ c && c ≤ 'Z' then some (c.toNat - 'A'.toNat + 10)
  else none

def digitIn? (base : Nat) (c : Char) : Option Nat :=
  ((digit? c).or (letter? c)).filter (· < base)

def isBlank (c : Char) : Bool :=
  let n := c.toNat
  n == 0x20 || (0x09 ≤ n && n ≤ 0x0d) || n == 0x85 || n == 0xa0 || n == 0x1680 ||
    (0x2000 ≤ n && n ≤ 0x200a) || n == 0x2028 || n == 0x2029 || n == 0x202f || n == 0x205f ||
    n == 0x3000

def trim (text : List Char) : List Char :=
  ((text.dropWhile isBlank).reverse.dropWhile isBlank).reverse

def splitSign : List Char → Bool × List Char
  | '-' :: rest => (true, rest)
  | '+' :: rest => (false, rest)
  | rest => (false, rest)

def signed (negative : Bool) (n : Nat) : Int := if negative then -(n : Int) else n

/-- Reads digits with single underscores between them, behind the number read so far. A digit has to
come next. -/
def digits? (base value : Nat) : List Char → Option Nat
  | [] => none
  | c :: rest =>
    match digitIn? base c with
    | none => none
    | some d =>
      let value := base * value + d
      match rest with
      | [] => some value
      | '_' :: rest => digits? base value rest
      | c :: rest => digits? base value (c :: rest)

def announces (base : Nat) (letter : Char) : Bool :=
  (base == 2 && (letter == 'b' || letter == 'B')) ||
    (base == 8 && (letter == 'o' || letter == 'O')) ||
    (base == 16 && (letter == 'x' || letter == 'X'))

/-- The digits behind the announcement of the base, if there is one; an underscore may part them. -/
def dropAnnouncement (base : Nat) : List Char → List Char
  | '0' :: letter :: rest =>
    if announces base letter then
      match rest with
      | '_' :: rest => rest
      | rest => rest
    else '0' :: letter :: rest
  | text => text

/-- The integer that a numeral in a base stands for. -/
def parseIn? (base : Nat) (text : List Char) : Option Int :=
  let (negative, digits) := splitSign (trim text)
  (digits? base 0 (dropAnnouncement base digits)).map (signed negative)

def parse? (text : String) : Option Int := parseIn? 10 text.toList

/-- The longest part of a quoted text that a message shows. -/
def shownLength : Nat := 200

/-- The message about a text that is no numeral. A long text is cut off. -/
def refusal (base : Nat) (quoted : String) : String :=
  "invalid literal for int() with base " ++ toString base ++ ": " ++
    String.ofList (quoted.toList.take shownLength)

end DiceCalculator.Numeral
