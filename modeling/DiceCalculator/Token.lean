/-!
# Tokens of dice notation

A text is cut into tokens from the left, each the longest that fits, and blanks between tokens are
dropped. Blanks are the space, tab, form feed, carriage return and line feed, and digits are the ten
ASCII digits. The cut ends at the first character that begins no token.
-/
namespace DiceCalculator

/-- What can stand in an expression. Leading zeros of a number do not count. -/
inductive Token where
  | number (value : Nat)
  | plus
  | minus
  | times
  | divide
  | power
  | die
  | openParen
  | closeParen
  deriving DecidableEq, Repr

/-- A token with the place of its first character, counted from 0, and its number of characters. -/
structure Lexeme where
  token : Token
  start : Nat
  length : Nat
  deriving DecidableEq, Repr

/-- The tokens at the front of a text, and the place of the first character that begins none. -/
structure Scan where
  lexemes : List Lexeme
  illegal : Option Nat
  deriving DecidableEq, Repr

namespace Token

def isBlank (c : Char) : Bool :=
  c == ' ' || c == '\t' || c == '\x0c' || c == '\r' || c == '\n'

def decimal (digits : List Char) : Nat :=
  digits.foldl (fun n d => 10 * n + (d.toNat - '0'.toNat)) 0

/-- The longest token at the very front of a text, with its length. -/
def first? : List Char → Option (Token × Nat)
  | [] => none
  | '+' :: _ => some (.plus, 1)
  | '-' :: _ => some (.minus, 1)
  | '*' :: '*' :: _ => some (.power, 2)
  | '*' :: _ => some (.times, 1)
  | '/' :: _ => some (.divide, 1)
  | 'd' :: _ => some (.die, 1)
  | '(' :: _ => some (.openParen, 1)
  | ')' :: _ => some (.closeParen, 1)
  | c :: rest =>
    let digits := (c :: rest).takeWhile Char.isDigit
    if digits.isEmpty then none else some (.number (decimal digits), digits.length)

/-- The tokens of a text whose first character has the given place. -/
def scanFrom (place : Nat) : List Char → Scan
  | [] => ⟨[], none⟩
  | c :: rest =>
    if isBlank c then scanFrom (place + 1) rest
    else
      match first? (c :: rest) with
      | none => ⟨[], some place⟩
      | some (token, length) =>
        let later := scanFrom (place + length) (rest.drop (length - 1))
        ⟨⟨token, place, length⟩ :: later.lexemes, later.illegal⟩
  termination_by text => text.length
  decreasing_by
    all_goals simp only [List.length_drop, List.length_cons]
    all_goals omega

def scan (text : String) : Scan := scanFrom 0 text.toList

end Token

end DiceCalculator
