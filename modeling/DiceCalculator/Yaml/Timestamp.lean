import DiceCalculator.Yaml.Flaw
/-!
# Texts of dates and times

A date is written as a year of four digits, a month and a day. A time of the day may follow, then a
fraction of the second, and then the distance from universal time.
-/
namespace DiceCalculator.Yaml

/-- A date alone, or a moment. -/
inductive Timestamp where
  | date (date : Date)
  | moment (moment : Moment)
  deriving DecidableEq, Repr

namespace Timestamp

/-- Reads a number of at least and at most so many digits. -/
def digits? (least most : Nat) (text : List Char) : Option (Nat × List Char) :=
  let taken := (text.take most).takeWhile Char.isDigit
  if taken.length < least then none
  else some (taken.foldl (fun n c => 10 * n + (c.toNat - '0'.toNat)) 0, text.drop taken.length)

def mark? (mark : Char) : List Char → Option (List Char)
  | [] => none
  | c :: rest => if c == mark then some rest else none

def isBlank (c : Char) : Bool := c == ' ' || c == '\t'

/-- Passes what stands between a date and a time: a letter, or blanks. -/
def gap? : List Char → Option (List Char)
  | [] => none
  | c :: rest =>
    if c == 'T' || c == 't' then some rest
    else if isBlank c then some (rest.dropWhile isBlank)
    else none

/-- The microseconds of a fraction of a second; further digits are dropped. -/
def microseconds (fraction : List Char) : Nat :=
  let kept := fraction.take 6
  kept.foldl (fun n c => 10 * n + (c.toNat - '0'.toNat)) 0 * Nat.pow 10 (6 - kept.length)

/-- Reads the fraction of a second, if there is one. -/
def fraction : List Char → Nat × List Char
  | '.' :: rest => (microseconds (rest.takeWhile Char.isDigit), rest.dropWhile Char.isDigit)
  | rest => (0, rest)

/-- The distance from universal time at the end of a text; it may be missing. -/
def offset? (text : List Char) : Option (Option Int) :=
  match text.dropWhile isBlank with
  | [] => if text.isEmpty then some none else none
  | ['Z'] => some (some 0)
  | sign :: rest => do
    if sign != '+' && sign != '-' then none
    let (hours, rest) ← digits? 1 2 rest
    let (minutes, rest) ← match rest with
      | ':' :: rest => digits? 2 2 rest
      | rest => some (0, rest)
    if !rest.isEmpty then none
    some (some (Numeral.signed (sign == '-') ((hours * 60 + minutes) * 60)))

def date? (text : List Char) : Option (Date × List Char) := do
  let (year, rest) ← digits? 4 4 text
  let (month, rest) ← digits? 1 2 (← mark? '-' rest)
  let (day, rest) ← digits? 1 2 (← mark? '-' rest)
  some (⟨year, month, day⟩, rest)

/-- The date or the moment that a text names; it may be none of the calendar. -/
def read? (text : List Char) : Option Timestamp := do
  let (d, rest) ← date? text
  if rest.isEmpty then some (.date d)
  else
    let (hour, rest) ← digits? 1 2 (← gap? rest)
    let (minute, rest) ← digits? 2 2 (← mark? ':' rest)
    let (second, rest) ← digits? 2 2 (← mark? ':' rest)
    let (microsecond, rest) := fraction rest
    let offset ← offset? rest
    some (.moment ⟨d, hour, minute, second, microsecond, offset⟩)

/-- The form of a plain scalar that is a date or a moment: in a date alone, month and day have two
digits. -/
def hasForm (text : List Char) : Bool :=
  match read? text with
  | some (.date _) => text.length == 10
  | some (.moment _) => true
  | none => false

/-- The date or the moment that a text stands for. -/
def parse (text : List Char) : Except Flaw Timestamp :=
  match read? text with
  | none => .error .noTime
  | some (.date d) =>
    match d.check with
    | .ok () => .ok (.date d)
    | .error fault => .error (.badTime fault)
  | some (.moment m) =>
    match m.check with
    | .ok () => .ok (.moment m)
    | .error fault => .error (.badTime fault)

def describe : Timestamp → String
  | date d => d.describe
  | moment m => m.describe

/-- Two timestamps are the same. A date alone is never the same as a moment. -/
def same : Timestamp → Timestamp → Bool
  | date a, date b => a == b
  | moment a, moment b => a.same b
  | _, _ => false

end Timestamp

end DiceCalculator.Yaml
