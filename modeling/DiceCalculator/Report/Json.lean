import DiceCalculator.Distribution
import DiceCalculator.Expr.Roll
import DiceCalculator.Number.Decimal
/-!
# Results as JSON

Integers beyond the range in which all readers of JSON are exact are written as strings. Dice of one
size stand under a key made of `d` and the number of sides.
-/
namespace DiceCalculator.Json

/-- The largest integer that a double holds together with all smaller ones. -/
def maxSafeInteger : Int := 9007199254740991

def isSafe (n : Int) : Bool := -maxSafeInteger ≤ n && n ≤ maxSafeInteger

/-- An integer as a number, or as a string if it is too large for one. -/
def integer (n : Int) : String :=
  if isSafe n then toString n else "\"" ++ toString n ++ "\""

def commas (texts : List String) : String := ",".intercalate texts

def list (texts : List String) : String := "[" ++ commas texts ++ "]"

/-- An object with the given keys and values. The keys need no escapes. -/
def object (fields : List (String × String)) : String :=
  "\x7b" ++ commas (fields.map fun (key, value) => "\"" ++ key ++ "\":" ++ value) ++ "\x7d"

def entry (e : Ledger.Entry) : String × String :=
  ("d" ++ toString e.sides, list (e.rolls.toList.map integer))

def roll (result : RollResult) : String :=
  object [("value", integer result.value), ("rolls", object (result.ledger.entries.map entry))]

def integer? : Option Int → String
  | none => "null"
  | some n => integer n

def outcome (o : Outcome Float) : String :=
  object [("value", integer o.value), ("p", Decimal.ofFloat o.probability)]

/-- The text of a distribution. A mean that is not finite is left out; a probability that is not
finite has no text. -/
def distribution? (d : Distribution Float) : Option String :=
  if d.outcomes.all fun o => (Binary64.quantity o.probability).isFinite then
    let mean := d.mean
    let meanText := if (Binary64.quantity mean).isFinite then Decimal.ofFloat mean else "null"
    some (object [("pmf", list (d.outcomes.map outcome)),
      ("statistics",
        object [("min", integer? d.min?), ("mean", meanText), ("max", integer? d.max?)])])
  else none

def outOfRange : String := "Out of range float values are not JSON compliant"

end DiceCalculator.Json
