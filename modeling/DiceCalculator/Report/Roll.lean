import DiceCalculator.Expr.Roll
import DiceCalculator.Terminal.Layout
/-!
# The report of a roll

In plain form it is the value alone. In colour it shows the expression, the dice of each size by
increasing roll, with lowest and highest rolls marked, and the value.
-/
namespace DiceCalculator.Report

def header (e : Expr) : StyledText :=
  StyledText.styled true .magenta "Expression:" ++ StyledText.plain " " ++
    StyledText.styled false .blue (Markup.shown e.render)

/-- A roll of a die with this number of sides: a one is marked red, the highest roll green. -/
def die (sides roll : Int) : StyledText :=
  if roll = 1 then StyledText.styled false .red (toString roll)
  else if roll = sides then StyledText.styled false .green (toString roll)
  else StyledText.plain (toString roll)

/-- Texts with a comma and a blank between any two. -/
def commaSeparated : List StyledText → StyledText
  | [] => []
  | [text] => text
  | text :: texts => text ++ StyledText.plain ", " ++ commaSeparated texts

/-- The line of all dice with one number of sides. -/
def diceLine (entry : Ledger.Entry) : StyledText :=
  StyledText.plain ("  d" ++ toString entry.sides ++ ": \x7b") ++
    commaSeparated ((entry.rolls.toList.mergeSort (· ≤ ·)).map (die entry.sides)) ++
    StyledText.plain "\x7d"

def roll (e : Expr) (result : RollResult) (colors : Bool) : StyledText :=
  if colors then
    StyledText.joinLines
      ([header e, StyledText.styled true .magenta "Rolls:"] ++ result.ledger.entries.map diceLine ++
        [[], StyledText.styled false .blue (toString result.value)])
  else StyledText.plain (toString result.value)

end DiceCalculator.Report
