import DiceCalculator.Distribution
import DiceCalculator.Number.Decimal
import DiceCalculator.Report.Roll
/-!
# The report of a distribution

There is one line for each outcome, with its value and its probability in percent. In colour the
report also shows the expression, the mean, and a bar for each outcome: the most probable outcomes
have the longest bars, and the others are in proportion to them.
-/
namespace DiceCalculator.Report

/-- Text that is filled up with blanks on the left to a width. -/
def padLeft (width : Nat) (text : String) : String :=
  String.ofList (List.replicate (width - text.length) ' ') ++ text

def valueWidth (values : List Int) : Nat :=
  values.foldl (fun width value => max width (toString value).length) 0

/-- What a line needs beside its bar: a margin, the column of values, a blank on either side of the
bar, and the percentage. -/
def fixedWidth (valueWidth : Nat) : Nat := 2 + valueWidth + 1 + 1 + 7

/-- The room for bars on a terminal of some width, if lines are to have at most a given length. -/
def barRoom (terminalWidth lineWidth : Int) (valueWidth : Nat) : Int :=
  max (min terminalWidth lineWidth) (fixedWidth valueWidth) - fixedWidth valueWidth

variable {α : Type} [Weight α]

/-- The greatest probability: the first of those that no other one exceeds. -/
def peak (d : Distribution α) : α :=
  match d.outcomes with
  | [] => Weight.zero
  | first :: rest =>
    rest.foldl (fun top o => if Weight.less top o.probability then o.probability else top)
      first.probability

/-- The length of a bar, without its fractional part. -/
def barLength (top : α) (room : Int) (probability : α) : Except NoInteger Int :=
  (Weight.quantity (Weight.mul (Weight.div probability top) (Weight.ofInt room))).truncate

/-- A bar of a length; a negative length gives no bar. -/
def bar (length : Int) : String := String.ofList (List.replicate length.toNat '▬')

def percentage (probability : α) : String :=
  padLeft 6 (Decimal.fixed 2 (Weight.quantity (Weight.mul probability (Weight.ofInt 100)))) ++ "%"

/-- The line of an outcome; bars are drawn if their scale is given. -/
def outcomeLine (valueWidth : Nat) (scale : Option (α × Int)) (o : Outcome α) :
    Except NoInteger StyledText := do
  let value := StyledText.plain "  " ++
    StyledText.styled true .blue (padLeft valueWidth (toString o.value))
  let bar ← match scale with
    | none => pure []
    | some (top, room) => do
      let length ← barLength top room o.probability
      pure (StyledText.plain " " ++ StyledText.styled false .blue (bar length) ++
        StyledText.plain " ")
  pure (value ++ bar ++ StyledText.plain (percentage o.probability))

def lawHeader (e : Expr) (d : Distribution α) : List StyledText :=
  [header e,
    StyledText.plain "  " ++ StyledText.styled true .cyan "Mean:" ++
      StyledText.plain (" " ++ Decimal.fixed 2 (Weight.quantity d.mean)),
    []]

/-- The report of a distribution on a terminal of some width. -/
def law (e : Expr) (d : Distribution α) (colors : Bool) (terminalWidth lineWidth : Int) :
    Except NoInteger StyledText := do
  let width := valueWidth d.values
  let top := peak d
  let scale := if colors && Weight.less Weight.zero top then
      some (top, barRoom terminalWidth lineWidth width)
    else none
  let lines ← d.outcomes.mapM (outcomeLine width scale)
  pure (StyledText.joinLines ((if colors then lawHeader e d else []) ++ lines))

end DiceCalculator.Report
