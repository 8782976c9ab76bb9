import DiceCalculator.Diagnostic
import DiceCalculator.EvalError
import DiceCalculator.Terminal.Layout
/-!
# The report of an error

An error is reported by its message. If it points at a part of a text, an excerpt follows that shows
the text with carets below that part.
-/
namespace DiceCalculator.Report

def errorLine (message : String) : StyledText :=
  StyledText.styled true .red "error:" ++ StyledText.plain " " ++
    StyledText.plain (Markup.shown message)

def margin : StyledText := StyledText.plain "    " ++ StyledText.styled false .blue "|"

/-- The excerpt of a text with carets below a part of it. -/
def excerpt (text : String) (span : Span) : StyledText :=
  StyledText.joinLines
    [[], margin,
      margin ++ StyledText.plain "    " ++ StyledText.plain (Markup.shown text),
      margin ++ StyledText.plain "    " ++ StyledText.plain span.indent ++
        StyledText.styled false .red span.carets]

def evalError (error : EvalError) (colors : Bool) : String :=
  StyledText.print colors (errorLine error.message)

def diagnostic (d : Diagnostic) (colors : Bool) : String :=
  StyledText.print colors (errorLine d.message) ++
    match d.token with
    | none => ""
    | some span => StyledText.print colors (excerpt d.text span)

end DiceCalculator.Report
