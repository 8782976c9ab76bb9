import DiceCalculator.Expr.Parse
/-!
# Diagnostics

A diagnostic says what is wrong with a text and, if it can, which part of the text is meant.
-/
namespace DiceCalculator

/-- A part of a text: where it begins, counted from 0, and how long it is. -/
structure Span where
  start : Int
  length : Int
  deriving DecidableEq, Repr

/-- A message about a text. -/
structure Diagnostic where
  message : String
  text : String
  token : Option Span
  deriving DecidableEq, Repr

namespace Span

/-- The blanks that bring a mark below the first character of the part. -/
def indent (span : Span) : String := String.ofList (List.replicate span.start.toNat ' ')

/-- The mark below the part: a caret for each character, and at least one. -/
def carets (span : Span) : String := String.ofList (List.replicate (max span.length 1).toNat '^')

end Span

namespace Diagnostic

def ofParseError (text : String) (error : ParseError) : Diagnostic :=
  ⟨error.message, text,
    match error with
    | .unexpectedEnd => none
    | .unexpectedToken start length => some ⟨start, length⟩⟩

def position (d : Diagnostic) : Option Int := d.token.map (·.start + 1)

def caret (d : Diagnostic) : String :=
  match d.token with
  | none => ""
  | some span => d.text ++ "\n" ++ span.indent ++ span.carets

end Diagnostic

end DiceCalculator
