import DiceCalculator.Yaml.Scanner
/-!
# Scalars without quotes

A plain scalar may go on over several lines. A line break within it counts as a blank, and further
ones count as line breaks.
-/
namespace DiceCalculator.Yaml.Scanner

/-- Line breaks and blanks between the lines of a plain scalar, if the scalar goes on behind them.
-/
def plainBreaks : Nat → List Char → ScanM (Option (List Char))
  | 0, breaks => pure (some breaks)
  | fuel + 1, breaks => do
    if atDocumentMark (← get).rest && (← get).column == 0 then pure none
    else
      let _ ← takeWhile (· == ' ')
      let more ← lineBreak
      if more.isEmpty then pure (some breaks) else plainBreaks fuel (breaks ++ more)

/-- What stands between two pieces of a plain scalar: blanks, or folded line breaks. -/
def plainSpaces (fuel : Nat) : ScanM (Option (List Char)) := do
  let blanks ← takeWhile (· == ' ')
  let first ← lineBreak
  if first.isEmpty then pure (some blanks)
  else
    allowKey true
    match ← plainBreaks fuel [] with
    | none => pure none
    | some breaks =>
      let head := if first != ['\n'] then first else if breaks.isEmpty then [' '] else []
      pure (some (head ++ breaks))

def isFlowMark (c : Char) : Bool := [',', '[', ']', '{', '}'].contains c

/-- The length of the piece of a plain scalar at the front of the text. -/
def plainLength (inFlow : Bool) : List Char → Nat
  | [] => 0
  | c :: rest =>
    let next := rest.headD ending
    if endsWord c || (c == ':' && (endsWord next || (inFlow && isFlowMark next))) ||
        (inFlow && (isFlowMark c || c == '?')) then 0
    else plainLength inFlow rest + 1

/-- The pieces of a plain scalar, with the blanks before each one but the first. -/
def plainPieces (indent : Int) : Nat → List Char → ScanM (List Char)
  | 0, _ => pure []
  | fuel + 1, spaces => do
    let s ← get
    let length := plainLength (s.flowLevel != 0) s.rest
    if (← peek 0) == '#' || length == 0 then pure []
    else
      let piece := s.rest.take length
      allowKey false
      forwardBy length
      let between ← plainSpaces fuel
      let later ← match between with
        | none => pure []
        | some [] => pure []
        | some between => do
          let s ← get
          if (← peek 0) == '#' || (s.flowLevel == 0 && (s.column : Int) < indent) then pure []
          else plainPieces indent fuel between
      pure (spaces ++ piece ++ later)

def plainScalar : ScanM Unit := do
  saveKey
  allowKey false
  let s ← get
  let text ← plainPieces (s.indent + 1) s.stepsLeft []
  emit (.scalar true (.ofChars text))

end DiceCalculator.Yaml.Scanner
