import DiceCalculator.Yaml.Scanner
/-!
# Scalars set off by indentation

The lines of a block scalar are those that are indented as much as its first one. They are kept as
they stand, or folded into longer lines.
-/
namespace DiceCalculator.Yaml.Scanner

/-- What happens to the line breaks at the end of a block scalar. -/
inductive Chomping where
  | strip
  | clip
  | keep

/-- The indicators behind the mark of a block scalar: its chomping and its indentation. -/
def blockIndicators : ScanM (Chomping × Option Nat) := do
  let chomping? : ScanM (Option Chomping) := do
    match ← peek 0 with
    | '-' => do forward; pure (some .strip)
    | '+' => do forward; pure (some .keep)
    | _ => pure none
  let indentation? : ScanM (Option Nat) := do
    let c ← peek 0
    if c.isDigit then
      if c == '0' then reject
      forward
      pure (some (c.toNat - '0'.toNat))
    else pure none
  let before ← chomping?
  let indentation ← indentation?
  let behind ← if before.isNone && indentation.isSome then chomping? else pure none
  if !((← peek 0) == ' ' || endsLine (← peek 0)) then reject
  pure ((before <|> behind).getD .clip, indentation)

/-- Empty lines before a block scalar, and the greatest indentation among them and its first line.
-/
def blockIndentation : Nat → Nat → List Char → ScanM (List Char × Nat)
  | 0, deepest, breaks => pure (breaks, deepest)
  | fuel + 1, deepest, breaks => do
    if (← peek 0) == ' ' then
      forward
      blockIndentation fuel (max deepest (← get).column) breaks
    else
      let more ← lineBreak
      if more.isEmpty then pure (breaks, deepest)
      else blockIndentation fuel deepest (breaks ++ more)

def blanksTo (column : Nat) : ScanM Unit := do
  let s ← get
  let blanks := (s.rest.take (column - s.column)).takeWhile (· == ' ')
  forwardBy blanks.length

def blockBreaks (indent : Nat) : Nat → ScanM (List Char)
  | 0 => pure []
  | fuel + 1 => do
    blanksTo indent
    let more ← lineBreak
    if more.isEmpty then pure [] else pure (more ++ (← blockBreaks indent fuel))

/-- The lines of a block scalar, with the breaks that stand before each and the last break. -/
def blockLines (folded : Bool) (chomping : Chomping) (indent : Nat) :
    Nat → List Char → ScanM (List Char)
  | 0, _ => pure []
  | fuel + 1, breaks => do
    let leadingBlank := (← peek 0) == ' ' || (← peek 0) == '\t'
    let line ← takeWhile (!endsLine ·)
    let last ← lineBreak
    let later ← blockBreaks indent fuel
    let c ← peek 0
    if (← get).column == indent && c != ending then
      let joint :=
        if folded && last == ['\n'] && !leadingBlank && !(c == ' ' || c == '\t') then
          if later.isEmpty then [' '] else []
        else last
      pure (breaks ++ line ++ joint ++ (← blockLines folded chomping indent fuel later))
    else
      let tail := match chomping with
        | .strip => []
        | .clip => last
        | .keep => last ++ later
      pure (breaks ++ line ++ tail)

def blockScalar (folded : Bool) : ScanM Unit := do
  allowKey true
  dropKey
  forward
  let (chomping, indentation) ← blockIndicators
  endOfLine
  let s ← get
  let least := max (s.indent + 1) 1
  let fuel := s.stepsLeft
  let (breaks, indent) ← match indentation with
    | none => do
      let (breaks, deepest) ← blockIndentation fuel 0 []
      pure (breaks, max least.toNat deepest)
    | some n => do
      let indent := least.toNat + n - 1
      pure (← blockBreaks indent fuel, indent)
  let text ←
    if (← get).column == indent && (← peek 0) != ending then
      blockLines folded chomping indent fuel breaks
    else
      pure (match chomping with
        | .keep => breaks
        | _ => [])
  emit (.scalar false (.ofChars text))

end DiceCalculator.Yaml.Scanner
