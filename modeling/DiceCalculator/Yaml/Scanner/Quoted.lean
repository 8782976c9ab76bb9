import DiceCalculator.Yaml.Scanner
/-!
# Scalars in quotes

Between single quotes only a doubled quote is special; between double quotes a backslash begins an
escape. Line breaks are folded as in plain scalars.
-/
namespace DiceCalculator.Yaml.Scanner

def escapes : List (Char × Char) :=
  [('0', '\x00'), ('a', '\x07'), ('b', '\x08'), ('t', '\t'), ('\t', '\t'), ('n', '\n'),
    ('v', '\x0b'), ('f', '\x0c'), ('r', '\r'), ('e', '\x1b'), (' ', ' '), ('"', '"'),
    ('\\', '\\'), ('/', '/'), ('N', '\x85'), ('_', '\xa0'), ('L', '\u2028'), ('P', '\u2029')]

/-- How many hexadecimal digits follow a letter behind a backslash. -/
def escapeLengths : List (Char × Nat) := [('x', 2), ('u', 4), ('U', 8)]

def hexNumber? (digits : List Char) : Option Nat :=
  digits.foldl (fun n c => do
    let n ← n
    let d ← if c.toNat < 0x80 then Numeral.digitIn? 16 c else none
    pure (16 * n + d)) (some 0)

/-- The number that an escape names, if it is not beyond all characters. Halves of surrogate pairs
are let through. -/
def codePoint (n : Nat) : ScanM Nat :=
  if n < 0x110000 then pure n
  else if n < 0x80000000 then throw .noCharacter
  else throw .escapeTooLarge

/-- Blanks and line breaks within quotes, behind a first line break. -/
def quotedBreaks : Nat → ScanM (List Char)
  | 0 => pure []
  | fuel + 1 => do
    if atDocumentMark (← get).rest && (← get).column == 0 then reject
    let _ ← takeWhile fun c => c == ' ' || c == '\t'
    let more ← lineBreak
    if more.isEmpty then pure [] else pure (more ++ (← quotedBreaks fuel))

/-- What a backslash within double quotes and the characters behind it stand for. -/
def escaped (fuel : Nat) : ScanM CodePoints := do
  forward
  let c ← peek 0
  match escapes.lookup c, escapeLengths.lookup c with
  | some d, _ => do
    forward
    pure [d.toNat]
  | none, some length => do
    forward
    let digits := (← get).rest.take length
    if digits.length < length then reject
    match hexNumber? digits with
    | none => reject
    | some n =>
      let n ← codePoint n
      forwardBy length
      pure [n]
  | none, none => do
    if !isBreak c then reject
    let _ ← lineBreak
    pure (.ofChars (← quotedBreaks fuel))

def quotedText (quote : Char) : Nat → ScanM CodePoints
  | 0 => reject
  | fuel + 1 => do
    let c ← peek 0
    if c == quote then
      if quote == '\'' && (← peek 1) == '\'' then
        forwardBy 2
        pure ('\''.toNat :: (← quotedText quote fuel))
      else pure []
    else if c == ending then reject
    else if quote == '"' && c == '\\' then
      let piece ← escaped fuel
      pure (piece ++ (← quotedText quote fuel))
    else if c == ' ' || c == '\t' || isBreak c then
      let blanks ← takeWhile fun c => c == ' ' || c == '\t'
      let first ← lineBreak
      let piece ← if first.isEmpty then pure blanks else do
        let breaks ← quotedBreaks fuel
        pure ((if first != ['\n'] then first else if breaks.isEmpty then [' '] else []) ++ breaks)
      pure (.ofChars piece ++ (← quotedText quote fuel))
    else
      forward
      pure (c.toNat :: (← quotedText quote fuel))

def quotedScalar (quote : Char) : ScanM Unit := do
  saveKey
  allowKey false
  forward
  let text ← quotedText quote (← get).stepsLeft
  forward
  emit (.scalar false text)

end DiceCalculator.Yaml.Scanner
