import DiceCalculator.Yaml.Scanner.Block
import DiceCalculator.Yaml.Scanner.Mark
import DiceCalculator.Yaml.Scanner.Plain
import DiceCalculator.Yaml.Scanner.Quoted
/-!
# Cutting a text into tokens

The first characters of a token decide what it is. Tokens are cut off one by one when a reader asks
for them, so that the first flaw of a text is the one that counts; only where a token may turn out
to be the beginning of a key does the scanner look further. A text with a character that no document
may hold cannot be cut at all.
-/
namespace DiceCalculator.Yaml

namespace Scanner

/-- A character that can begin a plain scalar where it stands. -/
def beginsPlain (inFlow : Bool) (c next : Char) : Bool :=
  !(endsWord c || "-?:,[]\x7b\x7d#&*!|>'\"%@`".toList.contains c) ||
    (!endsWord next && (c == '-' || (!inFlow && (c == '?' || c == ':'))))

/-- The end of the text closes everything that is open. -/
def finish : ScanM Unit := do
  unwind (-1)
  dropKey
  modify fun s => { s with keyAllowed := false, keyPlaces := [], finished := true }

/-- Cuts off the next token, or what comes with it. -/
def next : ScanM Unit := do
  skipToToken (← get).stepsLeft
  dropStaleKeys
  unwind (← get).column
  let s ← get
  let inFlow := s.flowLevel != 0
  let c ← peek 0
  let following ← peek 1
  let marked := endsWord following
  let atStart := s.column == 0
  if c == ending then finish
  else
    if c == '%' && atStart then directive
    else if atStart && atMark '-' s.rest then documentMark .documentStart
    else if atStart && atMark '.' s.rest then documentMark .documentEnd
    else if c == '[' then openFlow .flowSequenceStart
    else if c == '{' then openFlow .flowMappingStart
    else if c == ']' then closeFlow .flowSequenceEnd
    else if c == '}' then closeFlow .flowMappingEnd
    else if c == ',' then flowComma
    else if c == '-' && marked then blockDash
    else if c == '?' && (inFlow || marked) then keyMark
    else if c == ':' && (inFlow || marked) then valueMark
    else if c == '*' then do emit (.reference (← anchorName))
    else if c == '&' then do emit (.anchor (← anchorName))
    else if c == '!' then tag
    else if c == '|' && !inFlow then blockScalar false
    else if c == '>' && !inFlow then blockScalar true
    else if c == '\'' || c == '"' then quotedScalar c
    else if beginsPlain inFlow c following then plainScalar
    else reject

/-- The token to be read next is not there yet, or a key mark may still come before it. -/
def isShort (s : Scanner) : Bool :=
  s.taken == s.tokens.size || s.keyPlaces.any fun (_, place) => place.tokenNumber == s.taken

/-- Cuts off tokens until the one to be read next is settled. -/
def fill : Nat → ScanM Unit
  | 0 => pure ()
  | fuel + 1 => do
    let s ← get
    if s.finished then pure ()
    else
      if s.taken != s.tokens.size then dropStaleKeys
      if (← get).isShort then
        next
        fill fuel

/-- The token to be read next, if the text has not ended. -/
def front : ScanM (Option Token) := do
  fill (← get).stepsLeft
  let s ← get
  pure s.tokens[s.taken]?

def take : ScanM Unit := do
  let _ ← front
  modify fun s => { s with taken := s.taken + 1 }

/-- The scanner before a text that holds no forbidden character. -/
def ofText (text : String) : Except Flaw Scanner :=
  let chars := match text.toList with
    | '\ufeff' :: rest => rest
    | chars => chars
  if chars.all isAllowed then .ok (start chars) else .error .malformed

end Scanner

end DiceCalculator.Yaml
