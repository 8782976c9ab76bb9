import DiceCalculator.Yaml.Flaw
import DiceCalculator.Yaml.Token
/-!
# The scanner between two tokens

The scanner keeps the size of the text and its place in it, the columns of the open block
collections and the number of open brackets. A scalar that turns out to be the key of a mapping gets
its key mark afterwards, so the scanner also remembers where keys may have begun. Tokens are cut off
on demand: those before `taken` have been read.
-/
namespace DiceCalculator.Yaml

/-- A place where a key may have begun. A required key is one that only a key mark makes legal. -/
structure KeyPlace where
  tokenNumber : Nat
  required : Bool
  index : Nat
  line : Nat
  column : Nat

/-- The scanner between two tokens. -/
structure Scanner where
  size : Nat
  rest : List Char
  index : Nat
  line : Nat
  column : Nat
  tokens : Array Token
  taken : Nat
  finished : Bool
  flowLevel : Int
  indent : Int
  indents : List Int
  keyAllowed : Bool
  keyPlaces : List (Int × KeyPlace)

/-- A step of the scanner; it fails on a text that is no document. -/
abbrev ScanM := StateT Scanner (Except Flaw)

namespace Scanner

def start (text : List Char) : Scanner :=
  { size := text.length, rest := text, index := 0, line := 0, column := 0
    tokens := #[], taken := 0, finished := false
    flowLevel := 0, indent := -1, indents := [], keyAllowed := true, keyPlaces := [] }

/-- More steps than there are characters left. -/
def stepsLeft (s : Scanner) : Nat := s.size - s.index + 2

def reject {α : Type} : ScanM α := throw .malformed

def isBreak (c : Char) : Bool :=
  c == '\r' || c == '\n' || c == '\x85' || c == '\u2028' || c == '\u2029'

/-- The end of the text, which no character of a document can be. -/
def ending : Char := '\x00'

def endsLine (c : Char) : Bool := c == ending || isBreak c

/-- The end of the text or of a line, or a blank. -/
def endsWord (c : Char) : Bool := c == ' ' || c == '\t' || endsLine c

def isAllowed (c : Char) : Bool :=
  let n := c.toNat
  n == 0x09 || n == 0x0a || n == 0x0d || (0x20 ≤ n && n ≤ 0x7e) || n == 0x85 ||
    (0xa0 ≤ n && n ≤ 0xd7ff) || (0xe000 ≤ n && n ≤ 0xfffd) || 0x10000 ≤ n

def peek (distance : Nat) : ScanM Char := do
  pure ((← get).rest.getD distance ending)

/-- The mark that may stand at the very beginning of a text; it takes up no column anywhere. -/
def byteOrderMark : Char := '\ufeff'

def forward : ScanM Unit := modify fun s =>
  match s.rest with
  | [] => s
  | c :: rest =>
    if isBreak c && !(c == '\r' && rest.head? == some '\n') then
      { s with rest := rest, index := s.index + 1, line := s.line + 1, column := 0 }
    else
      { s with
        rest := rest
        index := s.index + 1
        column := if c == byteOrderMark then s.column else s.column + 1 }

def forwardBy (count : Nat) : ScanM Unit := (List.range count).forM fun _ => forward

/-- Passes the characters of a class and gives them back. -/
def takeWhile (admissible : Char → Bool) : ScanM (List Char) := do
  let taken := (← get).rest.takeWhile admissible
  forwardBy taken.length
  pure taken

/-- Passes a line break, if there is one, and gives back what it stands for. -/
def lineBreak : ScanM (List Char) := do
  let c ← peek 0
  if c == '\r' || c == '\n' || c == '\x85' then
    if c == '\r' && (← peek 1) == '\n' then forwardBy 2 else forward
    pure ['\n']
  else if c == '\u2028' || c == '\u2029' then
    forward
    pure [c]
  else pure []

/-- A mark of three equal characters that begins or ends a document stands at the front. -/
def atMark (c : Char) (text : List Char) : Bool :=
  match text with
  | a :: b :: d :: rest => a == c && b == c && d == c && endsWord (rest.headD ending)
  | _ => false

/-- A mark that begins or ends a document stands at the front. -/
def atDocumentMark (text : List Char) : Bool := atMark '-' text || atMark '.' text

def emit (token : Token) : ScanM Unit :=
  modify fun s => { s with tokens := s.tokens.push token }

/-- Forgets the place where a key may have begun on this level. -/
def dropKey : ScanM Unit := do
  let s ← get
  match s.keyPlaces.lookup s.flowLevel with
  | none => pure ()
  | some place =>
    if place.required then reject
    set { s with keyPlaces := s.keyPlaces.filter (·.1 != s.flowLevel) }

def saveKey : ScanM Unit := do
  let s ← get
  if s.keyAllowed then
    dropKey
    let required := s.flowLevel == 0 && s.indent == s.column
    let place : KeyPlace := ⟨s.tokens.size, required, s.index, s.line, s.column⟩
    modify fun s => { s with keyPlaces := (s.flowLevel, place) :: s.keyPlaces }

/-- The longest distance between the beginning of a key and its mark. -/
def keyReach : Nat := 1024

/-- Forgets keys that began on an earlier line or too far back. -/
def dropStaleKeys : ScanM Unit := do
  let s ← get
  let isStale (place : KeyPlace) : Bool := place.line != s.line || keyReach < s.index - place.index
  if s.keyPlaces.any fun (_, place) => isStale place && place.required then reject
  set { s with keyPlaces := s.keyPlaces.filter fun (_, place) => !isStale place }

/-- Sets whether a key may begin at the next token. -/
def allowKey (allowed : Bool) : ScanM Unit := modify fun s => { s with keyAllowed := allowed }

/-- Closes the block collections that are indented more than a column. -/
def unwindTo (column : Int) : List Int → Int → Array Token → Int × List Int × Array Token
  | [], indent, tokens => (indent, [], tokens)
  | outer :: indents, indent, tokens =>
    if column < indent then unwindTo column indents outer (tokens.push .blockEnd)
    else (indent, outer :: indents, tokens)

/-- Closes block collections, unless brackets are open. -/
def unwind (column : Int) : ScanM Unit := modify fun s =>
  if s.flowLevel != 0 then s
  else
    let (indent, indents, tokens) := unwindTo column s.indents s.indent s.tokens
    { s with indent := indent, indents := indents, tokens := tokens }

/-- Opens a block collection at a column, unless one is open there; its token goes to a place among
the tokens. -/
def openBlock (column : Nat) (token : Token) (place : Nat) : ScanM Unit := modify fun s =>
  if s.flowLevel == 0 && s.indent < (column : Int) then
    { s with
      indent := column
      indents := s.indent :: s.indents
      tokens := s.tokens.insertIdxIfInBounds place token }
  else s

def skipToToken : Nat → ScanM Unit
  | 0 => pure ()
  | fuel + 1 => do
    let _ ← takeWhile (· == ' ')
    if (← peek 0) == '#' then
      let _ ← takeWhile (!endsLine ·)
    if (← lineBreak).isEmpty then pure ()
    else
      if (← get).flowLevel == 0 then allowKey true
      skipToToken fuel

/-- Passes what may stand behind a token on its last line: blanks and a comment. -/
def endOfLine : ScanM Unit := do
  let _ ← takeWhile (· == ' ')
  if (← peek 0) == '#' then
    let _ ← takeWhile (!endsLine ·)
  if !endsLine (← peek 0) then reject
  let _ ← lineBreak

end Scanner

end DiceCalculator.Yaml
