import DiceCalculator.Yaml.Scanner.Quoted
/-!
# Marks

Directives, document marks, brackets, commas, dashes, key and value marks, anchors and tags.
-/
namespace DiceCalculator.Yaml.Scanner

def isNameChar (c : Char) : Bool := c.isAlphanum || c == '-' || c == '_'

/-- What may stand behind a word: a blank, or the end of the line or of the text. -/
def endsName (c : Char) : Bool := c == ' ' || endsLine c

def expectNameEnd : ScanM Unit := do
  if !endsName (← peek 0) then reject

/-- The handle of a tag: one mark, or two with letters between them. -/
def tagHandle : ScanM String := do
  if (← peek 0) != '!' then reject
  forward
  if (← peek 0) == ' ' then pure "!"
  else
    let name ← takeWhile isNameChar
    if (← peek 0) != '!' then reject
    forward
    pure (String.ofList ('!' :: name ++ ['!']))

/-- The characters that the full name of a tag is written with. -/
def isTagChar (c : Char) : Bool := c.isAlphanum || "-;/?:@&=+$,_.!~*'()[]%".toList.contains c

/-- The bytes named by percent signs that follow one another. -/
def percentBytes : Nat → ScanM (List Nat)
  | 0 => pure []
  | fuel + 1 => do
    if (← peek 0) != '%' then pure []
    else
      forward
      match hexNumber? ((← get).rest.take 2), (← get).rest.drop 1 with
      | some byte, _ :: _ => do
        forwardBy 2
        pure (byte :: (← percentBytes fuel))
      | _, _ => reject

/-- The pieces of the name of a tag. Bytes named by percent signs have to be whole characters. -/
def tagPieces : Nat → ScanM (List Char)
  | 0 => pure []
  | fuel + 1 => do
    let c ← peek 0
    if c == '%' then
      let bytes ← percentBytes fuel
      match String.fromUTF8? (ByteArray.mk (bytes.map Nat.toUInt8).toArray) with
      | some text => pure (text.toList ++ (← tagPieces fuel))
      | none => reject
    else if isTagChar c then
      forward
      pure (c :: (← tagPieces fuel))
    else pure []

/-- The rest of the name of a tag; there has to be some. -/
def tagSuffix : ScanM String := do
  if !isTagChar (← peek 0) then reject
  pure (String.ofList (← tagPieces (← get).stepsLeft))

def versionDirective : ScanM Directive := do
  let _ ← takeWhile (· == ' ')
  let major ← takeWhile Char.isDigit
  if (← peek 0) != '.' then reject
  forward
  let minor ← takeWhile Char.isDigit
  if major.isEmpty || minor.isEmpty then reject
  expectNameEnd
  pure (.version (major.foldl (fun n c => 10 * n + (c.toNat - '0'.toNat)) 0))

def tagDirective : ScanM Directive := do
  let _ ← takeWhile (· == ' ')
  let handle ← tagHandle
  if (← peek 0) != ' ' then reject
  let _ ← takeWhile (· == ' ')
  let expansion ← tagSuffix
  expectNameEnd
  pure (.tagHandle handle expansion)

/-- A directive. Only versions and handles of tags have a meaning here. -/
def directive : ScanM Unit := do
  unwind (-1)
  dropKey
  allowKey false
  forward
  let name ← takeWhile isNameChar
  if name.isEmpty then reject
  expectNameEnd
  let directive ←
    if String.ofList name == "YAML" then versionDirective
    else if String.ofList name == "TAG" then tagDirective
    else do
      let _ ← takeWhile (!endsLine ·)
      pure .other
  endOfLine
  emit (.directive directive)

def documentMark (token : Token) : ScanM Unit := do
  unwind (-1)
  dropKey
  allowKey false
  forwardBy 3
  emit token

def openFlow (token : Token) : ScanM Unit := do
  saveKey
  modify fun s => { s with flowLevel := s.flowLevel + 1 }
  allowKey true
  forward
  emit token

/-- A closing bracket. One that closes none is left to the reader of the tokens. -/
def closeFlow (token : Token) : ScanM Unit := do
  dropKey
  modify fun s => { s with flowLevel := s.flowLevel - 1 }
  allowKey false
  forward
  emit token

def flowComma : ScanM Unit := do
  allowKey true
  dropKey
  forward
  emit .flowEntry

def blockDash : ScanM Unit := do
  let s ← get
  if s.flowLevel == 0 then
    if !s.keyAllowed then reject
    openBlock s.column .blockSequenceStart s.tokens.size
  allowKey true
  dropKey
  forward
  emit .blockEntry

def keyMark : ScanM Unit := do
  let s ← get
  if s.flowLevel == 0 then
    if !s.keyAllowed then reject
    openBlock s.column .blockMappingStart s.tokens.size
  allowKey (s.flowLevel == 0)
  dropKey
  forward
  emit .key

/-- The mark between a key and its value. A key without a mark of its own gets one now. -/
def valueMark : ScanM Unit := do
  let s ← get
  match s.keyPlaces.lookup s.flowLevel with
  | some place =>
    set { s with
      keyPlaces := s.keyPlaces.filter (·.1 != s.flowLevel)
      tokens := s.tokens.insertIdxIfInBounds place.tokenNumber .key }
    openBlock place.column .blockMappingStart place.tokenNumber
    allowKey false
  | none =>
    if s.flowLevel == 0 then
      if !s.keyAllowed then reject
      openBlock s.column .blockMappingStart s.tokens.size
    allowKey (s.flowLevel == 0)
    dropKey
  forward
  emit .value

/-- The name of an anchor, where it is set or used. -/
def anchorName : ScanM String := do
  saveKey
  allowKey false
  forward
  let name ← takeWhile isNameChar
  let c ← peek 0
  if name.isEmpty || !(endsWord c || "?:,]\x7d%@`".toList.contains c) then reject
  pure (String.ofList name)

/-- A mark stands within the word at the front of the text, behind its first character. -/
def hasHandle (text : List Char) : Bool :=
  ((text.drop 1).takeWhile (!endsName ·)).contains '!'

/-- A tag: a full name in angle brackets, a mark alone, or a handle with the rest of a name. -/
def tag : ScanM Unit := do
  saveKey
  allowKey false
  let following ← peek 1
  let name : TagName ←
    if following == '<' then do
      forwardBy 2
      let suffix ← tagSuffix
      if (← peek 0) != '>' then reject
      forward
      pure ⟨none, suffix⟩
    else if endsWord following then do
      forward
      pure ⟨none, "!"⟩
    else do
      let handle ← if hasHandle (← get).rest then tagHandle else do
        forward
        pure "!"
      pure ⟨some handle, ← tagSuffix⟩
  expectNameEnd
  emit (.tag name)

end DiceCalculator.Yaml.Scanner
