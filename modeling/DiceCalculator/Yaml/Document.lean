import DiceCalculator.Yaml.Graph
import DiceCalculator.Yaml.Scan
/-!
# Reading YAML documents

The nodes of a document are read from its tokens. A text holds at most one document. A name that an
anchor gives to a node stands for the node from its beginning on, so a collection may refer to
itself.
-/
namespace DiceCalculator.Yaml

/-- The reader of a document: the scanner, the nodes that have begun, their names, and what the
handles of tags stand for. -/
structure Reader where
  scanner : Scanner
  graph : Graph
  anchors : List (String × NodeId)
  handles : List (String × String)

abbrev ReadM := StateT Reader (Except Flaw)

namespace Document

def refuse {α : Type} : ReadM α := throw .malformed

def scan {α : Type} (step : ScanM α) : ReadM α := do
  let (result, scanner) ← step.run (← get).scanner
  modify fun r => { r with scanner := scanner }
  pure result

def peek : ReadM (Option Token) := scan Scanner.front

def skip : ReadM Unit := scan Scanner.take

/-- Passes this token if it comes next, and says whether it does. -/
def accept (token : Token) : ReadM Bool := do
  if (← peek) == some token then
    skip
    pure true
  else pure false

def expect (token : Token) : ReadM Unit := do
  if !(← accept token) then refuse

def atAny (tokens : List Token) : ReadM Bool := do
  pure (match ← peek with
    | none => false
    | some token => tokens.contains token)

/-- The next token is one of these, or the text has ended. -/
def atEndOr (tokens : List Token) : ReadM Bool := do
  pure ((← peek).isNone || (← atAny tokens))

/-- What stands before a node: its tag, with the full name, and its anchor. -/
structure Properties where
  tag : Option String
  anchor : Option String

def anchor? : ReadM (Option String) := do
  match ← peek with
  | some (.anchor name) => do
    skip
    pure (some name)
  | _ => pure none

def tag? : ReadM (Option TagName) := do
  match ← peek with
  | some (.tag name) => do
    skip
    pure (some name)
  | _ => pure none

def fullName (name : TagName) : ReadM String := do
  match name.handle with
  | none => pure name.suffix
  | some handle =>
    match (← get).handles.lookup handle with
    | some expansion => pure (expansion ++ name.suffix)
    | none => refuse

/-- Reads the tag and the anchor before a node, each at most once and in any order. -/
def properties : ReadM Properties := do
  let first ← anchor?
  let tag ← tag?
  let anchor ← if first.isNone && tag.isSome then anchor? else pure first
  match tag with
  | none => pure ⟨none, anchor⟩
  | some name => do pure ⟨some (← fullName name), anchor⟩

/-- A mark alone leaves open what a node stands for. -/
def openTag : String := "!"

/-- The tag of a collection; without one it stands for what its kind stands for. -/
def collectionTag (found : Properties) (kind : Tag) : Tag :=
  match found.tag with
  | none => kind
  | some name => if name == openTag then kind else Tag.ofName name

/-- The tag of a scalar. A plain scalar stands for what its form says, and so does any scalar whose
tag leaves it open. -/
def scalarTag (found : Properties) (plain : Bool) (text : CodePoints) : Tag :=
  match found.tag with
  | none => if plain then Tag.ofPlain text else .str
  | some name => if name == openTag then Tag.ofPlain text else Tag.ofName name

/-- Begins a node. A name may be given only once. -/
def begin (found : Properties) (node : Node) : ReadM NodeId := do
  let r ← get
  let id := r.graph.size
  match found.anchor with
  | none => set { r with graph := r.graph.push node }
  | some name =>
    if (r.anchors.lookup name).isSome then refuse
    set { r with graph := r.graph.push node, anchors := (name, id) :: r.anchors }
  pure id

def scalar (found : Properties) (plain : Bool) (text : CodePoints) : ReadM NodeId :=
  begin found ⟨scalarTag found plain text, .scalar text⟩

/-- A scalar that is not there: nothing, unless a tag says otherwise. -/
def missing : ReadM NodeId := scalar ⟨none, none⟩ true []

def close (id : NodeId) (content : Content) : ReadM NodeId := do
  modify fun r => { r with graph := r.graph.setContent id content }
  pure id

def sequence (found : Properties) (items : ReadM (List NodeId)) : ReadM NodeId := do
  let id ← begin found ⟨collectionTag found .seq, .sequence []⟩
  close id (.sequence (← items))

def mapping (found : Properties) (entries : ReadM (List (NodeId × NodeId))) : ReadM NodeId := do
  let id ← begin found ⟨collectionTag found .map, .mapping []⟩
  close id (.mapping (← entries))

/-- The place of a node: within brackets or not, and whether a sequence may stand without
indentation of its own. -/
inductive Place where
  | flow
  | block
  | blockEntry
  deriving DecidableEq

mutual

def node (place : Place) : Nat → ReadM NodeId
  | 0 => refuse
  | fuel + 1 => do
    match ← peek with
    | some (.reference name) => do
      skip
      match (← get).anchors.lookup name with
      | some id => pure id
      | none => refuse
    | _ => content place (← properties) fuel

def content (place : Place) (found : Properties) : Nat → ReadM NodeId
  | 0 => refuse
  | fuel + 1 => do
    match ← peek with
    | some (.scalar plain text) => do
      skip
      scalar found plain text
    | some .flowSequenceStart => sequence found do
      skip
      flowItems true fuel
    | some .flowMappingStart => mapping found do
      skip
      flowEntries true fuel
    | some .blockSequenceStart =>
      if place == .flow then empty found
      else sequence found do
        skip
        blockItems fuel
    | some .blockMappingStart =>
      if place == .flow then empty found
      else mapping found do
        skip
        blockEntries fuel
    | some .blockEntry =>
      if place == .blockEntry then sequence found (plainItems fuel) else empty found
    | _ => empty found

/-- The node of a tag or anchor with nothing behind it; without either, a node has to follow. -/
def empty (found : Properties) : ReadM NodeId := do
  if found.tag.isNone && found.anchor.isNone then refuse
  scalar found true []

/-- Reads a node, or nothing if one of these tokens or the end comes next. -/
def nodeUnless (place : Place) (stops : List Token) : Nat → ReadM NodeId
  | 0 => refuse
  | fuel + 1 => do
    if ← atAny stops then missing else node place fuel

def blockItems : Nat → ReadM (List NodeId)
  | 0 => refuse
  | fuel + 1 => do
    if ← accept .blockEntry then
      let item ← nodeUnless .block [.blockEntry, .blockEnd] fuel
      let items ← blockItems fuel
      pure (item :: items)
    else
      expect .blockEnd
      pure []

/-- Reads the items of a block sequence that is indented no more than the keys around it. -/
def plainItems : Nat → ReadM (List NodeId)
  | 0 => refuse
  | fuel + 1 => do
    if ← accept .blockEntry then
      let item ← nodeUnless .block [.blockEntry, .key, .value, .blockEnd] fuel
      let items ← plainItems fuel
      pure (item :: items)
    else pure []

def blockEntries : Nat → ReadM (List (NodeId × NodeId))
  | 0 => refuse
  | fuel + 1 => do
    if ← accept .key then
      let key ← nodeUnless .blockEntry [.key, .value, .blockEnd] fuel
      let value ← blockValue fuel
      let entries ← blockEntries fuel
      pure ((key, value) :: entries)
    else
      expect .blockEnd
      pure []

/-- Reads a value behind a key of a block mapping. -/
def blockValue : Nat → ReadM NodeId
  | 0 => refuse
  | fuel + 1 => do
    if ← accept .value then nodeUnless .blockEntry [.key, .value, .blockEnd] fuel else missing

/-- Reads a value behind a key within brackets that close with a token. -/
def flowValue (close : Token) : Nat → ReadM NodeId
  | 0 => refuse
  | fuel + 1 => do
    if ← accept .value then nodeUnless .flow [.flowEntry, close] fuel else missing

/-- Reads a mapping of one entry that is an item of a sequence in brackets. -/
def flowPair : Nat → ReadM NodeId
  | 0 => refuse
  | fuel + 1 => mapping ⟨none, none⟩ do
    skip
    let key ← nodeUnless .flow [.value, .flowEntry, .flowSequenceEnd] fuel
    let value ← flowValue .flowSequenceEnd fuel
    pure [(key, value)]

/-- Reads the items of a sequence in brackets. An item may be a mapping of one entry. -/
def flowItems (first : Bool) : Nat → ReadM (List NodeId)
  | 0 => refuse
  | fuel + 1 => do
    if ← accept .flowSequenceEnd then pure []
    else
      if !first then expect .flowEntry
      if ← atAny [.key] then
        let item ← flowPair fuel
        let items ← flowItems false fuel
        pure (item :: items)
      else if ← accept .flowSequenceEnd then pure []
      else
        let item ← node .flow fuel
        let items ← flowItems false fuel
        pure (item :: items)

/-- Reads the entries of a mapping in brackets. A key may stand without a value. -/
def flowEntries (first : Bool) : Nat → ReadM (List (NodeId × NodeId))
  | 0 => refuse
  | fuel + 1 => do
    if ← accept .flowMappingEnd then pure []
    else
      if !first then expect .flowEntry
      if ← accept .key then
        let key ← nodeUnless .flow [.value, .flowEntry, .flowMappingEnd] fuel
        let value ← flowValue .flowMappingEnd fuel
        let entries ← flowEntries false fuel
        pure ((key, value) :: entries)
      else if ← accept .flowMappingEnd then pure []
      else
        let key ← node .flow fuel
        let value ← missing
        let entries ← flowEntries false fuel
        pure ((key, value) :: entries)

end

def skipEnds : Nat → ReadM Unit
  | 0 => pure ()
  | fuel + 1 => do
    if ← accept .documentEnd then skipEnds fuel

/-- Reads the directives before a document. Only documents of version 1 can be read, and only one
version may be given; no handle may get two meanings. -/
def directives (hasVersion : Bool) (handles : List (String × String)) :
    Nat → ReadM (List (String × String))
  | 0 => refuse
  | fuel + 1 => do
    match ← peek with
    | some (.directive (.version major)) => do
      skip
      if hasVersion || major != 1 then refuse
      directives true handles fuel
    | some (.directive (.tagHandle handle expansion)) => do
      skip
      if (handles.lookup handle).isSome then refuse
      directives hasVersion ((handle, expansion) :: handles) fuel
    | some (.directive .other) => do
      skip
      directives hasVersion handles fuel
    | _ => pure handles

def standardHandles : List (String × String) := [("!", "!"), ("!!", Tag.namespaceName)]

def atDirective : ReadM Bool := do
  pure (match ← peek with
    | some (.directive _) => true
    | _ => false)

/-- Reads the mark at the start of a document, and the directives before it. -/
def header (fuel : Nat) : ReadM Unit := do
  let handles ← directives false [] fuel
  modify fun r => { r with handles := handles ++ standardHandles }
  expect .documentStart

/-- Nothing but marks may follow the document of a text. -/
def finish (fuel : Nat) : ReadM Unit := do
  skipEnds fuel
  if (← peek).isSome then
    header fuel
    refuse

/-- Reads the one document of a text, if there is one. It may stand without a mark at its start. -/
def document (fuel : Nat) : ReadM (Option NodeId) := do
  let marked := (← atEndOr [.documentStart]) || (← atDirective)
  if marked then
    if (← peek).isNone then pure none
    else
      header fuel
      let id ←
        if (← atEndOr [.documentStart, .documentEnd]) || (← atDirective) then missing
        else node .block fuel
      finish fuel
      pure (some id)
  else
    let id ← node .block fuel
    finish fuel
    pure (some id)

/-- The nodes of the document in a text, and the one that all others belong to; a text without a
document has none. -/
def ofText (text : String) : Except Flaw (Graph × Option NodeId) := do
  let scanner ← Scanner.ofText text
  let fuel := 8 * scanner.size + 16
  let (root, reader) ← (document fuel).run ⟨scanner, #[], [], standardHandles⟩
  pure (reader.graph, root)

end Document

end DiceCalculator.Yaml
