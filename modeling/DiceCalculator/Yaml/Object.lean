import DiceCalculator.Yaml.Document
import DiceCalculator.Yaml.Merge
import DiceCalculator.Yaml.Scalar
import DiceCalculator.Yaml.SetOrder
/-!
# From nodes to values

Each node of a document is made into one object. A collection is made before its members are, and
the members of collections are filled in by turns: first those of the root, then those of its
members, and so on. In the end the objects are unfolded into a value; a collection that is met
within itself is cut off.
-/
namespace DiceCalculator.Yaml

/-- What a node has been made into: a scalar, or the collection of the node. Two scalars with one
identity are the same object. -/
inductive Item where
  | scalar (value : Value) (identity : Nat)
  | collection (node : NodeId)

namespace Item

def isKey : Item → Bool
  | scalar .. => true
  | collection _ => false

def sameKey : Item → Item → Bool
  | scalar a i, scalar b j => i == j || a.sameKey b
  | _, _ => false

def put (key value : Item) : List (Item × Item) → List (Item × Item)
  | [] => [(key, value)]
  | (k, v) :: rest => if k.sameKey key then (k, value) :: rest else (k, v) :: put key value rest

end Item

/-- What a collection holds. -/
inductive Members where
  | sequence (items : List Item)
  | mapping (entries : List (Item × Item))
  | set (items : List Item)
  | pairs (entries : List (Item × Item))

/-- The work on a document: its nodes, what each has been made into, the members of collections, and
the collections that wait for their members. -/
structure Workshop where
  graph : Graph
  made : Array (Option Item)
  members : Array Members
  waiting : List NodeId

abbrev MakeM := StateT Workshop (Except Flaw)

namespace Object

/-- The text of a node where a scalar has to stand. A mapping may give it under an equals sign. -/
def textOf (graph : Graph) : Nat → NodeId → Option CodePoints
  | 0, _ => none
  | fuel + 1, id =>
    match graph.content id with
    | .scalar text => some text
    | .mapping entries =>
      match entries.find? fun (key, _) => graph.tag key == .value with
      | some (_, value) => textOf graph fuel value
      | none => none
    | .sequence _ => none

/-- The identity of a scalar. The word for no number always means the same object. -/
def identity (tag : Tag) (id : NodeId) (text : CodePoints) : Nat :=
  match tag, text.toChars? with
  | .float, some chars => if Scalar.isUndefinedWord chars then 0 else id + 1
  | _, _ => id + 1

def scalar (graph : Graph) (id : NodeId) : Except Flaw Item := do
  let tag := graph.tag id
  match textOf graph (graph.size + 1) id with
  | none => throw .malformed
  | some text =>
    if tag == .timestamp && Merge.isMapping graph id then throw .timeOfMapping
    let value ← Scalar.value tag text
    pure (.scalar value (identity tag id text))

def collectionTags : List Tag := [.seq, .map, .set, .omap, .pairs]

def item (id : NodeId) : MakeM Item := do
  let shop ← get
  match shop.made[id]? with
  | some (some item) => pure item
  | _ =>
    let item ←
      if collectionTags.contains (shop.graph.tag id) then do
        modify fun shop => { shop with waiting := id :: shop.waiting }
        pure (Item.collection id)
      else scalar shop.graph id
    modify fun shop => { shop with made := shop.made.setIfInBounds id (some item) }
    pure item

/-- The items of a sequence; no other node has any. -/
def itemsOf (id : NodeId) : MakeM (List NodeId) := do
  match (← get).graph.content id with
  | .sequence items => pure items
  | _ => throw .malformed

def entriesOf (id : NodeId) : MakeM (List (NodeId × NodeId)) := do
  let (entries, graph) ← (Merge.entriesOf id).run (← get).graph
  modify fun shop => { shop with graph := graph }
  pure entries

/-- Makes the entries of a mapping. A collection cannot be a key. -/
def mapping (id : NodeId) : MakeM (List (Item × Item)) := do
  (← entriesOf id).foldlM (fun made (key, value) => do
    let key ← item key
    if !key.isKey then throw .malformed
    let value ← item value
    pure (Item.put key value made)) []

/-- Makes a pair from a mapping of one entry; merge keys have no meaning in it. -/
def pair (id : NodeId) : MakeM (Item × Item) := do
  match (← get).graph.content id with
  | .mapping [(key, value)] => do
    let key ← item key
    let value ← item value
    pure (key, value)
  | _ => throw .malformed

def membersOf (id : NodeId) : MakeM Members := do
  match (← get).graph.tag id with
  | .map => .mapping <$> mapping id
  | .set => do pure (.set ((← mapping id).map (·.1)))
  | .omap => do pure (.pairs (← (← itemsOf id).mapM pair))
  | .pairs => do pure (.pairs (← (← itemsOf id).mapM pair))
  | _ => do pure (.sequence (← (← itemsOf id).mapM item))

def fill (id : NodeId) : MakeM Unit := do
  let members ← membersOf id
  modify fun shop => { shop with members := shop.members.setIfInBounds id members }

/-- Fills in the members of all collections that wait, and then of those that these contain. -/
def fillAll : Nat → MakeM Unit
  | 0 => pure ()
  | fuel + 1 => do
    let waiting := (← get).waiting.reverse
    if !waiting.isEmpty then
      modify fun shop => { shop with waiting := [] }
      waiting.forM fill
      fillAll fuel

/-- Makes the object of a node with all that it contains. -/
def make (root : NodeId) : MakeM Item := do
  let item ← item root
  fillAll ((← get).graph.size + 1)
  pure item

/-- The values of collections that have been unfolded and do not contain themselves. -/
abbrev Unfolded := Array (Option Value)

/-- Unfolds the value of an item within the collections on a path. The answer also says whether a
collection has been cut off in it. -/
def unfold (members : Array Members) :
    Nat → List NodeId → Item → StateM Unfolded (Value × Bool)
  | _, _, .scalar value _ => pure (value, false)
  | 0, _, .collection _ => pure (.null, false)
  | fuel + 1, path, .collection id => do
    match (← get)[id]? with
    | some (some value) => pure (value, false)
    | _ =>
      let isWithin := path.contains id
      let inner (items : List Item) : StateM Unfolded (List Value × Bool) := do
        let parts ← items.mapM fun item => unfold members fuel (id :: path) item
        pure (parts.map (·.1), parts.any (·.2))
      let (value, isCut) ← match members[id]? with
        | some (.sequence items) =>
          if isWithin then pure (.again .square, true)
          else do
            let (items, isCut) ← inner items
            pure (.sequence items, isCut)
        | some (.set items) => do
          let (items, isCut) ← inner items
          pure (.set (SetOrder.arrange items), isCut)
        | some (.mapping entries) =>
          if isWithin then pure (.again .curly, true)
          else do
            let (keys, _) ← inner (entries.map (·.1))
            let (values, isCut) ← inner (entries.map (·.2))
            pure (.mapping (keys.zip values), isCut)
        | some (.pairs entries) =>
          if isWithin then pure (.again .square, true)
          else do
            let (keys, isCutInKey) ← inner (entries.map (·.1))
            let (values, isCut) ← inner (entries.map (·.2))
            pure (.pairs (keys.zip values), isCutInKey || isCut)
        | none => pure (.null, false)
      if !isCut then modify (·.setIfInBounds id (some value))
      pure (value, isCut)

end Object

/-- The value of the document in a text. A text without a document has the value of an empty one,
which is nothing. -/
def Value.parse (text : String) : Except Flaw Value := do
  match ← Document.ofText text with
  | (_, none) => pure .null
  | (graph, some root) => do
    let size := graph.size
    let shop : Workshop :=
      ⟨graph, Array.replicate size none, Array.replicate size (.sequence []), []⟩
    let (item, shop) ← (Object.make root).run shop
    let ((value, _), _) :=
      (Object.unfold shop.members (size + 1) [] item).run (Array.replicate size none)
    pure value

end DiceCalculator.Yaml
