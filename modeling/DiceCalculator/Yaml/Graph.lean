import DiceCalculator.Yaml.Tag
/-!
# The nodes of a document

A document is a graph of nodes: a reference makes a node part of several collections, or even of
itself. Every node has a tag that says what it stands for.
-/
namespace DiceCalculator.Yaml

abbrev NodeId := Nat

/-- The parts of a node: the text of a scalar, or the nodes of a collection. -/
inductive Content where
  | scalar (text : CodePoints)
  | sequence (items : List NodeId)
  | mapping (entries : List (NodeId × NodeId))
  deriving DecidableEq, Repr

/-- A node of a document. -/
structure Node where
  tag : Tag
  content : Content
  deriving DecidableEq, Repr

/-- The nodes of a document, in the order in which they begin. -/
abbrev Graph := Array Node

namespace Graph

def content (graph : Graph) (id : NodeId) : Content :=
  match graph[id]? with
  | some node => node.content
  | none => .scalar []

def tag (graph : Graph) (id : NodeId) : Tag :=
  match graph[id]? with
  | some node => node.tag
  | none => .other

def setContent (graph : Graph) (id : NodeId) (content : Content) : Graph :=
  graph.modify id fun node => { node with content := content }

def setTag (graph : Graph) (id : NodeId) (tag : Tag) : Graph :=
  graph.modify id fun node => { node with tag := tag }

def entries (graph : Graph) (id : NodeId) : List (NodeId × NodeId) :=
  match graph.content id with
  | .mapping entries => entries
  | _ => []

end Graph

end DiceCalculator.Yaml
