import DiceCalculator.Text.CodePoints
/-!
# Tokens of YAML documents

A document is cut into marks and scalars. Indentation becomes tokens of its own: a block collection
is opened by its first entry and closed by the first line that is indented less.
-/
namespace DiceCalculator.Yaml

/-- A tag as it is written: a handle that stands for the beginning of the full name, if there is
one, and the rest of the name. -/
structure TagName where
  handle : Option String
  suffix : String
  deriving DecidableEq, Repr

/-- A line that begins with a percent sign. -/
inductive Directive where
  | version (major : Nat)
  | tagHandle (handle expansion : String)
  | other
  deriving DecidableEq, Repr

/-- The marks and scalars of a document. -/
inductive Token where
  | directive (directive : Directive)
  | documentStart
  | documentEnd
  | blockSequenceStart
  | blockMappingStart
  | blockEnd
  | flowSequenceStart
  | flowSequenceEnd
  | flowMappingStart
  | flowMappingEnd
  | flowEntry
  | blockEntry
  | key
  | value
  | reference (name : String)
  | anchor (name : String)
  | tag (name : TagName)
  /-- A scalar is plain if it stands neither in quotes nor in lines of its own. -/
  | scalar (plain : Bool) (text : CodePoints)
  deriving DecidableEq, Repr

end DiceCalculator.Yaml
