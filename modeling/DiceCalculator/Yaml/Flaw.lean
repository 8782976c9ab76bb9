import DiceCalculator.Text.Numeral
import DiceCalculator.Timestamp
/-!
# What can be wrong with a document

A text that breaks the rules of documents, or whose parts have no value together, is malformed. A
few texts follow the rules and yet hold something that cannot be worked out; each of these flaws has
a message of its own.
-/
namespace DiceCalculator.Yaml

/-- Why a text has no value. -/
inductive Flaw where
  | malformed
  /-- An escape names a number beyond the last character. -/
  | noCharacter
  /-- An escape names a number that does not even fit into a signed word of 32 bits. -/
  | escapeTooLarge
  | noTruthValue (word : CodePoints)
  | emptyNumber
  | notInteger (base : Nat) (text : CodePoints)
  | notReal (text : CodePoints)
  /-- A number in base sixty has so many places that the value of the first is no double. -/
  | placeTooLarge
  | noTime
  /-- A mapping stands where the text of a time has to stand. -/
  | timeOfMapping
  | badTime (fault : TimeFault)
  deriving DecidableEq, Repr

def Flaw.message : Flaw → String
  | malformed => "not valid"
  | noCharacter => "chr() arg not in range(0x110000)"
  | escapeTooLarge => "Python int too large to convert to C int"
  | noTruthValue word => word.quote
  | emptyNumber => "string index out of range"
  | notInteger base text => Numeral.refusal base text.quote
  | notReal text => "could not convert string to float: " ++ text.quote
  | placeTooLarge => "int too large to convert to float"
  | noTime => "'NoneType' object has no attribute 'groupdict'"
  | timeOfMapping => "expected string or bytes-like object, got 'list'"
  | badTime fault => fault.message

end DiceCalculator.Yaml
