import DiceCalculator.Number.Decimal
import DiceCalculator.Yaml.Timestamp
/-!
# Values of YAML documents

A document holds scalars and collections. Keys of a mapping keep their order, and a key that is
given again replaces the earlier value. A collection that contains itself is cut off where it comes
again.
-/
namespace DiceCalculator.Yaml

inductive Brackets where
  | square
  | curly
  deriving DecidableEq, Repr

/-- A value of a document. -/
inductive Value where
  | null
  | bool (value : Bool)
  | int (value : Int)
  | float (value : Float)
  | text (value : String)
  /-- A text with halves of surrogate pairs in it, which is no string. -/
  | illFormed (codePoints : CodePoints)
  | bytes (values : List Nat)
  | time (timestamp : Timestamp)
  | sequence (items : List Value)
  | mapping (entries : List (Value × Value))
  | set (members : List Value)
  /-- A sequence of keys with their values, in which keys may come more than once. -/
  | pairs (entries : List (Value × Value))
  /-- A collection within itself. -/
  | again (brackets : Brackets)

namespace Value

/-- The value counts as missing: nothing, no, zero, or empty. -/
def isFalsy : Value → Bool
  | null => true
  | bool value => !value
  | int value => value == 0
  | float value => value == 0.0
  | text value => value.isEmpty
  | illFormed codePoints => codePoints.isEmpty
  | bytes values => values.isEmpty
  | time _ => false
  | sequence items => items.isEmpty
  | mapping entries => entries.isEmpty
  | set members => members.isEmpty
  | pairs entries => entries.isEmpty
  | again _ => false

/-- The number that a value is; the truth values are the numbers one and zero. -/
def quantity? : Value → Option Quantity
  | bool value => some (.ofInt (if value then 1 else 0))
  | int value => some (.ofInt value)
  | float value => some (Binary64.quantity value)
  | _ => none

/-- Two numbers are equal. No number is equal to one that is undefined. -/
def sameNumber : Quantity → Quantity → Bool
  | .finite s n d, .finite s' n' d' => n * d' == n' * d && (n == 0 || s == s')
  | .infinite s, .infinite s' => s == s'
  | _, _ => false

def sameKey (a b : Value) : Bool :=
  match a.quantity?, b.quantity? with
  | some x, some y => sameNumber x y
  | none, none =>
    match a, b with
    | null, null => true
    | text a, text b => a == b
    | illFormed a, illFormed b => a == b
    | bytes a, bytes b => a == b
    | time a, time b => a.same b
    | _, _ => false
  | _, _ => false

def boolText (b : Bool) : String := if b then "True" else "False"

def inSquare (texts : List String) : String := "[" ++ ", ".intercalate texts ++ "]"

def inCurly (texts : List String) : String := "\x7b" ++ ", ".intercalate texts ++ "\x7d"

mutual

/-- The text of a value in messages: strings are quoted. -/
def quoted : Value → String
  | null => "None"
  | bool value => boolText value
  | int value => toString value
  | float value => Decimal.ofFloat value
  | text value => Quoted.quote value
  | illFormed codePoints => codePoints.quote
  | bytes values => Quoted.quoteBytes values
  | time timestamp => timestamp.describe
  | sequence items => inSquare (quotedItems items)
  | mapping entries => inCurly (quotedEntries entries)
  | set members => if members.isEmpty then "set()" else inCurly (quotedItems members)
  | pairs entries => inSquare (quotedPairs entries)
  | again .square => inSquare ["..."]
  | again .curly => inCurly ["..."]

def quotedItems : List Value → List String
  | [] => []
  | item :: items => quoted item :: quotedItems items

def quotedEntries : List (Value × Value) → List String
  | [] => []
  | (key, value) :: entries => (quoted key ++ ": " ++ quoted value) :: quotedEntries entries

def quotedPairs : List (Value × Value) → List String
  | [] => []
  | (key, value) :: entries =>
    ("(" ++ quoted key ++ ", " ++ quoted value ++ ")") :: quotedPairs entries

end

/-- The text of a value where it stands alone: a string has no quotes. -/
def plainText : Value → String
  | text value => value
  | value => quoted value

end Value

end DiceCalculator.Yaml
