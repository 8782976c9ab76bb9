import DiceCalculator.Yaml.Timestamp
/-!
# Tags

A tag says what a node stands for. It is written before the node, or else it follows from the kind
of the node; for a plain scalar it follows from the form of the text. The forms are those of YAML
1.1: `yes` and `off` are truth values, numbers may have underscores, and integers may be binary,
octal, hexadecimal or in base sixty. A line feed at the end of a text does not change its form.
-/
namespace DiceCalculator.Yaml

/-- What a node stands for. Nodes with any other tag have no value. -/
inductive Tag where
  | null
  | bool
  | int
  | float
  | binary
  | timestamp
  | str
  | seq
  | map
  | set
  | omap
  | pairs
  /-- The key under which other mappings are taken in. -/
  | merge
  /-- The key whose value a mapping has where a scalar has to stand. -/
  | value
  | other
  deriving DecidableEq, Repr

namespace Tag

def namespaceName : String := "tag:yaml.org,2002:"

def names : List (String × Tag) :=
  [("null", null), ("bool", bool), ("int", int), ("float", float), ("binary", binary),
    ("timestamp", timestamp), ("str", str), ("seq", seq), ("map", map), ("set", set),
    ("omap", omap), ("pairs", pairs), ("merge", merge), ("value", value)]

def ofName (name : String) : Tag :=
  match names.find? fun (last, _) => name == namespaceName ++ last with
  | some (_, tag) => tag
  | none => other

def truthWords : List String :=
  ["yes", "Yes", "YES", "no", "No", "NO", "true", "True", "TRUE", "false", "False", "FALSE", "on",
    "On", "ON", "off", "Off", "OFF"]

def nullWords : List String := ["~", "null", "Null", "NULL"]

def infinityWords : List String := [".inf", ".Inf", ".INF"]

def undefinedWords : List String := [".nan", ".NaN", ".NAN"]

/-- The marks that would begin another kind of node if they were not in quotes. -/
def markWords : List String := ["!", "&", "*"]

/-- A digit, or the underscore that may stand between digits. -/
def isDigitOrUnderscore (c : Char) : Bool := c.isDigit || c == '_'

/-- The text is not empty and each of its characters is admissible. -/
def allOf (admissible : Char → Bool) (text : List Char) : Bool :=
  !text.isEmpty && text.all admissible

def splitColons : List Char → List (List Char)
  | [] => [[]]
  | c :: rest =>
    if c == ':' then [] :: splitColons rest
    else
      match splitColons rest with
      | [] => [[c]]
      | part :: parts => (c :: part) :: parts

/-- A place in base sixty, of one or two digits. -/
def isSexagesimal : List Char → Bool
  | [a] => a.isDigit
  | [a, b] => '0' ≤ a && a ≤ '5' && b.isDigit
  | _ => false

/-- Digits and underscores that begin with a digit for which a condition holds. -/
def isNumber (first : Char → Bool) : List Char → Bool
  | [] => false
  | c :: rest => c.isDigit && first c && rest.all isDigitOrUnderscore

def isNatural (text : List Char) : Bool :=
  match text with
  | ['0'] => true
  | '0' :: 'b' :: rest => allOf (fun c => c == '0' || c == '1' || c == '_') rest
  | '0' :: 'x' :: rest =>
    allOf (fun c => c == '_' || (c.toNat < 0x80 && (Numeral.digitIn? 16 c).isSome)) rest
  | '0' :: rest => allOf (fun c => ('0' ≤ c && c ≤ '7') || c == '_') rest
  | text =>
    match splitColons text with
    | head :: parts => isNumber (· != '0') head && parts.all isSexagesimal
    | [] => false

def isInteger (text : List Char) : Bool := isNatural (Numeral.splitSign text).2

/-- The form of an exponent, which has a sign; it may be missing. -/
def isExponent : List Char → Bool
  | [] => true
  | e :: sign :: digits =>
    (e == 'e' || e == 'E') && (sign == '+' || sign == '-') && allOf Char.isDigit digits
  | _ => false

/-- The form of a number with a point. Only a number with digits before the point has a sign. -/
def isDecimal (text : List Char) : Bool :=
  let size := (Numeral.splitSign text).2
  let whole := size.takeWhile isDigitOrUnderscore
  match size.dropWhile isDigitOrUnderscore with
  | '.' :: rest =>
    let fraction := rest.takeWhile isDigitOrUnderscore
    let isWhole := isNumber (fun _ => true) whole
    let isBare := text.head? == some '.' && isNumber (fun _ => true) fraction
    (isWhole || isBare) && isExponent (rest.dropWhile isDigitOrUnderscore)
  | _ => false

/-- The form of a number in base sixty with a point in its last place. -/
def isSexagesimalDecimal (text : List Char) : Bool :=
  let size := (Numeral.splitSign text).2
  match size.dropWhile (· != '.'), splitColons (size.takeWhile (· != '.')) with
  | '.' :: fraction, head :: place :: places =>
    isNumber (fun _ => true) head && (place :: places).all isSexagesimal &&
      fraction.all isDigitOrUnderscore
  | _, _ => false

/-- The form of a number that need not be an integer. -/
def isReal (text : List Char) : Bool :=
  isDecimal text || isSexagesimalDecimal text ||
    infinityWords.contains (String.ofList (Numeral.splitSign text).2) ||
    undefinedWords.contains (String.ofList text)

def dropLineFeed (text : List Char) : List Char :=
  match text.reverse with
  | '\n' :: rest => rest.reverse
  | _ => text

/-- The tag that follows from the form of a text. -/
def ofForm (text : List Char) : Tag :=
  let line := dropLineFeed text
  let isAmong (words : List String) : Bool := words.contains (String.ofList line)
  if text.isEmpty || isAmong nullWords then null
  else if isAmong truthWords then bool
  else if isReal line then float
  else if isInteger line then int
  else if isAmong ["<<"] then merge
  else if Timestamp.hasForm line then timestamp
  else if isAmong ["="] then value
  else if isAmong markWords then other
  else str

/-- The tag of a plain scalar. A text that is no string has no form. -/
def ofPlain (text : CodePoints) : Tag :=
  match text.toChars? with
  | some chars => ofForm chars
  | none => str

end Tag

end DiceCalculator.Yaml
