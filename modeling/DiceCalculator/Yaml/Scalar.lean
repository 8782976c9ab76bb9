import DiceCalculator.Text.Base64
import DiceCalculator.Text.Real
import DiceCalculator.Text.SmallLetters
import DiceCalculator.Yaml.Tag
import DiceCalculator.Yaml.Value
/-!
# What scalars stand for

The tag of a scalar decides how its text is read. Numbers may have underscores anywhere. An integer
may be binary, octal, hexadecimal or in base sixty, and a number with a point may be in base sixty
too. Tags can be given to texts that do not have their form; many of these are read nevertheless.
-/
namespace DiceCalculator.Yaml.Scalar

def truthValues : List (String × Bool) :=
  [("yes", true), ("no", false), ("true", true), ("false", false), ("on", true), ("off", false)]

/-- The truth value of a word, in letters of any size. -/
def bool (text : List Char) : Except Flaw Bool :=
  let word := SmallLetters.lower text
  match truthValues.lookup (String.ofList word) with
  | some value => .ok value
  | none => .error (.noTruthValue (.ofChars word))

/-- An integer in one of the usual notations for a base. -/
def intIn (base : Nat) (text : List Char) : Except Flaw Int :=
  match Numeral.parseIn? base text with
  | some n => .ok n
  | none => .error (.notInteger base (.ofChars text))

/-- The size of an integer; what stands before its digits decides on the base. -/
def intSize (text : List Char) : Except Flaw Int :=
  match text with
  | [] => .error .emptyNumber
  | ['0'] => .ok 0
  | '0' :: 'b' :: digits => intIn 2 digits
  | '0' :: 'x' :: digits => intIn 16 digits
  | '0' :: digits => intIn 8 ('0' :: digits)
  | text =>
    if text.contains ':' then do
      let places ← (Tag.splitColons text).mapM (intIn 10)
      pure (places.foldl (fun n place => 60 * n + place) 0)
    else intIn 10 text

def dropUnderscores (text : List Char) : List Char := text.filter (· != '_')

def int (text : List Char) : Except Flaw Int := do
  let text := dropUnderscores text
  if text.isEmpty then throw .emptyNumber
  let (negative, size) := Numeral.splitSign text
  let n ← intSize size
  pure (if negative then -n else n)

def real (text : List Char) : Except Flaw Float :=
  match Real.parse? text with
  | some x => .ok x
  | none => .error (.notReal (.ofChars text))

/-- The sum of the places of a number in base sixty, from the last place on. -/
def sumPlaces (sum : Float) (base : Nat) : List Float → Except Flaw Float
  | [] => .ok sum
  | place :: places =>
    let factor := Binary64.ofInt base
    if (Binary64.quantity factor).isFinite then
      sumPlaces (sum + place * factor) (60 * base) places
    else .error .placeTooLarge

def float (text : List Char) : Except Flaw Float := do
  let text := SmallLetters.lower (dropUnderscores text)
  if text.isEmpty then throw .emptyNumber
  let (negative, size) := Numeral.splitSign text
  let word := String.ofList size
  if word == ".inf" then pure (Real.infinity negative)
  else if word == ".nan" then pure Real.undefined
  else
    let x ← if size.contains ':' then do
        let places ← (Tag.splitColons size).mapM real
        sumPlaces 0.0 1 places.reverse
      else real size
    pure (if negative then -x else x)

/-- The text is the word for no number, which always means the same object. -/
def isUndefinedWord (text : List Char) : Bool :=
  let size := (Numeral.splitSign (SmallLetters.lower (dropUnderscores text))).2
  String.ofList size == ".nan"

def binary (text : List Char) : Except Flaw (List Nat) :=
  if text.all fun c => c.toNat < 0x80 then
    match Base64.decode? text with
    | some bytes => .ok bytes
    | none => .error .malformed
  else .error .malformed

/-- The value of a text without halves of surrogate pairs. -/
def ofChars (tag : Tag) (text : List Char) : Except Flaw Value :=
  match tag with
  | .null => .ok .null
  | .bool => .bool <$> bool text
  | .int => .int <$> int text
  | .float => .float <$> float text
  | .binary => .bytes <$> binary text
  | .timestamp => .time <$> Timestamp.parse (Tag.dropLineFeed text)
  | .str => .ok (.text (String.ofList text))
  | _ => .error .malformed

/-- The value of a text that is no string: only as a text does it have one. -/
def ofIllFormed (tag : Tag) (text : CodePoints) : Except Flaw Value :=
  match tag with
  | .null => .ok .null
  | .str => .ok (.illFormed text)
  | .bool => .error (.noTruthValue text)
  | .int => .error (.notInteger 10 text)
  | .float => .error (.notReal text)
  | .timestamp => .error .noTime
  | _ => .error .malformed

def value (tag : Tag) (text : CodePoints) : Except Flaw Value :=
  match text.toChars? with
  | some chars => ofChars tag chars
  | none => ofIllFormed tag text

end DiceCalculator.Yaml.Scalar
