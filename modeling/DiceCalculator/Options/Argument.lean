import DiceCalculator.Options
/-!
# Arguments

All arguments are sorted into options and others before any option takes effect. Options may be
shortened as long as they stay unique, and their values may follow an equals sign. Negative numbers,
texts with blanks and everything behind a double dash are no options.
-/
namespace DiceCalculator

/-- What an argument is before the options take effect. -/
inductive Argument where
  | plain (text : String)
  | doubleDash
  /-- An option, how it is spelled in full, and the value attached to it. -/
  | option (name : OptionName) (spelling : String) (attached : Option String)
  | unknownOption (text : String)
  deriving DecidableEq, Repr

namespace Argument

def text : Argument → String
  | plain text => text
  | doubleDash => "--"
  | option _ spelling _ => spelling
  | unknownOption text => text

def splitEquals (text : String) : String × Option String :=
  let chars := text.toList
  match chars.dropWhile (· != '=') with
  | [] => (text, none)
  | _ :: value => (String.ofList (chars.takeWhile (· != '=')), some (String.ofList value))

/-- The options that an argument may mean that is not spelled in full. -/
def candidates (text : String) : List (OptionName × String × Option String) :=
  match text.toList with
  | '-' :: '-' :: _ =>
    let (front, value) := splitEquals text
    (OptionName.spellings.filter fun (spelling, _) => spelling.startsWith front).map
      fun (spelling, name) => (name, spelling, value)
  | '-' :: letter :: rest =>
    OptionName.spellings.filterMap fun (spelling, name) =>
      if spelling == String.ofList ['-', letter] then
        some (name, spelling, some (String.ofList rest))
      else if spelling.startsWith text then some (name, spelling, none)
      else none
  | _ => []

def isNumber (text : List Char) : Bool := text.all fun c => (Numeral.digit? c).isSome

/-- The argument is a negative number, with or without a point. A line feed may end it. -/
def isNegativeNumber (text : String) : Bool :=
  let chars := match text.toList.reverse with
    | '\n' :: rest => rest.reverse
    | _ => text.toList
  match chars with
  | '-' :: number =>
    match number.dropWhile (fun c => (Numeral.digit? c).isSome) with
    | [] => !number.isEmpty
    | '.' :: fraction => !fraction.isEmpty && isNumber fraction
    | _ => false
  | _ => false

def classify (text : String) : Except UsageError Argument :=
  match text.toList with
  | '-' :: _ :: _ =>
    let (front, value) := splitEquals text
    match OptionName.spellings.lookup text, value, OptionName.spellings.lookup front with
    | some name, _, _ => .ok (.option name text none)
    | none, some value, some name => .ok (.option name front (some value))
    | _, _, _ =>
      match candidates text with
      | [(name, spelling, value)] => .ok (.option name spelling value)
      | [] =>
        if isNegativeNumber text || text.contains ' ' then .ok (.plain text)
        else .ok (.unknownOption text)
      | several => .error (.ambiguous text (several.map (·.2.1)))
  | _ => .ok (.plain text)

/-- Sorts all arguments. Behind a double dash there are no options. -/
def classifyAll : List String → Except UsageError (List Argument)
  | [] => .ok []
  | "--" :: rest => .ok (.doubleDash :: rest.map .plain)
  | text :: rest => do
    let argument ← classify text
    let arguments ← classifyAll rest
    pure (argument :: arguments)

end Argument

end DiceCalculator
