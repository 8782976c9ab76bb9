import DiceCalculator.FileFault
import DiceCalculator.Text.Numeral
import DiceCalculator.Yaml.Object
/-!
# Settings

Four settings have defaults, and a settings file may override any of them. The file is the one that
is asked for, or else `settings.yaml` if there is one. A file whose document is missing, or counts
as missing, overrides nothing; keys are checked before the colour policy. A file that is no settings
file is refused with a reason. Apart from that, a path that no file can have and a document with
something in it that cannot be worked out end the loading without a reason.
-/
namespace DiceCalculator

/-- The settings in force. Their values are what a file may hold under the keys. -/
structure Settings where
  colors : Yaml.Value
  json : Yaml.Value
  barWidth : Yaml.Value
  logLevel : Yaml.Value

/-- Why settings cannot be loaded. -/
inductive SettingsError where
  | cannotRead (path : String) (reason : OpenError)
  | invalidYaml (path : String)
  | notMapping (path : String)
  | unknownKey (key : Yaml.Value) (path : String)
  | badColors (value : Yaml.Value)

/-- How loading settings may fail: for a reason that is reported, or on a path or a document that
cannot be dealt with at all. -/
inductive LoadFailure where
  | refused (error : SettingsError)
  | badPath (fault : PathFault)
  | flawed (flaw : Yaml.Flaw)

namespace Settings

def default : Settings := ⟨.text "auto", .bool false, .int 75, .text "WARNING"⟩

/-- The keys with their values, in the order of the defaults. -/
def toList (s : Settings) : List (String × Yaml.Value) :=
  [("colors", s.colors), ("json", s.json), ("bar_width", s.barWidth), ("log_level", s.logLevel)]

/-- Overrides the setting with a key, if there is one. -/
def set? (s : Settings) (key value : Yaml.Value) : Option Settings :=
  match key with
  | .text "colors" => some { s with colors := value }
  | .text "json" => some { s with json := value }
  | .text "bar_width" => some { s with barWidth := value }
  | .text "log_level" => some { s with logLevel := value }
  | _ => none

def colorPolicies : List String := ["auto", "always", "never"]

def hasColorPolicy (s : Settings) : Bool :=
  match s.colors with
  | .text policy => colorPolicies.contains policy
  | _ => false

/-- The settings file that is used if no other one is asked for. -/
def standardPath : String := "settings.yaml"

/-- Overrides settings by the entries of a mapping in turn. -/
def override (path : String) (s : Settings) :
    List (Yaml.Value × Yaml.Value) → Except SettingsError Settings
  | [] => .ok s
  | (key, value) :: entries =>
    match s.set? key value with
    | some s => override path s entries
    | none => .error (.unknownKey key path)

def ofDocument (path : String) (document : Yaml.Value) : Except SettingsError Settings := do
  let entries ←
    if document.isFalsy then pure []
    else
      match document with
      | .mapping entries => pure entries
      | _ => throw (.notMapping path)
  let s ← override path default entries
  if s.hasColorPolicy then pure s else throw (.badColors s.colors)

/-- The file that is to be read, if any: the one asked for, or the standard one if it is there. -/
def chosenPath (read : String → Except OpenError String) (path : Option String) : Option String :=
  match path with
  | some path => some path
  | none =>
    match read standardPath with
    | .error .missing => none
    | _ => some standardPath

def document (path content : String) : Except LoadFailure Yaml.Value :=
  match Yaml.Value.parse content with
  | .ok document => .ok document
  | .error .malformed => .error (.refused (.invalidYaml path))
  | .error flaw => .error (.flawed flaw)

def ofFile (read : String → Except OpenError String) (path : String) :
    Except LoadFailure Settings := do
  match PathFault.of? path with
  | some fault => throw (.badPath fault)
  | none => pure ()
  match read path with
  | .error reason => throw (.refused (.cannotRead path reason))
  | .ok content => (ofDocument path (← document path content)).mapError .refused

/-- Loads the settings through a function that reads files. -/
def load (read : String → Except OpenError String) (path : Option String) :
    Except LoadFailure Settings :=
  match chosenPath read path with
  | none => .ok default
  | some path => ofFile read path

/-- Whether output is in colour: on request, by policy, or else if it goes to a terminal. -/
def usesColors (s : Settings) (requested isTerminal : Bool) : Bool :=
  match s.colors with
  | .text "always" => true
  | .text "never" => requested
  | _ => requested || isTerminal

end Settings

/-- The message of a settings error. What a YAML library reports about a text that is not valid, which
would follow behind a colon, is left out. -/
def SettingsError.message : SettingsError → String
  | cannotRead path reason => "cannot read " ++ path ++ ": " ++ reason.message
  | invalidYaml path => path ++ " is not valid YAML"
  | notMapping path => path ++ " must contain a mapping"
  | unknownKey key path => "unknown setting " ++ key.quoted ++ " in " ++ path
  | badColors value =>
    "colors must be one of " ++ ", ".intercalate Settings.colorPolicies ++ ", got " ++ value.quoted

/-- Why a setting is no width. -/
inductive WidthError where
  | notNumeral (quoted : String)
  | noInteger (fault : NoInteger)
  | noNumber (kind : String)
  deriving DecidableEq, Repr

def WidthError.message : WidthError → String
  | notNumeral quoted => Numeral.refusal 10 quoted
  | noInteger fault => fault.message
  | noNumber kind =>
    "int() argument must be a string, a bytes-like object or a real number, not '" ++ kind ++ "'"

namespace Yaml.Value

def kind : Value → String
  | null => "NoneType"
  | bool _ => "bool"
  | int _ => "int"
  | float _ => "float"
  | text _ => "str"
  | illFormed _ => "str"
  | bytes _ => "bytes"
  | time (.date _) => "datetime.date"
  | time (.moment _) => "datetime.datetime"
  | sequence _ => "list"
  | mapping _ => "dict"
  | set _ => "set"
  | pairs _ => "list"
  | again .square => "list"
  | again .curly => "dict"

def asciiText? (bytes : List Nat) : Option String :=
  if bytes.all (· < 0x80) then some (String.ofList (bytes.map Char.ofNat)) else none

/-- The width that a setting means: an integer, a numeral, or a number without its fractional part.
-/
def width (value : Value) : Except WidthError Int :=
  match value with
  | int n => .ok n
  | bool b => .ok (if b then 1 else 0)
  | float x => (Binary64.quantity x).truncate.mapError .noInteger
  | text s =>
    match Numeral.parse? s with
    | some n => .ok n
    | none => .error (.notNumeral (Quoted.quote s))
  | illFormed codePoints => .error (.notNumeral codePoints.quote)
  | bytes values =>
    match (asciiText? values).bind Numeral.parse? with
    | some n => .ok n
    | none => .error (.notNumeral (Quoted.quoteBytes (values.take Numeral.shownLength)))
  | value => .error (.noNumber value.kind)

end Yaml.Value

end DiceCalculator
