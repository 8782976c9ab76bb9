import DiceCalculator.Options.Argument
/-!
# Command lines

Options take effect from left to right, and the first error ends the reading. The first argument
that is no option is the expression; further ones are refused in the end.
-/
namespace DiceCalculator

/-- What has been read of a command line. -/
structure OptionReader where
  options : Options
  expression : Option String
  extras : List String

/-- What becomes of a command line. -/
inductive CommandLine where
  | run (options : Options)
  | help
  | refused (error : UsageError)
  deriving DecidableEq, Repr

namespace OptionReader

def start : OptionReader :=
  ⟨⟨"", false, false, false, .absent, .absent, .absent, 0⟩, none, []⟩

/-- The command line asks for help, or an error ends its reading. -/
abbrev ReadM := Except CommandLine

def switch (r : OptionReader) : OptionName → ReadM OptionReader
  | .help => .error .help
  | .colors => .ok { r with options := { r.options with colors := true } }
  | .json => .ok { r with options := { r.options with json := true } }
  | .pmf => .ok { r with options := { r.options with pmf := true } }
  | .verbose =>
    .ok { r with options := { r.options with verbosity := r.options.verbosity + 1 } }
  | _ => .ok r

def assign (r : OptionReader) (name : OptionName) (value : String) : ReadM OptionReader :=
  match name with
  | .seed =>
    match Seed.parse value with
    | .ok seed => .ok { r with options := { r.options with seed := .given seed } }
    | .error error => .error (.refused (.badSeed error))
  | .plot => .ok { r with options := { r.options with plot := .given value } }
  | .config => .ok { r with options := { r.options with config := .given value } }
  | _ => .ok r

def blank (r : OptionReader) (name : OptionName) : OptionReader :=
  match name with
  | .seed => { r with options := { r.options with seed := .blank } }
  | .plot => { r with options := { r.options with plot := .blank } }
  | .config => { r with options := { r.options with config := .blank } }
  | _ => r

/-- The options that are joined behind a dash. None of them takes a value, so all that follows the
first one has to be letters of further ones. -/
def joined (name : OptionName) : List Char → ReadM (List OptionName)
  | [] => .ok [name]
  | letter :: rest =>
    match OptionName.spellings.lookup (String.ofList ['-', letter]) with
    | none => .error (.refused (.ignoredValue name (String.ofList (letter :: rest))))
    | some next => do
      let names ← joined next rest
      pure (name :: names)

/-- An option with a value attached to it, by an equals sign or directly. -/
def attached (r : OptionReader) (name : OptionName) (spelling value : String) :
    ReadM OptionReader :=
  if name.takesValue then if value == "--" then .ok (r.blank name) else r.assign name value
  else if spelling.startsWith "--" || value.isEmpty then
    .error (.refused (.ignoredValue name value))
  else do
    let names ← joined name value.toList
    names.foldlM switch r

def take (r : OptionReader) (text : String) : OptionReader :=
  match r.expression with
  | none => { r with expression := some text }
  | some _ => { r with extras := r.extras ++ [text] }

/-- The arguments from a double dash on. Before the expression, or right behind it, the dash has
done its work; elsewhere it is left over like the arguments behind it. -/
def finish (r : OptionReader) (justTaken : Bool) (rest : List String) : OptionReader :=
  if r.expression.isNone then rest.foldl take r
  else { r with extras := r.extras ++ (if justTaken then rest else "--" :: rest) }

/-- Reads the arguments from left to right; the flag says whether the expression stands right
before. -/
def read (r : OptionReader) (justTaken : Bool) : List Argument → ReadM OptionReader
  | [] => .ok r
  | .plain text :: rest => read (r.take text) r.expression.isNone rest
  | .doubleDash :: rest => .ok (r.finish justTaken (rest.map Argument.text))
  | .unknownOption text :: rest => read { r with extras := r.extras ++ [text] } false rest
  | .option name spelling (some value) :: rest => do
    let r ← r.attached name spelling value
    read r false rest
  | .option name _ none :: rest =>
    if name.takesValue then
      match rest with
      | .plain value :: rest => do
        let r ← r.assign name value
        read r false rest
      | _ => .error (.refused (.missingValue name))
    else do
      let r ← r.switch name
      read r false rest

def conclude (r : OptionReader) : CommandLine :=
  match r.expression with
  | none => .refused .missingExpression
  | some expression =>
    if r.extras.isEmpty then .run { r.options with expression := expression }
    else .refused (.unrecognized r.extras)

end OptionReader

namespace CommandLine

def parse (arguments : List String) : CommandLine :=
  match Argument.classifyAll arguments with
  | .error error => .refused error
  | .ok arguments =>
    match OptionReader.start.read false arguments with
    | .error ending => ending
    | .ok r => r.conclude

def usage : String :=
  "usage: roll [-h] [--colors] [--json] [--pmf] [--seed SEED] [--plot PATH]\n" ++
  "            [--config PATH] [-v]\n" ++
  "            expression\n"

def helpText : String :=
  usage ++
  "\nRoll dice, or compute the exact distribution of a dice expression.\n" ++
  "\npositional arguments:\n" ++
  "  expression     the dice expression to evaluate, e.g. 3d6+2\n" ++
  "\noptions:\n" ++
  "  -h, --help     show this help message and exit\n" ++
  "  --colors       force color output (even if stdout is not a terminal)\n" ++
  "  --json         print JSON to stdout\n" ++
  "  --pmf          display the distribution instead of rolling\n" ++
  "  --seed SEED    seed the random number generator\n" ++
  "  --plot PATH    write a PNG chart of the distribution to PATH\n" ++
  "  --config PATH  settings file to use\n" ++
  "  -v, --verbose  log more (repeatable)\n"

end CommandLine

end DiceCalculator
