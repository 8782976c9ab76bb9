import DiceCalculator.Seed
/-!
# Options of the command

What a command line can ask for, how its options are spelled, and what can be wrong with it.
-/
namespace DiceCalculator

/-- What has become of an option that takes a value. A double dash alone is no value: where it is
attached to an option, the option has been used and yet has none. -/
inductive OptionValue (α : Type) where
  | absent
  | blank
  | given (value : α)
  deriving DecidableEq, Repr

def OptionValue.isUsed {α : Type} : OptionValue α → Bool
  | absent => false
  | _ => true

/-- What a command line asks for. -/
structure Options where
  expression : String
  colors : Bool
  json : Bool
  pmf : Bool
  seed : OptionValue Int
  plot : OptionValue String
  config : OptionValue String
  verbosity : Nat
  deriving DecidableEq, Repr

inductive OptionName where
  | help
  | colors
  | json
  | pmf
  | seed
  | plot
  | config
  | verbose
  deriving DecidableEq, Repr

namespace OptionName

def spellings : List (String × OptionName) :=
  [("-h", help), ("--help", help), ("--colors", colors), ("--json", json), ("--pmf", pmf),
    ("--seed", seed), ("--plot", plot), ("--config", config), ("-v", verbose),
    ("--verbose", verbose)]

def label (name : OptionName) : String :=
  "/".intercalate ((spellings.filter (·.2 = name)).map (·.1))

def takesValue : OptionName → Bool
  | seed => true
  | plot => true
  | config => true
  | _ => false

end OptionName

/-- What is wrong with a command line. -/
inductive UsageError where
  | ambiguous (argument : String) (matching : List String)
  | missingValue (name : OptionName)
  | ignoredValue (name : OptionName) (value : String)
  | badSeed (error : SeedError)
  | missingExpression
  | unrecognized (arguments : List String)
  deriving DecidableEq, Repr

def UsageError.message : UsageError → String
  | ambiguous argument matching =>
    "ambiguous option: " ++ argument ++ " could match " ++ ", ".intercalate matching
  | missingValue name => "argument " ++ name.label ++ ": expected one argument"
  | ignoredValue name value =>
    "argument " ++ name.label ++ ": ignored explicit argument " ++ Quoted.quote value
  | badSeed error => "argument " ++ OptionName.seed.label ++ ": " ++ error.message
  | missingExpression => "the following arguments are required: expression"
  | unrecognized arguments => "unrecognized arguments: " ++ " ".intercalate arguments

end DiceCalculator
