import DiceCalculator.Settings
/-!
# Log lines

A log line has a level, the name of the part of the program that wrote it, and a message. Lines
below the threshold are not written. The threshold comes from the number of requests for more lines,
and without any from the settings.
-/
namespace DiceCalculator

inductive LogLevel where
  | debug
  | info
  deriving DecidableEq, Repr

namespace LogLevel

def weight : LogLevel → Nat
  | debug => 10
  | info => 20

def name : LogLevel → String
  | debug => "DEBUG"
  | info => "INFO"

end LogLevel

structure LogLine where
  level : LogLevel
  source : String
  message : String
  deriving DecidableEq, Repr

def LogLine.render (line : LogLine) : String :=
  line.level.name ++ ":" ++ line.source ++ ":" ++ line.message ++ "\n"

/-- What a threshold setting may turn out to be. -/
inductive Threshold where
  | weight (weight : Nat)
  /-- A name that stands for a format, which is no level. -/
  | format (text : String)
  /-- A name that stands for a table of formats, which is no level either. -/
  | formatTable (text : String)
  deriving DecidableEq, Repr

namespace Threshold

/-- The names of levels and their weights, and the other names that lead to something. -/
def levels : List (String × Threshold) :=
  [("DEBUG", .weight 10), ("INFO", .weight 20), ("WARNING", .weight 30), ("WARN", .weight 30),
    ("ERROR", .weight 40), ("CRITICAL", .weight 50), ("FATAL", .weight 50), ("NOTSET", .weight 0),
    ("BASIC_FORMAT", .format "%(levelname)s:%(name)s:%(message)s"),
    ("_STYLES", .formatTable
      ("\x7b'%': (<class 'logging.PercentStyle'>, '%(levelname)s:%(name)s:%(message)s'), " ++
        "'\x7b': (<class 'logging.StrFormatStyle'>, " ++
        "'\x7blevelname\x7d:\x7bname\x7d:\x7bmessage\x7d'), " ++
        "'$': (<class 'logging.StringTemplateStyle'>, " ++
        "'$\x7blevelname\x7d:$\x7bname\x7d:$\x7bmessage\x7d')\x7d"))]

/-- The capital letters of a small one. Besides the ASCII letters there are a few more small letters
with ASCII capitals of which the names of levels are made. -/
def capitals (c : Char) : List Char :=
  if c == 'ı' then ['I']
  else if c == 'ſ' then ['S']
  else if c == 'ﬅ' || c == 'ﬆ' then ['S', 'T']
  else [c.toUpper]

/-- The threshold of a setting; a setting that names no level means warnings. -/
def ofSetting (setting : Yaml.Value) : Threshold :=
  (levels.lookup (String.ofList (setting.plainText.toList.flatMap capitals))).getD (.weight 30)

/-- The threshold for a number of requests for more lines. -/
def ofRequests (requests : Nat) (settings : Settings) : Threshold :=
  match requests with
  | 0 => ofSetting settings.logLevel
  | 1 => .weight LogLevel.info.weight
  | _ => .weight LogLevel.debug.weight

end Threshold

end DiceCalculator
