import DiceCalculator.Expr.Table
import DiceCalculator.Log
import DiceCalculator.Options.CommandLine
import DiceCalculator.Report.Failure
import DiceCalculator.Report.Json
import DiceCalculator.Report.Law
/-!
# The command

The command reads its options and settings, parses the expression, and then rolls it or computes its
distribution. It prints a whole result on its output and succeeds, or it prints nothing there and
reports the first failure among its messages.
-/
namespace DiceCalculator

/-- What the command needs to know of the world around it. -/
structure Surroundings where
  read : String → Except OpenError String
  /-- The reason why no chart can be written under a path. -/
  chartProblem : String → Option String
  isTerminal : Bool
  width : Int
  /-- The seed for a roll that is given none. -/
  drawnSeed : Int

/-- What a run of the command leaves: its exit status, its output and its messages. -/
structure CommandResult where
  exit : Nat
  out : String
  err : String
  deriving DecidableEq, Repr

/-- A setting or a number that the command cannot work with. Such a fault ends it without a report.
-/
inductive Crash where
  | width (error : WidthError)
  | bar (fault : NoInteger)
  | threshold (text : String)
  | thresholdTable (text : String)
  | path (fault : PathFault)
  | document (flaw : Yaml.Flaw)
  | noSeed
  | jsonRange
  | arithmetic (fault : Fault)
  deriving DecidableEq, Repr

def Crash.message : Crash → String
  | width error => error.message
  | bar fault => fault.message
  | threshold text => "Unknown level: " ++ Quoted.quote text
  | thresholdTable text => "Level not an integer or a valid string: " ++ text
  | path fault => fault.message
  | document flaw => flaw.message
  | noSeed =>
    "The only supported seed types are: None,\nint, float, str, bytes, and bytearray."
  | jsonRange => Json.outOfRange
  | arithmetic fault => fault.message

/-- Why a run ends without output. -/
inductive Stop where
  | reported (err : String)
  | crashed (crash : Crash)

/-- A part of a run: it writes log lines, and it may stop. -/
abbrev CommandM := ExceptT Stop (StateM (Array LogLine))

namespace Command

def log (level : LogLevel) (source message : String) : CommandM Unit :=
  modify (·.push ⟨level, source, message⟩)

def mainSource : String := "diceroll.__main__"

def parserSource : String := "diceroll.roll_parser"

def rollSource : String := "diceroll.roll"

/-- Stops with the report of a failed evaluation. -/
def orReport {α : Type} (colors : Bool) : Except EvalFailure α → CommandM α
  | .ok a => pure a
  | .error (.rejected error) => throw (.reported (Report.evalError error colors))
  | .error (.fault fault) => throw (.crashed (.arithmetic fault))

def plainError (message : String) : String :=
  StyledText.print false (StyledText.plain ("error: " ++ message))

def parse (text : String) (colors : Bool) : CommandM Expr :=
  match Expr.parse text with
  | .error error =>
    throw (.reported (Report.diagnostic (Diagnostic.ofParseError text error) colors))
  | .ok e => do
    log .debug parserSource ("parsed " ++ Quoted.quote text ++ " as " ++ e.render)
    log .info mainSource ("expression: " ++ e.render)
    pure e

def distribution (e : Expr) (colors : Bool) : CommandM (Distribution Float) := do
  let (result, memory) := e.distributionWith Binomials.empty
  let d ← orReport colors result
  let size := toString d.outcomes.length
  log .debug rollSource
    ("distribution of " ++ e.render ++ " has " ++ size ++ " outcomes, " ++ memory.describe)
  log .info mainSource ("distribution has " ++ size ++ " outcomes")
  pure d

def chart (world : Surroundings) : OptionValue String → CommandM Unit
  | .absent => pure ()
  | .blank => throw (.crashed (.path .noPath))
  | .given path =>
    match PathFault.of? path, world.chartProblem path with
    | some fault, _ => throw (.crashed (.path fault))
    | none, some reason =>
      throw (.reported (plainError ("cannot write " ++ path ++ ": " ++ reason)))
    | none, none => log .info mainSource ("wrote chart to " ++ path)

def showDistribution (world : Surroundings) (settings : Settings) (e : Expr)
    (d : Distribution Float) (asJson colors : Bool) : CommandM String := do
  if asJson then
    match Json.distribution? d with
    | some text => pure (text ++ "\n")
    | none => throw (.crashed .jsonRange)
  else
    match settings.barWidth.width with
    | .error error => throw (.crashed (.width error))
    | .ok width =>
      match Report.law e d colors world.width width with
      | .error fault => throw (.crashed (.bar fault))
      | .ok text => pure (StyledText.print colors text)

/-- Rolls the expression, and gives the output for the roll. -/
def roll (world : Surroundings) (options : Options) (e : Expr) (asJson colors : Bool) :
    CommandM String := do
  let seed ← match options.seed with
    | .absent => pure world.drawnSeed
    | .blank => throw (.crashed .noSeed)
    | .given seed => pure seed
  log .info mainSource ("seed: " ++ toString seed)
  let result ← orReport colors (e.evaluate seed)
  log .debug rollSource
    ("rolled " ++ e.render ++ " with seed " ++ toString seed ++ ": " ++ toString result.value)
  pure (if asJson then Json.roll result ++ "\n"
    else StyledText.print colors (Report.roll e result colors))

/-- The output of the command. -/
def output (world : Surroundings) (options : Options) (settings : Settings) : CommandM String := do
  let colors := settings.usesColors options.colors world.isTerminal
  let asJson := options.json || !settings.json.isFalsy
  let e ← parse options.expression colors
  if options.pmf then
    let d ← distribution e colors
    chart world options.plot
    showDistribution world settings e d asJson colors
  else
    if options.plot.isUsed then
      let _ ← distribution e colors
      chart world options.plot
    roll world options e asJson colors

def logText (threshold : Nat) (lines : Array LogLine) : String :=
  String.join ((lines.toList.filter fun line => threshold ≤ line.level.weight).map LogLine.render)

def settingsPath : OptionValue String → Except LoadFailure (Option String)
  | .absent => .ok none
  | .blank => .error (.badPath .noPath)
  | .given path => .ok (some path)

def loadSettings (world : Surroundings) (options : Options) : Except LoadFailure Settings := do
  Settings.load world.read (← settingsPath options.config)

/-- Runs the command with its options. -/
def runWith (world : Surroundings) (options : Options) : Except Crash CommandResult :=
  match loadSettings world options with
  | .error (.refused error) => .ok ⟨1, "", plainError error.message⟩
  | .error (.badPath fault) => .error (.path fault)
  | .error (.flawed flaw) => .error (.document flaw)
  | .ok settings =>
    match Threshold.ofRequests options.verbosity settings with
    | .format text => .error (.threshold text)
    | .formatTable text => .error (.thresholdTable text)
    | .weight threshold =>
      match (output world options settings).run.run #[] with
      | (.ok out, lines) => .ok ⟨0, out, logText threshold lines⟩
      | (.error (.reported err), lines) => .ok ⟨1, "", logText threshold lines ++ err⟩
      | (.error (.crashed crash), _) => .error crash

def run (world : Surroundings) (arguments : List String) : Except Crash CommandResult :=
  match CommandLine.parse arguments with
  | .help => .ok ⟨0, CommandLine.helpText, ""⟩
  | .refused error => .ok ⟨2, "", CommandLine.usage ++ "roll: error: " ++ error.message ++ "\n"⟩
  | .run options => runWith world options

end Command

end DiceCalculator
