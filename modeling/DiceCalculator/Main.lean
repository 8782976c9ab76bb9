import DiceCalculator.Command
/-!
# The program

The outermost layer reads the settings file, asks the terminal and draws a seed; all else is decided
by the command. Charts need a drawing program that is not part of this one, so none is written.
-/
namespace DiceCalculator.Main

def readPath (path : String) : IO (Except OpenError String) := do
  try
    pure (.ok (← IO.FS.readFile path))
  catch error =>
    match error with
    | .noFileOrDirectory .. => pure (.error .missing)
    | .inappropriateType .. => pure (.error .notDirectory)
    | _ => pure (.error .isDirectory)

/-- The settings file that a command line may lead to. -/
def settingsPath (arguments : List String) : String :=
  match CommandLine.parse arguments with
  | .run ⟨_, _, _, _, _, _, .given path, _⟩ => path
  | _ => Settings.standardPath

/-- The number of columns that output is laid out for. -/
def columns : Int := 80

/-- The world around a run, as far as the run will ask for it. -/
def surroundings (arguments : List String) : IO Surroundings := do
  let content ← readPath (settingsPath arguments)
  let seed ← IO.rand 0 Seed.largest.toNat
  let isTerminal ← (← IO.getStdout).isTty
  pure ⟨fun _ => content, fun _ => some "charts cannot be drawn", isTerminal, columns, seed⟩

end DiceCalculator.Main

def main (arguments : List String) : IO UInt32 := do
  let world ← DiceCalculator.Main.surroundings arguments
  match DiceCalculator.Command.run world arguments with
  | .ok result => do
    (← IO.getStderr).putStr result.err
    (← IO.getStdout).putStr result.out
    pure (UInt32.ofNat result.exit)
  | .error crash => do
    (← IO.getStderr).putStrLn crash.message
    pure 1
