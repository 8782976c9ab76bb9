/-!
# Files that cannot be used

A file may be refused when it is opened. Some things are no path in the first place: these are found
before any file is looked for.
-/
namespace DiceCalculator

/-- Why a file cannot be opened. -/
inductive OpenError where
  | missing
  | isDirectory
  | notDirectory
  | nameTooLong
  deriving DecidableEq, Repr

def OpenError.message : OpenError → String
  | missing => "No such file or directory"
  | isDirectory => "Is a directory"
  | notDirectory => "Not a directory"
  | nameTooLong => "File name too long"

/-- Why something is no path at all. -/
inductive PathFault where
  /-- The path holds the character that ends names within a file system. -/
  | hasNull
  /-- There is no path where one is needed. -/
  | noPath
  deriving DecidableEq, Repr

namespace PathFault

def message : PathFault → String
  | hasNull => "embedded null byte"
  | noPath => "expected str, bytes or os.PathLike object, not list"

def of? (path : String) : Option PathFault :=
  if path.toList.contains '\x00' then some .hasNull else none

end PathFault

end DiceCalculator
