/-!
# Styled text

Output is built from runs of characters, each plain or in one style. A terminal gets a style as an
escape sequence before the run and a reset behind it; without colours only the characters are left.
-/
namespace DiceCalculator

inductive Color where
  | red
  | green
  | blue
  | magenta
  | cyan
  deriving DecidableEq, Repr

/-- A colour, and whether the characters are bold. -/
structure Style where
  bold : Bool
  color : Color
  deriving DecidableEq, Repr

/-- Characters of one style. -/
structure Run where
  style : Option Style
  text : List Char
  deriving DecidableEq, Repr

/-- Runs from left to right; a line feed within a run ends a line. -/
abbrev StyledText := List Run

namespace Color

def code : Color → String
  | red => "31"
  | green => "32"
  | blue => "34"
  | magenta => "35"
  | cyan => "36"

end Color

namespace Style

def code (style : Style) : String :=
  if style.bold then "1;" ++ style.color.code else style.color.code

def enter (style : Style) : String := "\x1b[" ++ style.code ++ "m"

def leave : String := "\x1b[0m"

end Style

namespace StyledText

def plain (text : String) : StyledText := [⟨none, text.toList⟩]

def styled (bold : Bool) (color : Color) (text : String) : StyledText :=
  [⟨some ⟨bold, color⟩, text.toList⟩]

def joinLines : List StyledText → StyledText
  | [] => []
  | [line] => line
  | line :: lines => line ++ plain "\n" ++ joinLines lines

def characters (text : StyledText) : List Char := text.flatMap (·.text)

end StyledText

/-- A run as a terminal gets it. An empty run leaves no trace. -/
def Run.render (colors : Bool) (run : Run) : String :=
  match run.style with
  | none => String.ofList run.text
  | some style =>
    if colors && !run.text.isEmpty then style.enter ++ String.ofList run.text ++ Style.leave
    else String.ofList run.text

/-- The text as a terminal gets it. -/
def StyledText.render (colors : Bool) (text : StyledText) : String :=
  String.join (text.map (Run.render colors))

end DiceCalculator
