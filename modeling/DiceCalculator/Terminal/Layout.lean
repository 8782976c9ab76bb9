import DiceCalculator.Terminal.Styled
/-!
# What a terminal line shows

Before text is printed, control characters that would move the cursor are taken out, and every tab
is filled up with blanks to the next of the stops, which stand eight columns apart.
-/
namespace DiceCalculator

namespace Layout

def tabWidth : Nat := 8

/-- Bell, backspace, vertical tab, form feed and carriage return are never printed. -/
def isDropped (c : Char) : Bool :=
  c == '\x07' || c == '\x08' || c == '\x0b' || c == '\x0c' || c == '\r'

/-- The characters that are shown when the first one stands in a column, and the column behind them.
-/
def expand (column : Nat) : List Char → List Char × Nat
  | [] => ([], column)
  | c :: rest =>
    if isDropped c then expand column rest
    else if c == '\n' then
      let (shown, behind) := expand 0 rest
      (c :: shown, behind)
    else if c == '\t' then
      let blanks := tabWidth - column % tabWidth
      let (shown, behind) := expand (column + blanks) rest
      (List.replicate blanks ' ' ++ shown, behind)
    else
      let (shown, behind) := expand (column + 1) rest
      (c :: shown, behind)

def expandRuns (column : Nat) : StyledText → StyledText
  | [] => []
  | run :: runs =>
    let (shown, behind) := expand column run.text
    ⟨run.style, shown⟩ :: expandRuns behind runs

end Layout

/-- The text as it is printed, with the line feed that ends the last line. -/
def StyledText.print (colors : Bool) (text : StyledText) : String :=
  StyledText.render colors (Layout.expandRuns 0 text) ++ "\n"

namespace Markup

/-- A character that can begin the name of a tag. -/
def beginsTag (c : Char) : Bool :=
  ('a' ≤ c && c ≤ 'z') || c == '#' || c == '/' || c == '@'

/-- A closing bracket comes before any other opening one. -/
def closes (text : List Char) : Bool :=
  (text.dropWhile fun c => c != '[' && c != ']').head? == some ']'

def opensTag : List Char → Bool
  | [] => false
  | c :: rest => beginsTag c && closes rest

/-- A backslash before an opening bracket is lost, unless the bracket has the form of a tag. -/
def unescape : List Char → List Char
  | [] => []
  | [c] => [c]
  | c :: d :: rest =>
    if c == '\\' && d == '[' && !opensTag rest then unescape (d :: rest)
    else c :: unescape (d :: rest)

/-- A single backslash at the end is doubled. -/
def doubleLast (text : List Char) : List Char :=
  match text.reverse with
  | '\\' :: '\\' :: _ => text
  | '\\' :: _ => text ++ ['\\']
  | _ => text

/-- How arbitrary text comes out when it is put between tags. -/
def shown (text : String) : String := String.ofList (doubleLast (unescape text.toList))

end Markup

end DiceCalculator
