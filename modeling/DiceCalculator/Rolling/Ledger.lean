/-!
# The roll ledger

A ledger groups the dice that were rolled by their number of sides. Sizes stand in the order of
their first roll, and the rolls of one size in the order in which they were drawn.
-/
namespace DiceCalculator

/-- All rolls of dice with one number of sides. -/
structure Ledger.Entry where
  sides : Int
  rolls : Array Int
  deriving DecidableEq, Repr

/-- The entries in the order of their first roll. -/
structure Ledger where
  entries : List Ledger.Entry
  deriving DecidableEq, Repr

namespace Ledger

def empty : Ledger := ⟨[]⟩

/-- Enters one roll behind the earlier ones of its size, or as the first of a new size. -/
def Entry.record (sides roll : Int) : List Entry → List Entry
  | [] => [⟨sides, #[roll]⟩]
  | ⟨size, rolls⟩ :: entries =>
    if size = sides then ⟨size, rolls.push roll⟩ :: entries
    else ⟨size, rolls⟩ :: Entry.record sides roll entries

def record (ledger : Ledger) (sides roll : Int) : Ledger :=
  ⟨Entry.record sides roll ledger.entries⟩

/-- The rolls of one size, in draw order. -/
def rolls (ledger : Ledger) (sides : Int) : List Int :=
  match ledger.entries.find? (·.sides = sides) with
  | some entry => entry.rolls.toList
  | none => []

end Ledger

end DiceCalculator
