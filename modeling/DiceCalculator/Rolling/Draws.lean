import DiceCalculator.Rolling.Ledger
/-!
# Die requests

A computation that rolls dice is a tree: it is done, or it asks for a die of some number of sides
and goes on with the number that the die shows. What answers the requests is left open, so that one
computation can be run with a generator, replayed from a ledger or weighed exactly.
-/
namespace DiceCalculator

/-- A computation that may ask for dice on its way to a result. -/
inductive Draws (α : Type) where
  | done (result : α)
  | die (sides : Int) (next : Int → Draws α)

namespace Draws

variable {α β σ : Type}

def andThen : Draws α → (α → Draws β) → Draws β
  | .done a, f => f a
  | .die sides next, f => .die sides fun roll => (next roll).andThen f

instance : Monad Draws where
  pure := .done
  bind := andThen

/-- The total of this many dice, added to what has been rolled before. -/
def total (sides : Int) : Nat → Int → Draws Int
  | 0, sum => .done sum
  | count + 1, sum => .die sides fun roll => total sides count (sum + roll)

/-- The result of a run, and what it leaves behind. -/
structure Run (α σ : Type) where
  result : α
  source : σ
  ledger : Ledger

/-- Runs a computation with a source of die rolls. Every roll is entered in the ledger. -/
def run (draw : σ → Int → Int × σ) : Draws α → σ → Ledger → Run α σ
  | .done a, source, ledger => ⟨a, source, ledger⟩
  | .die sides next, source, ledger =>
    let (roll, source) := draw source sides
    run draw (next roll) source (ledger.record sides roll)

end Draws

end DiceCalculator
