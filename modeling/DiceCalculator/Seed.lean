import DiceCalculator.Text.Numeral
import DiceCalculator.Text.Quoted
/-!
# Seeds

A seed is typed as a numeral and lies in the range of 64-bit words.
-/
namespace DiceCalculator

inductive SeedError where
  | notInteger (text : String)
  | outOfRange
  deriving DecidableEq, Repr

namespace Seed

/-- The largest seed, that of an unsigned 64-bit word. -/
def largest : Int := 18446744073709551615

def parse (text : String) : Except SeedError Int :=
  match Numeral.parse? text with
  | none => .error (.notInteger text)
  | some n => if 0 ≤ n ∧ n ≤ largest then .ok n else .error .outOfRange

end Seed

def SeedError.message : SeedError → String
  | notInteger text => "not an integer: " ++ Quoted.quote text
  | outOfRange => "seed must be between 0 and " ++ toString Seed.largest

end DiceCalculator
