import DiceCalculator.Distribution
import DiceCalculator.Number.Decimal
/-!
# Distributions on one line
-/
namespace DiceCalculator

def Outcome.describe (o : Outcome Float) : String :=
  toString o.value ++ ": " ++ Decimal.ofFloat o.probability

def Distribution.describe (d : Distribution Float) : String :=
  "\x7b" ++ ", ".intercalate (d.outcomes.map Outcome.describe) ++ "\x7d"

end DiceCalculator
