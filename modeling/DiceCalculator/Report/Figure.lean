import DiceCalculator.Distribution
/-!
# Chart data

A distribution is drawn as one bar for each outcome. Values are categories and not positions on an
axis, so that huge values keep their distance from each other.
-/
namespace DiceCalculator

structure Figure.Axis where
  title : String
  kind : Option String
  tickFormat : Option String
  deriving DecidableEq, Repr

structure Figure (α : Type) where
  kind : String
  labels : List String
  heights : List α
  horizontal : Figure.Axis
  vertical : Figure.Axis

def Distribution.figure {α : Type} (d : Distribution α) : Figure α :=
  ⟨"bar", d.values.map toString, d.outcomes.map (·.probability),
    ⟨"value", some "category", none⟩, ⟨"probability", none, some "%"⟩⟩

end DiceCalculator
