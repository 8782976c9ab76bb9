import DiceCalculator.Distribution.Tally
/-!
# Distributions over the integers

A distribution lists values with their probabilities. The ones that are built here from masses are
sorted by value, list no value twice, and their probabilities add up to one as far as the weights
allow; only a total mass of zero gives the empty distribution.
-/
namespace DiceCalculator

/-- A value and its probability. -/
structure Outcome (α : Type) where
  value : Int
  probability : α
  deriving DecidableEq, Repr

/-- The outcomes of an experiment, in the order in which they are reported. -/
structure Distribution (α : Type) where
  outcomes : List (Outcome α)
  deriving DecidableEq, Repr

namespace Distribution

variable {α ε : Type}

def empty : Distribution α := ⟨[]⟩

/-- The values in order. -/
def values (d : Distribution α) : List Int := d.outcomes.map (·.value)

def min? (d : Distribution α) : Option Int := d.values.head?

def max? (d : Distribution α) : Option Int := d.values.getLast?

variable [Weight α]

def constant (value : Int) : Distribution α := ⟨[⟨value, Weight.one⟩]⟩

/-- The distribution in proportion to the masses of a tally. -/
def ofTally (tally : Tally α) : Distribution α :=
  let total := tally.total
  if Weight.isZero total then empty
  else ⟨tally.toList.map fun (value, mass) => ⟨value, Weight.div mass total⟩⟩

/-- The distribution in proportion to masses that are added up by value. -/
def ofMasses (masses : List (Int × α)) : Distribution α :=
  ofTally (masses.foldl (fun tally (value, mass) => tally.add value mass) .empty)

def map (f : Int → Int) (d : Distribution α) : Distribution α :=
  ofTally (d.outcomes.foldl (fun tally o => tally.add (f o.value) o.probability) .empty)

def product (f : Int → Int → Int) (d e : Distribution α) : Distribution α :=
  ofTally (d.outcomes.foldl (fun tally l =>
    e.outcomes.foldl (fun tally r =>
      tally.add (f l.value r.value) (Weight.mul l.probability r.probability)) tally) .empty)

/-- The distribution of a function of two independent values that may be undefined. The first pair
of values for which it is undefined decides the error. -/
def product? (f : Int → Int → Except ε Int) (d e : Distribution α) :
    Except ε (Distribution α) :=
  ofTally <$> d.outcomes.foldlM (fun tally l =>
    e.outcomes.foldlM (fun tally r => do
      let value ← f l.value r.value
      pure (tally.add value (Weight.mul l.probability r.probability))) tally) .empty

/-- The probability of a value; a value that is not listed has none. -/
def probabilityOf (d : Distribution α) (value : Int) : α :=
  match d.outcomes.find? (·.value = value) with
  | some outcome => outcome.probability
  | none => Weight.zero

/-- The expected value, summed in the order of the outcomes. -/
def mean (d : Distribution α) : α :=
  d.outcomes.foldl
    (fun sum o => Weight.add sum (Weight.mul (Weight.ofInt o.value) o.probability)) Weight.zero

/-- Two distributions list the same outcomes, with probabilities that compare as equal. -/
def sameAs [BEq α] (d e : Distribution α) : Bool :=
  d.outcomes.length == e.outcomes.length &&
    (d.outcomes.zip e.outcomes).all fun (a, b) =>
      a.value == b.value && a.probability == b.probability

end Distribution

end DiceCalculator
