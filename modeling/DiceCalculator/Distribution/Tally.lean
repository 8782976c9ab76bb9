import DiceCalculator.Weight
import Std.Data.TreeMap.Basic
/-!
# Tallies

A tally collects mass by value. It remembers in which order the values came up first, because the
total is summed in that order; the entries themselves are kept sorted.
-/
namespace DiceCalculator

/-- The mass of each value seen so far, and the values in the order of their first appearance. -/
structure Tally (α : Type) where
  order : Array Int
  masses : Std.TreeMap Int α

namespace Tally

variable {α : Type} [Weight α]

def empty : Tally α := ⟨#[], ∅⟩

/-- Adds mass to the entry of a value. A new entry starts at zero. -/
def add (tally : Tally α) (value : Int) (mass : α) : Tally α :=
  match tally.masses[value]? with
  | none => ⟨tally.order.push value, tally.masses.insert value (Weight.add Weight.zero mass)⟩
  | some sum => ⟨tally.order, tally.masses.insert value (Weight.add sum mass)⟩

/-- The mass of a value; nothing for a value that never came up. -/
def massOf (tally : Tally α) (value : Int) : α := tally.masses.getD value Weight.zero

/-- All mass together, summed in the order of first appearance. -/
def total (tally : Tally α) : α :=
  tally.order.foldl (fun sum value => Weight.add sum (tally.massOf value)) Weight.zero

def toList (tally : Tally α) : List (Int × α) := tally.masses.toList

end Tally

end DiceCalculator
