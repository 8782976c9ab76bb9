import Std.Data.TreeMap.Basic
/-!
# Binomial coefficients with a memory

A coefficient is found by walking up its diagonal of Pascal's triangle to the edge or to a
remembered coefficient, and multiplying on the way back. Every third row on the way is remembered. A
position in the triangle is stored under a single number, its Cantor number.
-/
namespace DiceCalculator

/-- The Cantor number of a pair: distinct pairs have distinct numbers. -/
def cantorNumber (n r : Nat) : Nat := (n + r) * (n + r + 1) / 2 + r

/-- The remembered coefficients, and how often one of them was used. -/
structure Binomials where
  kept : Std.TreeMap Nat Nat
  hits : Nat

namespace Binomials

def empty : Binomials := ⟨∅, 0⟩

/-- The rows of the triangle that are remembered. -/
def keepsRow (n : Nat) : Bool := n % 3 = 2

def keep (memory : Binomials) (n r value : Nat) : Binomials :=
  if keepsRow n then { memory with kept := memory.kept.insert (cantorNumber n r) value } else memory

/-- The coefficient in row `n` and column `r`, from the one before it on the diagonal. -/
def walk (memory : Binomials) (n : Nat) : Nat → Nat × Binomials
  | 0 => (1, memory)
  | r + 1 =>
    match memory.kept[cantorNumber n (r + 1)]? with
    | some value => (value, { memory with hits := memory.hits + 1 })
    | none =>
      let (before, memory) := walk memory (n - 1) r
      let value := n * before / (r + 1)
      (value, memory.keep n (r + 1) value)

/-- The column from which the walk starts: the nearer one of two symmetric columns. -/
def nearerColumn (n r : Int) : Int := if n / 2 < r then n - r else r

/-- The number of ways to choose `r` of `n` things. Arguments outside the triangle give zero on the
right of it and one on the left. -/
def choose (n r : Int) : StateM Binomials Nat := fun memory =>
  if n < r then (0, memory) else memory.walk n.toNat (nearerColumn n r).toNat

def toList (memory : Binomials) : List (Nat × Nat) := memory.kept.toList

def describe (memory : Binomials) : String :=
  "Combinations(" ++ toString memory.kept.size ++ " cached, " ++ toString memory.hits ++ " hits)"

end Binomials

end DiceCalculator
