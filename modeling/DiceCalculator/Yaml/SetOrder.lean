import DiceCalculator.Yaml.Value
/-!
# The order of the members of a set

A set keeps its members in a table of slots, and it shows them in the order of their slots. Where a
number goes follows from its value: from its residue modulo a prime, so that equal numbers go to the
same place, and then from a fixed walk over the table up to a slot that is free. Members that are no
numbers have no fixed place, and a set that holds any keeps the order in which its members come.
-/
namespace DiceCalculator.Yaml.SetOrder

/-- The width of the prime modulus, which is one less than a power of two. -/
def modulusBits : Nat := 61

def modulus : Nat := (1 <<< modulusBits) - 1

def infiniteResidue : Nat := 314159

/-- The size of a number reduced to the modulus. Its denominator is a power of two, and dividing by
two is multiplying by a power of two, as two to the power of the width is one. -/
def residue (num den : Nat) : Nat :=
  num * (1 <<< ((modulusBits - den.log2 % modulusBits) % modulusBits)) % modulus

/-- A code as a word of 64 bits. The code -1 is kept free, so -2 stands for it. -/
def word (negative : Bool) (residue : Nat) : Nat :=
  let code := Numeral.signed negative residue
  (if code = -1 then -2 else code).emod (1 <<< 64 : Nat) |>.toNat

def code? : Quantity → Option Nat
  | .finite negative num den => some (word negative (residue num den))
  | .infinite negative => some (word negative infiniteResidue)
  | .undefined => none

/-- The number of slots for so many members: at least eight, and some are always free. -/
def tableSize (members : Nat) : Nat :=
  if members * 5 < 21 then 8 else max 8 (1 <<< ((2 * members).log2 + 1))

/-- The slots that are tried from one place on: a short run of them, unless the table ends. -/
def run (size slot : Nat) : List Nat :=
  if slot + 9 < size then (List.range 10).map (slot + ·) else [slot]

/-- The first free slot on the walk of a code. The code is used up on the way, and from then on the
walk visits all slots. -/
def freeSlot (table : Array (Option Value)) (code slot : Nat) : Nat → Option Nat
  | 0 => none
  | fuel + 1 =>
    match (run table.size slot).find? fun i => table[i]?.join.isNone with
    | some i => some i
    | none =>
      let code := code >>> 5
      freeSlot table code ((slot * 5 + 1 + code) % table.size) fuel

def insert (table : Array (Option Value)) (member : Value) (code : Nat) : Array (Option Value) :=
  match freeSlot table code (code % table.size) (table.size + 16) with
  | some slot => table.setIfInBounds slot (some member)
  | none => table

/-- The members in the order in which a set shows them. -/
def arrange (members : List Value) : List Value :=
  match members.mapM fun member => member.quantity?.bind code? with
  | none => members
  | some codes =>
    let table := Array.replicate (tableSize members.length) none
    ((members.zip codes).foldl (fun table (member, code) => insert table member code) table)
      |>.toList.filterMap id

end DiceCalculator.Yaml.SetOrder
