/-!
# The Mersenne Twister

The generator MT19937 with 32-bit words, seeded by the words of an integer. A number below a bound
is drawn by rejection: as many random bits as the bound has are drawn until they make a number below
it.
-/
namespace DiceCalculator

/-- The state of the generator: 624 words, and how many of them have been used. -/
structure MersenneTwister where
  words : Array UInt32
  used : Nat

namespace MersenneTwister

def size : Nat := 624

/-- The distance of the word that is mixed into each new word. -/
def offset : Nat := 397

/-- The word with an index that is taken modulo nothing: all indices in use are below the size. -/
def word (words : Array UInt32) (i : Nat) : UInt32 := words.getD i 0

def spread (w : UInt32) : UInt32 := w ^^^ (w >>> 30)

def ofWord (seed : UInt32) : Array UInt32 :=
  (List.range (size - 1)).foldl
    (fun words i => words.push (1812433253 * spread (word words i) + UInt32.ofNat (i + 1)))
    #[seed]

/-- A place in the state and in the key during seeding. -/
structure SeedCursor where
  words : Array UInt32
  place : Nat
  keyPlace : Nat

/-- After the last word the first one takes its value, and the walk goes on with the second. -/
def SeedCursor.advance (words : Array UInt32) (place : Nat) : Array UInt32 × Nat :=
  if place + 1 ≥ size then (words.set! 0 (word words (size - 1)), 1) else (words, place + 1)

def SeedCursor.mixKey (key : Array UInt32) (c : SeedCursor) : SeedCursor :=
  let mixed := (word c.words c.place ^^^ (spread (word c.words (c.place - 1)) * 1664525)) +
    key.getD c.keyPlace 0 + UInt32.ofNat c.keyPlace
  let (words, place) := advance (c.words.set! c.place mixed) c.place
  ⟨words, place, if c.keyPlace + 1 ≥ key.size then 0 else c.keyPlace + 1⟩

def SeedCursor.mixPlace (c : SeedCursor) : SeedCursor :=
  let mixed := (word c.words c.place ^^^ (spread (word c.words (c.place - 1)) * 1566083941)) -
    UInt32.ofNat c.place
  let (words, place) := advance (c.words.set! c.place mixed) c.place
  ⟨words, place, c.keyPlace⟩

def ofKey (key : Array UInt32) : MersenneTwister :=
  let start : SeedCursor := ⟨ofWord 19650218, 1, 0⟩
  let keyed := (List.range (max size key.size)).foldl (fun c _ => c.mixKey key) start
  let placed := (List.range (size - 1)).foldl (fun c _ => c.mixPlace) keyed
  ⟨placed.words.set! 0 0x80000000, size⟩

/-- The 32-bit words of a number, the least significant first; zero has one word. -/
def keyWords (n : Nat) : Array UInt32 :=
  (List.range (n.log2 / 32 + 1)).toArray.map fun i => UInt32.ofNat (n >>> (32 * i))

/-- The generator for a seed; the sign of the seed does not count. -/
def ofSeed (seed : Int) : MersenneTwister := ofKey (keyWords seed.natAbs)

def twisted (words : Array UInt32) (i : Nat) : UInt32 :=
  let joined := (word words i &&& 0x80000000) ||| (word words ((i + 1) % size) &&& 0x7fffffff)
  let folded := word words ((i + offset) % size) ^^^ (joined >>> 1)
  if joined &&& 1 = 0 then folded else folded ^^^ 0x9908b0df

/-- Replaces all words, each from those that stand in the state by then. -/
def twist (words : Array UInt32) : Array UInt32 :=
  (List.range size).foldl (fun words i => words.set! i (twisted words i)) words

def temper (w : UInt32) : UInt32 :=
  let w := w ^^^ (w >>> 11)
  let w := w ^^^ ((w <<< 7) &&& 0x9d2c5680)
  let w := w ^^^ ((w <<< 15) &&& 0xefc60000)
  w ^^^ (w >>> 18)

def nextWord : MersenneTwister → UInt32 × MersenneTwister
  | ⟨words, used⟩ =>
    if used < size then (temper (word words used), ⟨words, used + 1⟩)
    else
      let words := twist words
      (temper (word words 0), ⟨words, 1⟩)

/-- This many random bits as a number: words from the least significant up, of which the last gives
its top bits. -/
def nextBits (bits : Nat) (g : MersenneTwister) : Nat × MersenneTwister :=
  if bits ≤ 32 then
    let (w, g) := g.nextWord
    ((w >>> UInt32.ofNat (32 - bits)).toNat, g)
  else
    let (w, g) := g.nextWord
    let (high, g) := nextBits (bits - 32) g
    (w.toNat + (high <<< 32), g)
  termination_by bits

def bitLength (n : Nat) : Nat := if n = 0 then 0 else n.log2 + 1

/-- How often a number is drawn again before the search is given up. No generator gets that far. -/
def patience : Nat := 1 <<< 62

def nextBelow (bound : Nat) : Nat → MersenneTwister → Nat × MersenneTwister
  | 0, g => (0, g)
  | attempts + 1, g =>
    let (n, g) := g.nextBits (bitLength bound)
    if n < bound then (n, g) else nextBelow bound attempts g

/-- Rolls a die: a number from 1 to its number of sides. -/
def roll (g : MersenneTwister) (sides : Int) : Int × MersenneTwister :=
  let (n, g) := nextBelow sides.toNat patience g
  (n + 1, g)

end MersenneTwister

end DiceCalculator
