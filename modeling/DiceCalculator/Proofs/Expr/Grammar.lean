import DiceCalculator.Expr.Parse
/-!
# The grammar of dice notation

A derivation is a tree of productions from one of seven nonterminals, down to the tokens it spells.
It denotes an expression; the tokens alone do not mention how they group. The productions that only
pass a phrase on make each category contain the tighter ones, except that a number of faces is
either an atom or starts with a sign or a `d`.
-/
namespace DiceCalculator

/-- The nonterminals, from the loosest to the tightest. A whole expression is a sum. -/
inductive Category where
  | sum
  | product
  | power
  | unary
  | roll
  | sides
  | atom
  deriving DecidableEq, Repr

/-- A derivation from a nonterminal, with a constructor for every production; a production with a
sign stands for one with `-` and one with `+`. -/
inductive Derivation : Category → Type where
  | ofProduct (p : Derivation .product) : Derivation .sum
  | add (s : Derivation .sum) (p : Derivation .product) : Derivation .sum
  | sub (s : Derivation .sum) (p : Derivation .product) : Derivation .sum
  | ofPower (p : Derivation .power) : Derivation .product
  | mul (p : Derivation .product) (q : Derivation .power) : Derivation .product
  | div (p : Derivation .product) (q : Derivation .power) : Derivation .product
  | ofUnary (u : Derivation .unary) : Derivation .power
  | pow (u : Derivation .unary) (p : Derivation .power) : Derivation .power
  | ofRoll (r : Derivation .roll) : Derivation .unary
  | signed (sign : Sign) (u : Derivation .unary) : Derivation .unary
  | ofAtom (a : Derivation .atom) : Derivation .roll
  | dice (r : Derivation .roll) (s : Derivation .sides) : Derivation .roll
  | die (s : Derivation .sides) : Derivation .roll
  | sidesOfAtom (a : Derivation .atom) : Derivation .sides
  | sidesSigned (sign : Sign) (s : Derivation .sides) : Derivation .sides
  | sidesDie (s : Derivation .sides) : Derivation .sides
  | number (value : Nat) : Derivation .atom
  | paren (s : Derivation .sum) : Derivation .atom

def Sign.token : Sign → Token
  | .minus => .minus
  | .plus => .plus

def ArithOp.token : ArithOp → Token
  | .sum => .plus
  | .difference => .minus
  | .product => .times
  | .quotient => .divide
  | .power => .power

namespace Derivation

/-- The tokens at the leaves of a derivation, from the left. -/
def tokens {c : Category} : Derivation c → List Token
  | ofProduct p => p.tokens
  | add s p => s.tokens ++ .plus :: p.tokens
  | sub s p => s.tokens ++ .minus :: p.tokens
  | ofPower p => p.tokens
  | mul p q => p.tokens ++ .times :: q.tokens
  | div p q => p.tokens ++ .divide :: q.tokens
  | ofUnary u => u.tokens
  | pow u p => u.tokens ++ .power :: p.tokens
  | ofRoll r => r.tokens
  | signed sign u => sign.token :: u.tokens
  | ofAtom a => a.tokens
  | dice r s => r.tokens ++ .die :: s.tokens
  | die s => .die :: s.tokens
  | sidesOfAtom a => a.tokens
  | sidesSigned sign s => sign.token :: s.tokens
  | sidesDie s => .die :: s.tokens
  | number value => [.number value]
  | paren s => .openParen :: (s.tokens ++ [.closeParen])

/-- The expression that a derivation denotes. A `d` without a left operand rolls one die. -/
def denote {c : Category} : Derivation c → Expr
  | ofProduct p => p.denote
  | add s p => .arith .sum s.denote p.denote
  | sub s p => .arith .difference s.denote p.denote
  | ofPower p => p.denote
  | mul p q => .arith .product p.denote q.denote
  | div p q => .arith .quotient p.denote q.denote
  | ofUnary u => u.denote
  | pow u p => .arith .power u.denote p.denote
  | ofRoll r => r.denote
  | signed sign u => .signed sign u.denote
  | ofAtom a => a.denote
  | dice r s => .dice r.denote s.denote
  | die s => .dice (.literal 1) s.denote
  | sidesOfAtom a => a.denote
  | sidesSigned sign s => .signed sign s.denote
  | sidesDie s => .dice (.literal 1) s.denote
  | number value => .literal value
  | paren s => s.denote

theorem denote_nonNegLiterals {c : Category} (d : Derivation c) : d.denote.NonNegLiterals := by
  induction d <;> simp_all [denote, Expr.NonNegLiterals]

end Derivation

namespace Category

/-- The largest precedence that an operator at the root of a phrase can have. -/
def limit : Category → Nat
  | sum => 6
  | product => 5
  | power => 4
  | unary => 3
  | roll => 2
  | sides => 2
  | atom => 0

/-- Every phrase of the first category is one of the second as it stands. -/
def Within (c c' : Category) : Prop :=
  if c' = sides then c = sides ∨ c = atom else c ≠ sides ∧ c.limit ≤ c'.limit

instance (c c' : Category) : Decidable (c.Within c') := by
  unfold Within
  infer_instance

theorem within_iff {c c' : Category} (h : c' ≠ sides) :
    c.Within c' ↔ c ≠ sides ∧ c.limit ≤ c'.limit := by
  rw [Within, if_neg h]

/-- The category that a production passes on without a token; an atom is as tight as can be. -/
def tighter : Category → Category
  | sum => product
  | product => power
  | power => unary
  | unary => roll
  | roll => atom
  | sides => atom
  | atom => atom

private theorem within_tighter {c c' : Category} (h : c.Within c') :
    c = c' ∨ c.Within c'.tighter := by
  cases c <;> cases c' <;> revert h <;> decide

private theorem eq_atom_of_within {c : Category} (h : c.Within atom) : c = atom := by
  cases c <;> revert h <;> decide

theorem within_refl (c : Category) : c.Within c := by
  cases c <;> decide

theorem atom_within (c : Category) : atom.Within c := by
  cases c <;> decide

end Category

namespace ArithOp

/-- The category of the phrases with this operator at the root. -/
def category : ArithOp → Category
  | .sum => .sum
  | .difference => .sum
  | .product => .product
  | .quotient => .product
  | .power => .power

def leftCategory : ArithOp → Category
  | .sum => .sum
  | .difference => .sum
  | .product => .product
  | .quotient => .product
  | .power => .unary

def rightCategory : ArithOp → Category
  | .sum => .product
  | .difference => .product
  | .product => .power
  | .quotient => .power
  | .power => .power

/-- The operator table agrees with the grammar on what an operator binds. -/
theorem limit_category (op : ArithOp) : op.category.limit = (Operator.arith op).precedence := by
  cases op <;> rfl

theorem limit_leftCategory (op : ArithOp) :
    op.leftCategory.limit = (Operator.arith op).leftLimit := by
  cases op <;> rfl

end ArithOp

namespace Operator

theorem arith_le_loosest (op : ArithOp) : (arith op).precedence ≤ loosest := by
  cases op <;> decide

theorem sign_le_loosest (s : Sign) : (sign s).precedence ≤ loosest := by
  cases s <;> decide

end Operator

/-- The tokens have a derivation from this nonterminal that denotes the expression. -/
def Derives (c : Category) (tokens : List Token) (e : Expr) : Prop :=
  ∃ d : Derivation c, d.tokens = tokens ∧ d.denote = e

namespace Derives

variable {c c' : Category} {ts us : List Token} {a b e : Expr}

theorem number (value : Nat) : Derives .atom [.number value] (.literal value) :=
  ⟨.number value, rfl, rfl⟩

theorem paren (h : Derives .sum ts e) : Derives .atom (.openParen :: (ts ++ [.closeParen])) e := by
  obtain ⟨d, rfl, rfl⟩ := h
  exact ⟨.paren d, rfl, rfl⟩

theorem arith (op : ArithOp) (ha : Derives op.leftCategory ts a)
    (hb : Derives op.rightCategory us b) :
    Derives op.category (ts ++ op.token :: us) (.arith op a b) := by
  cases op <;> obtain ⟨d, rfl, rfl⟩ := ha <;> obtain ⟨d', rfl, rfl⟩ := hb
  case sum => exact ⟨.add d d', rfl, rfl⟩
  case difference => exact ⟨.sub d d', rfl, rfl⟩
  case product => exact ⟨.mul d d', rfl, rfl⟩
  case quotient => exact ⟨.div d d', rfl, rfl⟩
  case power => exact ⟨.pow d d', rfl, rfl⟩

theorem dice (ha : Derives .roll ts a) (hb : Derives .sides us b) :
    Derives .roll (ts ++ .die :: us) (.dice a b) := by
  obtain ⟨d, rfl, rfl⟩ := ha
  obtain ⟨d', rfl, rfl⟩ := hb
  exact ⟨.dice d d', rfl, rfl⟩

theorem die (h : Derives .sides ts e) : Derives .roll (.die :: ts) (.dice (.literal 1) e) := by
  obtain ⟨d, rfl, rfl⟩ := h
  exact ⟨.die d, rfl, rfl⟩

theorem sidesDie (h : Derives .sides ts e) :
    Derives .sides (.die :: ts) (.dice (.literal 1) e) := by
  obtain ⟨d, rfl, rfl⟩ := h
  exact ⟨.sidesDie d, rfl, rfl⟩

theorem signed (sign : Sign) (h : Derives .unary ts e) :
    Derives .unary (sign.token :: ts) (.signed sign e) := by
  obtain ⟨d, rfl, rfl⟩ := h
  exact ⟨.signed sign d, rfl, rfl⟩

theorem sidesSigned (sign : Sign) (h : Derives .sides ts e) :
    Derives .sides (sign.token :: ts) (.signed sign e) := by
  obtain ⟨d, rfl, rfl⟩ := h
  exact ⟨.sidesSigned sign d, rfl, rfl⟩

theorem pass (h : Derives c.tighter ts e) : Derives c ts e := by
  obtain ⟨d, rfl, rfl⟩ := h
  cases c with
  | sum => exact ⟨.ofProduct d, rfl, rfl⟩
  | product => exact ⟨.ofPower d, rfl, rfl⟩
  | power => exact ⟨.ofUnary d, rfl, rfl⟩
  | unary => exact ⟨.ofRoll d, rfl, rfl⟩
  | roll => exact ⟨.ofAtom d, rfl, rfl⟩
  | sides => exact ⟨.sidesOfAtom d, rfl, rfl⟩
  | atom => exact ⟨d, rfl, rfl⟩

theorem widen (h : Derives c ts e) (hc : c.Within c') : Derives c' ts e := by
  have up (c' : Category) (below : c.Within c'.tighter → Derives c'.tighter ts e)
      (hw : c.Within c') : Derives c' ts e := by
    obtain rfl | hw := Category.within_tighter hw
    · exact h
    · exact pass (below hw)
  have atom (hw : c.Within .atom) : Derives .atom ts e := Category.eq_atom_of_within hw ▸ h
  have roll := up .roll atom
  have unary := up .unary roll
  have power := up .power unary
  have product := up .product power
  cases c' with
  | sum => exact up .sum product hc
  | product => exact product hc
  | power => exact power hc
  | unary => exact unary hc
  | roll => exact roll hc
  | sides => exact up .sides atom hc
  | atom => exact atom hc

end Derives

end DiceCalculator
