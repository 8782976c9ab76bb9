import DiceCalculator.Proofs.Expr.Reader
/-!
# Derivations are unique

An expression does not show where its text had parentheses, nor whether a count of one die was
written. Both are marked: the phrase in a pair of parentheses becomes the exponent of a power of
zero, and all numbers are raised above one, so that a zero or a one can only come from a mark. Now
the expression determines the derivation. The marks are put in token by token, and the reader finds
the expression from the marked tokens; so the tokens alone determine the derivation.
-/
namespace DiceCalculator

def Token.mark : Token → List Token
  | .number value => [.number (value + 2)]
  | .openParen => [.openParen, .number 0, .power, .openParen]
  | .closeParen => [.closeParen, .closeParen]
  | token => [token]

namespace Derivation

def mark {c : Category} : Derivation c → Derivation c
  | ofProduct p => ofProduct p.mark
  | add s p => add s.mark p.mark
  | sub s p => sub s.mark p.mark
  | ofPower p => ofPower p.mark
  | mul p q => mul p.mark q.mark
  | div p q => div p.mark q.mark
  | ofUnary u => ofUnary u.mark
  | pow u p => pow u.mark p.mark
  | ofRoll r => ofRoll r.mark
  | signed sign u => signed sign u.mark
  | ofAtom a => ofAtom a.mark
  | dice r s => dice r.mark s.mark
  | die s => die s.mark
  | sidesOfAtom a => sidesOfAtom a.mark
  | sidesSigned sign s => sidesSigned sign s.mark
  | sidesDie s => sidesDie s.mark
  | number value => number (value + 2)
  | paren s => paren (ofProduct (ofPower (pow (ofRoll (ofAtom (number 0)))
      (ofUnary (ofRoll (ofAtom (paren s.mark)))))))

private theorem tokens_mark {c : Category} (d : Derivation c) :
    d.mark.tokens = d.tokens.flatMap Token.mark := by
  have hsign (sign : Sign) : sign.token.mark = [sign.token] := by cases sign <;> rfl
  induction d <;> simp_all [mark, tokens, Token.mark]

/-- The precedence of a marked expression. A power of zero stands for parentheses, which bind as
tightly as an atom. -/
def markedPrecedence : Expr → Nat
  | .arith .power (.literal 0) _ => 0
  | e => e.precedence

/-- The largest precedence of a marked phrase. Signs within a number of faces count as such. -/
def markedLimit : Category → Nat
  | .sides => 3
  | c => c.limit

private theorem markedPrecedence_le_precedence (e : Expr) : markedPrecedence e ≤ e.precedence := by
  unfold markedPrecedence
  split
  · exact Nat.zero_le _
  · exact Nat.le_refl _

private theorem two_le_of_literal {c : Category} (d : Derivation c) {n : Int}
    (h : d.mark.denote = .literal n) : 2 ≤ n := by
  induction d with
  | number value =>
    simp only [mark, denote, Expr.literal.injEq] at h
    omega
  | _ => simp_all [mark, denote]

private theorem markedPrecedence_le {c : Category} (d : Derivation c) :
    markedPrecedence d.mark.denote ≤ markedLimit c := by
  induction d with
  | ofProduct _ ih => exact Nat.le_trans ih (by decide)
  | ofPower _ ih => exact Nat.le_trans ih (by decide)
  | ofUnary _ ih => exact Nat.le_trans ih (by decide)
  | ofRoll _ ih => exact Nat.le_trans ih (by decide)
  | ofAtom _ ih => exact Nat.le_trans ih (by decide)
  | sidesOfAtom _ ih => exact Nat.le_trans ih (by decide)
  | sidesDie => exact (by decide : 2 ≤ 3)
  | signed sign => cases sign <;> exact Nat.le_refl _
  | sidesSigned sign => cases sign <;> exact Nat.le_refl _
  | pow => exact markedPrecedence_le_precedence _
  | _ => exact Nat.le_refl _

private theorem mark_ne {c : Category} (d : Derivation c) {e : Expr}
    (h : markedLimit c < markedPrecedence e) : d.mark.denote ≠ e := by
  rintro rfl
  exact Nat.not_le.mpr h (markedPrecedence_le d)

private theorem markedPrecedence_pow (u : Derivation .unary) (b : Expr) :
    markedPrecedence (.arith .power u.mark.denote b) = 4 := by
  unfold markedPrecedence
  split
  · next heq =>
    simp only [Expr.arith.injEq, true_and] at heq
    exact absurd (two_le_of_literal u heq.1) (by decide)
  · rfl

theorem mark_inj {c : Category} {d d' : Derivation c} (h : d.mark.denote = d'.mark.denote) :
    d = d' := by
  -- productions for the same nonterminal have different operators at the root, unless one of them
  -- passes a tighter phrase on; these are the operators that such a phrase cannot have
  have hsum (p : Derivation .product) (a b : Expr) : p.mark.denote ≠ .arith .sum a b :=
    mark_ne p (Nat.lt_succ_self 5)
  have hdifference (p : Derivation .product) (a b : Expr) :
      p.mark.denote ≠ .arith .difference a b := mark_ne p (Nat.lt_succ_self 5)
  have hproduct (p : Derivation .power) (a b : Expr) : p.mark.denote ≠ .arith .product a b :=
    mark_ne p (Nat.lt_succ_self 4)
  have hquotient (p : Derivation .power) (a b : Expr) : p.mark.denote ≠ .arith .quotient a b :=
    mark_ne p (Nat.lt_succ_self 4)
  have hpower (u v : Derivation .unary) (b : Expr) :
      u.mark.denote ≠ .arith .power v.mark.denote b :=
    mark_ne u (by rw [markedPrecedence_pow]; decide)
  have hsigned (r : Derivation .roll) (sign : Sign) (a : Expr) : r.mark.denote ≠ .signed sign a :=
    mark_ne r (by cases sign <;> exact Nat.lt_succ_self 2)
  have hsides (a : Derivation .atom) (sign : Sign) (b : Expr) : a.mark.denote ≠ .signed sign b :=
    mark_ne a (by cases sign <;> exact Nat.zero_lt_succ 2)
  have hdice (a : Derivation .atom) (b b' : Expr) : a.mark.denote ≠ .dice b b' :=
    mark_ne a (Nat.zero_lt_succ 1)
  have hone (r : Derivation .roll) : r.mark.denote ≠ .literal 1 :=
    fun heq => absurd (two_le_of_literal r heq) (by decide)
  induction d <;> cases d' <;> simp only [mark, denote] at h <;> grind

/-- Tokens have at most one derivation. -/
theorem tokens_inj {d d' : Derivation .sum} (h : d.tokens = d'.tokens) : d = d' := by
  have htokens : d'.mark.tokens = d.mark.tokens := by rw [tokens_mark, tokens_mark, h]
  have hd := Derives.feed_finish ⟨d.mark, rfl, rfl⟩
  have hd' := Derives.feed_finish ⟨d'.mark, htokens, rfl⟩
  exact mark_inj (Option.some.inj (hd.symm.trans hd'))

end Derivation

end DiceCalculator
