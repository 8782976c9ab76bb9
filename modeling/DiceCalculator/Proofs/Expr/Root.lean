import DiceCalculator.Proofs.Expr.Rendering
import DiceCalculator.Proofs.Text.Brackets
/-!
# The outermost operator of a phrase

The tokens of a phrase are enclosed in parentheses, or they show the outermost operator of the
expression that the phrase denotes. Where that operator stands follows from the expression, as long
as no count of one die was left out: the operands of the expression tell how many tokens other than
parentheses stand on either side of it.
-/
namespace DiceCalculator

def Brackets.tokens : Brackets Token := ⟨.openParen, .closeParen, by decide⟩

def Token.Bare (token : Token) : Prop := token ≠ .openParen ∧ token ≠ .closeParen

instance : DecidablePred Token.Bare := fun token =>
  inferInstanceAs (Decidable (token ≠ .openParen ∧ token ≠ .closeParen))

def Token.bareLength (ts : List Token) : Nat := ts.countP Bare

def Expr.size : Expr → Nat
  | .literal _ => 1
  | .dice count sides => count.size + sides.size + 1
  | .arith _ lhs rhs => lhs.size + rhs.size + 1
  | .signed _ operand => operand.size + 1

theorem Expr.size_pos (e : Expr) : 0 < e.size := by
  cases e <;> simp [size]

open Token (Bare bareLength)
open Brackets (tokens)

private theorem ArithOp.bare_token (op : ArithOp) : Bare op.token := by
  cases op <;> decide

private theorem Sign.bare_token (sign : Sign) : Bare sign.token := by
  cases sign <;> decide

namespace Token

variable {token token' : Token} {ts us ts' us' : List Token}

private theorem Bare.free (h : Bare token) : tokens.Free [token] := by
  refine ⟨?_, ?_⟩
  · exact fun hmem => h.1 (List.mem_singleton.mp hmem).symm
  · exact fun hmem => h.2 (List.mem_singleton.mp hmem).symm

@[simp]
theorem bareLength_nil : bareLength [] = 0 := rfl

@[simp]
theorem bareLength_append (ts us : List Token) :
    bareLength (ts ++ us) = bareLength ts + bareLength us := List.countP_append

private theorem bareLength_cons (h : Bare token) (ts : List Token) :
    bareLength (token :: ts) = bareLength ts + 1 :=
  List.countP_cons_of_pos (decide_eq_true h)

@[simp]
theorem bareLength_openParen (ts : List Token) : bareLength (.openParen :: ts) = bareLength ts :=
  List.countP_cons_of_neg (by decide)

@[simp]
theorem bareLength_closeParen (ts : List Token) : bareLength (.closeParen :: ts) = bareLength ts :=
  List.countP_cons_of_neg (by decide)

private theorem eq_of_bareLength (htoken : Bare token) (htoken' : Bare token')
    (hlength : bareLength ts = bareLength ts')
    (h : ts ++ token :: us = ts' ++ token' :: us') : ts = ts' ∧ us = us' := by
  rcases List.append_eq_append_iff.mp h with ⟨z, rfl, hz⟩ | ⟨z, rfl, hz⟩
  · cases z with
    | nil => exact ⟨(List.append_nil ts).symm, (List.cons.inj hz).2⟩
    | cons c z =>
      obtain ⟨rfl, -⟩ := List.cons.inj hz
      rw [bareLength_append, bareLength_cons htoken] at hlength
      omega
  · cases z with
    | nil => exact ⟨List.append_nil ts', (List.cons.inj hz).2.symm⟩
    | cons c z =>
      obtain ⟨rfl, -⟩ := List.cons.inj hz
      rw [bareLength_append, bareLength_cons htoken'] at hlength
      omega

end Token

namespace Brackets.Balanced

variable {token : Token} {ts us : List Token}

private theorem sign (h : Bare token) (hus : tokens.Balanced us) : tokens.Balanced (token :: us) :=
  (Balanced.of_free h.free).append hus

private theorem operator (h : Bare token) (hts : tokens.Balanced ts) (hus : tokens.Balanced us) :
    tokens.Balanced (ts ++ token :: us) :=
  hts.append (hus.sign h)

end Brackets.Balanced

/-- The tokens are in balanced parentheses, and apart from these there is one token for each literal
and each operator of the expression. -/
structure SpellsOut (ts : List Token) (e : Expr) : Prop where
  balanced : tokens.Balanced ts
  length_eq : bareLength ts = e.size

namespace SpellsOut

variable {ts us : List Token} {a b e : Expr}

private theorem ne_nil (h : SpellsOut ts e) : ts ≠ [] := by
  rintro rfl
  exact absurd h.length_eq.symm (Nat.ne_of_gt e.size_pos)

private theorem literal (value : Nat) : SpellsOut [.number value] (.literal value) := by
  have hbare : Bare (.number value) := ⟨by simp, by simp⟩
  exact ⟨.of_free hbare.free, Token.bareLength_cons hbare []⟩

private theorem enclose (h : SpellsOut ts e) : SpellsOut (.openParen :: (ts ++ [.closeParen])) e :=
  ⟨h.balanced.enclose, by simpa using h.length_eq⟩

theorem parenthesizeIf (wrap : Bool) (h : SpellsOut ts e) :
    SpellsOut (parenthesizeTokensIf wrap ts) e := by
  cases wrap with
  | false => exact h
  | true => exact h.enclose

theorem dice (ha : SpellsOut ts a) (hb : SpellsOut us b) :
    SpellsOut (ts ++ .die :: us) (.dice a b) := by
  have hdie : Bare .die := by decide
  refine ⟨ha.balanced.operator hdie hb.balanced, ?_⟩
  rw [Token.bareLength_append, Token.bareLength_cons hdie, ha.length_eq, hb.length_eq]
  rfl

theorem arith (op : ArithOp) (ha : SpellsOut ts a) (hb : SpellsOut us b) :
    SpellsOut (ts ++ op.token :: us) (.arith op a b) := by
  refine ⟨ha.balanced.operator op.bare_token hb.balanced, ?_⟩
  rw [Token.bareLength_append, Token.bareLength_cons op.bare_token, ha.length_eq, hb.length_eq]
  rfl

theorem signed (sign : Sign) (h : SpellsOut ts e) :
    SpellsOut (sign.token :: ts) (.signed sign e) := by
  refine ⟨h.balanced.sign sign.bare_token, ?_⟩
  rw [Token.bareLength_cons sign.bare_token, h.length_eq]
  rfl

end SpellsOut

theorem Expr.spellsOut_tokens {e : Expr} (h : e.NonNegLiterals) : SpellsOut e.tokens e := by
  induction e with
  | literal value =>
    obtain ⟨n, rfl⟩ := Int.eq_ofNat_of_zero_le h
    exact .literal n
  | dice count sides ihc ihs => exact ((ihc h.1).parenthesizeIf _).dice ((ihs h.2).parenthesizeIf _)
  | arith op lhs rhs ihl ihr =>
    exact ((ihl h.1).parenthesizeIf _).arith op ((ihr h.2).parenthesizeIf _)
  | signed sign operand ih => exact ((ih h).parenthesizeIf _).signed sign

namespace Derivation

private theorem balanced_tokens {c : Category} (d : Derivation c) :
    Brackets.tokens.Balanced d.tokens := by
  induction d with
  | add s p ihs ihp => exact ihs.operator (by decide) ihp
  | sub s p ihs ihp => exact ihs.operator (by decide) ihp
  | mul p q ihp ihq => exact ihp.operator (by decide) ihq
  | div p q ihp ihq => exact ihp.operator (by decide) ihq
  | pow u p ihu ihp => exact ihu.operator (by decide) ihp
  | dice r s ihr ihs => exact ihr.operator (by decide) ihs
  | signed sign u ih => exact ih.sign sign.bare_token
  | sidesSigned sign s ih => exact ih.sign sign.bare_token
  | die s ih => exact ih.sign (by decide)
  | sidesDie s ih => exact ih.sign (by decide)
  | number value => exact (SpellsOut.literal value).balanced
  | paren s ih => exact ih.enclose
  | _ => assumption

/-- All that a derivation may leave out are counts of one die. -/
private theorem bareLength_tokens_le {c : Category} (d : Derivation c) :
    bareLength d.tokens ≤ d.denote.size := by
  have sign (token : Token) (h : Bare token) {us : List Token} {n : Nat}
      (hus : bareLength us ≤ n) : bareLength (token :: us) ≤ n + 1 := by
    rw [Token.bareLength_cons h]
    exact Nat.succ_le_succ hus
  have operator (token : Token) (h : Bare token) {ts us : List Token} {m n : Nat}
      (hts : bareLength ts ≤ m) (hus : bareLength us ≤ n) :
      bareLength (ts ++ token :: us) ≤ m + n + 1 := by
    rw [Token.bareLength_append, Nat.add_assoc]
    exact Nat.add_le_add hts (sign token h hus)
  have die {us : List Token} {n : Nat} (hus : bareLength us ≤ n) :
      bareLength (.die :: us) ≤ 1 + n + 1 :=
    Nat.le_trans (sign .die (by decide) hus) (by omega)
  induction d with
  | add s p ihs ihp => exact operator .plus (by decide) ihs ihp
  | sub s p ihs ihp => exact operator .minus (by decide) ihs ihp
  | mul p q ihp ihq => exact operator .times (by decide) ihp ihq
  | div p q ihp ihq => exact operator .divide (by decide) ihp ihq
  | pow u p ihu ihp => exact operator .power (by decide) ihu ihp
  | dice r s ihr ihs => exact operator .die (by decide) ihr ihs
  | signed s u ih => exact sign s.token s.bare_token ih
  | sidesSigned s t ih => exact sign s.token s.bare_token ih
  | die s ih => exact die ih
  | sidesDie s ih => exact die ih
  | number value => exact Nat.le_of_eq (SpellsOut.literal value).length_eq
  | paren s ih => simpa [Derivation.tokens, denote] using ih
  | _ => assumption

private theorem tokens_ne_nil {c : Category} (d : Derivation c) : d.tokens ≠ [] := by
  induction d <;> simp_all [Derivation.tokens]

end Derivation

/-- The tokens show the outermost operator of the expression: they are not enclosed in parentheses
as a whole. -/
inductive Rooted : Category → List Token → Expr → Prop
  | literal {c : Category} (value : Nat) : Rooted c [.number value] (.literal value)
  | arith {c : Category} (op : ArithOp) {ts us : List Token} {a b : Expr}
      (within : op.category.Within c) (left : Derives op.leftCategory ts a)
      (right : Derives op.rightCategory us b) : Rooted c (ts ++ op.token :: us) (.arith op a b)
  | dice {c : Category} {ts us : List Token} {a b : Expr} (within : Category.roll.Within c)
      (count : Derives .roll ts a) (sides : Derives .sides us b) :
      Rooted c (ts ++ .die :: us) (.dice a b)
  | die {c : Category} {us : List Token} {b : Expr} (sides : Derives .sides us b) :
      Rooted c (.die :: us) (.dice (.literal 1) b)
  | signed {c : Category} {sign : Sign} {us : List Token} {a : Expr}
      (within : Category.unary.Within c) (operand : Derives .unary us a) :
      Rooted c (sign.token :: us) (.signed sign a)
  | sidesSigned {sign : Sign} {us : List Token} {a : Expr} (operand : Derives .sides us a) :
      Rooted .sides (sign.token :: us) (.signed sign a)

private theorem Category.within_of_tighter {c c' : Category} (h : c.Within c'.tighter) :
    c.Within c' := by
  cases c <;> cases c' <;> revert h <;> decide

private theorem Rooted.pass {c : Category} {ts : List Token} {e : Expr}
    (h : Rooted c.tighter ts e) : Rooted c ts e := by
  generalize hc : c.tighter = c' at h
  cases h with
  | literal value => exact .literal value
  | arith op within left right =>
    exact .arith op (Category.within_of_tighter (hc ▸ within)) left right
  | dice within count sides => exact .dice (Category.within_of_tighter (hc ▸ within)) count sides
  | die sides => exact .die sides
  | signed within operand => exact .signed (Category.within_of_tighter (hc ▸ within)) operand
  | sidesSigned operand => cases c <;> cases hc

namespace Derives

variable {c : Category} {ts us : List Token} {a b e : Expr}

theorem balanced (h : Derives c ts e) : tokens.Balanced ts := by
  obtain ⟨d, rfl, rfl⟩ := h
  exact d.balanced_tokens

private theorem ne_nil (h : Derives c ts e) : ts ≠ [] := by
  obtain ⟨d, rfl, rfl⟩ := h
  exact d.tokens_ne_nil

theorem bareLength_le (h : Derives c ts e) : bareLength ts ≤ e.size := by
  obtain ⟨d, rfl, rfl⟩ := h
  exact d.bareLength_tokens_le

/-- A phrase is enclosed in parentheses or shows its outermost operator. -/
theorem enclosed_or_rooted (h : Derives c ts e) :
    (∃ inner, ts = .openParen :: (inner ++ [.closeParen]) ∧ Derives .sum inner e) ∨
      Rooted c ts e := by
  obtain ⟨d, rfl, rfl⟩ := h
  induction d with
  | add s p => exact .inr (.arith .sum (by decide) ⟨s, rfl, rfl⟩ ⟨p, rfl, rfl⟩)
  | sub s p => exact .inr (.arith .difference (by decide) ⟨s, rfl, rfl⟩ ⟨p, rfl, rfl⟩)
  | mul p q => exact .inr (.arith .product (by decide) ⟨p, rfl, rfl⟩ ⟨q, rfl, rfl⟩)
  | div p q => exact .inr (.arith .quotient (by decide) ⟨p, rfl, rfl⟩ ⟨q, rfl, rfl⟩)
  | pow u p => exact .inr (.arith .power (by decide) ⟨u, rfl, rfl⟩ ⟨p, rfl, rfl⟩)
  | dice r s => exact .inr (.dice (by decide) ⟨r, rfl, rfl⟩ ⟨s, rfl, rfl⟩)
  | die s => exact .inr (.die ⟨s, rfl, rfl⟩)
  | sidesDie s => exact .inr (.die ⟨s, rfl, rfl⟩)
  | signed sign u => exact .inr (.signed (by decide) ⟨u, rfl, rfl⟩)
  | sidesSigned sign s => exact .inr (.sidesSigned ⟨s, rfl, rfl⟩)
  | number value => exact .inr (.literal value)
  | paren s => exact .inl ⟨s.tokens, rfl, s, rfl, rfl⟩
  | ofProduct _ ih => exact ih.imp_right .pass
  | ofPower _ ih => exact ih.imp_right .pass
  | ofUnary _ ih => exact ih.imp_right .pass
  | ofRoll _ ih => exact ih.imp_right .pass
  | ofAtom _ ih => exact ih.imp_right .pass
  | sidesOfAtom _ ih => exact ih.imp_right .pass

private theorem rooted_of_operator {token : Token} (h : Derives c (ts ++ token :: us) e)
    (hts : SpellsOut ts a) : Rooted c (ts ++ token :: us) e := by
  obtain ⟨inner, henclosed, hinner⟩ | hrooted := h.enclosed_or_rooted
  · exact absurd henclosed (hinner.balanced.ne_enclosed hts.balanced.depth_eq hts.ne_nil)
  · exact hrooted

theorem arith_operands {op : ArithOp} (h : Derives c (ts ++ op.token :: us) (.arith op a b))
    (ha : SpellsOut ts a) (hb : SpellsOut us b) :
    op.category.Within c ∧ Derives op.leftCategory ts a ∧ Derives op.rightCategory us b := by
  have hrooted := h.rooted_of_operator ha
  generalize hall : ts ++ op.token :: us = all at hrooted
  cases hrooted with
  | arith op' within left right =>
    have hlength := congrArg bareLength hall
    simp only [Token.bareLength_append, Token.bareLength_cons op.bare_token, ha.length_eq,
      hb.length_eq] at hlength
    have hleft := left.bareLength_le
    have hright := right.bareLength_le
    obtain ⟨rfl, rfl⟩ := Token.eq_of_bareLength op.bare_token op.bare_token
      (by rw [ha.length_eq]; omega) hall
    exact ⟨within, left, right⟩

theorem dice_operands (h : Derives c (ts ++ .die :: us) (.dice a b)) (ha : SpellsOut ts a)
    (hb : SpellsOut us b) : Category.roll.Within c ∧ Derives .roll ts a ∧ Derives .sides us b := by
  have hdie : Bare .die := by decide
  have hrooted := h.rooted_of_operator ha
  generalize hall : ts ++ .die :: us = all at hrooted
  have hlength := congrArg bareLength hall
  simp only [Token.bareLength_append, Token.bareLength_cons hdie, ha.length_eq,
    hb.length_eq] at hlength
  cases hrooted with
  | @dice _ ts' us' _ _ within count sides =>
    have hcount := count.bareLength_le
    have hsides := sides.bareLength_le
    simp only [Token.bareLength_append, Token.bareLength_cons hdie] at hlength
    obtain ⟨rfl, rfl⟩ := Token.eq_of_bareLength hdie hdie (by rw [ha.length_eq]; omega) hall
    exact ⟨within, count, sides⟩
  | die sides =>
    -- a count that was left out makes the tokens too few
    have hsides := sides.bareLength_le
    rw [Token.bareLength_cons hdie, Expr.size] at hlength
    omega

theorem signed_operand {sign : Sign} (h : Derives c (sign.token :: us) (.signed sign a)) :
    (Category.unary.Within c ∧ Derives .unary us a) ∨ (c = .sides ∧ Derives .sides us a) := by
  obtain ⟨inner, henclosed, -⟩ | hrooted := h.enclosed_or_rooted
  · exact absurd (List.cons.inj henclosed).1 sign.bare_token.1
  · generalize hall : sign.token :: us = all at hrooted
    cases hrooted with
    | signed within operand =>
      obtain rfl := (List.cons.inj hall).2
      exact .inl ⟨within, operand⟩
    | sidesSigned operand =>
      obtain rfl := (List.cons.inj hall).2
      exact .inr ⟨rfl, operand⟩

theorem of_enclosed (h : Derives c (.openParen :: (ts ++ [.closeParen])) e)
    (hts : tokens.Balanced ts) : Derives .sum ts e := by
  obtain ⟨inner, henclosed, hinner⟩ | hrooted := h.enclosed_or_rooted
  · obtain rfl := List.append_cancel_right (List.cons.inj henclosed).2
    exact hinner
  · -- parentheses around all tokens leave none that could be the outermost operator
    have enclosed {token : Token} {us vs : List Token} {c' : Category} {a : Expr}
        (hus : Derives c' us a) :
        us ++ token :: vs ≠ .openParen :: (ts ++ [.closeParen]) :=
      hts.ne_enclosed hus.balanced.depth_eq hus.ne_nil
    generalize hall : Token.openParen :: (ts ++ [.closeParen]) = all at hrooted
    cases hrooted with
    | literal value => cases hall
    | arith op _ left _ => exact absurd hall.symm (enclosed left)
    | dice _ count _ => exact absurd hall.symm (enclosed count)
    | die sides => cases hall
    | @signed _ sign _ _ _ _ => exact absurd (List.cons.inj hall).1.symm sign.bare_token.1
    | @sidesSigned sign _ _ _ => exact absurd (List.cons.inj hall).1.symm sign.bare_token.1

end Derives

end DiceCalculator
