import DiceCalculator.Expr.Render
import DiceCalculator.Proofs.Expr.Reading
/-!
# Reading back what was written

The writer goes by precedences and the grammar by categories. An operand that the writer leaves
without parentheses is a phrase of the category that the grammar asks for, and one in parentheses
fits anywhere. So the text of an expression without negative literals reads as that expression.
-/
namespace DiceCalculator

open Token (Splits NoDigitAhead)

/-- The category of the phrase that an expression is written as. -/
def Expr.category : Expr → Category
  | .literal _ => .atom
  | .dice _ _ => .roll
  | .arith op _ _ => op.category
  | .signed _ _ => .unary

namespace Expr

theorem category_ne_sides (e : Expr) : e.category ≠ .sides := by
  cases e with
  | arith op => cases op <;> simp [category, ArithOp.category]
  | _ => simp [category]

theorem limit_category (e : Expr) : e.category.limit = e.precedence := by
  cases e with
  | arith op => exact op.limit_category
  | signed sign => cases sign <;> rfl
  | _ => rfl

theorem precedence_le_loosest (e : Expr) : e.precedence ≤ Operator.loosest := by
  cases e with
  | literal => exact Nat.zero_le _
  | dice => exact (by decide : Operator.dice.precedence ≤ Operator.loosest)
  | arith op => exact Operator.arith_le_loosest op
  | signed sign => exact Operator.sign_le_loosest sign

theorem category_within {e : Expr} {c : Category} (hc : c ≠ .sides) (h : e.precedence ≤ c.limit) :
    e.category.Within c :=
  (Category.within_iff hc).mpr ⟨e.category_ne_sides, e.limit_category ▸ h⟩

end Expr

/-! ## The operator table calls for the parentheses that the grammar needs -/

namespace Operator

variable {e : Expr}

theorem category_within_left (op : ArithOp) (h : (arith op).wrapsLeft e.precedence = false) :
    e.category.Within op.leftCategory := by
  have hlimit : e.precedence ≤ (arith op).leftLimit := by
    cases op with
    | power =>
      have hlt : e.precedence < 4 := by simpa [wrapsLeft, arith] using h
      exact Nat.le_of_lt_succ hlt
    | _ => simpa [wrapsLeft, leftLimit, arith] using h
  exact Expr.category_within (by cases op <;> decide) (op.limit_leftCategory ▸ hlimit)

theorem category_within_right (op : ArithOp) (h : (arith op).wrapsRight e.precedence = false) :
    e.category.Within op.rightCategory := by
  refine Expr.category_within (by cases op <;> decide) ?_
  cases op with
  | power => simpa [wrapsRight, arith, ArithOp.rightCategory, Category.limit] using h
  | _ => exact Nat.le_of_lt_succ (Nat.lt_of_not_ge (of_decide_eq_false h))

theorem category_within_count (h : dice.wrapsLeft e.precedence = false) :
    e.category.Within .roll := by
  refine Expr.category_within (by decide) ?_
  simpa [wrapsLeft, dice, Category.limit] using h

theorem category_within_sides (h : dice.wrapsRight e.precedence = false) :
    e.category.Within .sides := by
  have hlt : e.precedence < dice.precedence := by simpa [wrapsRight, dice] using h
  cases e with
  | literal => exact Category.atom_within _
  | dice => exact absurd hlt (Nat.lt_irrefl _)
  | arith op =>
    have hop : dice.precedence ≤ (arith op).precedence := by cases op <;> decide
    exact absurd hlt (Nat.not_lt.mpr hop)
  | signed s =>
    have hsign : dice.precedence ≤ (sign s).precedence := by cases s <;> decide
    exact absurd hlt (Nat.not_lt.mpr hsign)

theorem category_within_signed (sign : Sign)
    (h : (Operator.sign sign).wrapsRight e.precedence = false) : e.category.Within .unary := by
  refine Expr.category_within (by decide) ?_
  cases sign <;> simpa [wrapsRight, Operator.sign, Category.limit] using h

end Operator

/-! ## The tokens of a written expression -/

theorem toList_toString_natCast (value : Nat) :
    (toString (value : Int)).toList = Nat.toDigits 10 value := by
  rw [Int.toString_eq_repr, Int.repr_eq_if]
  simp

def parenthesizeTokensIf (wrap : Bool) (ts : List Token) : List Token :=
  if wrap then .openParen :: (ts ++ [.closeParen]) else ts

/-- The tokens of the text of an expression without negative literals. -/
def Expr.tokens : Expr → List Token
  | .literal value => [.number value.toNat]
  | .dice count sides =>
    parenthesizeTokensIf (Operator.dice.wrapsLeft count.precedence) count.tokens ++
      .die :: parenthesizeTokensIf (Operator.dice.wrapsRight sides.precedence) sides.tokens
  | .arith op lhs rhs =>
    parenthesizeTokensIf ((Operator.arith op).wrapsLeft lhs.precedence) lhs.tokens ++
      op.token :: parenthesizeTokensIf ((Operator.arith op).wrapsRight rhs.precedence) rhs.tokens
  | .signed sign operand =>
    sign.token ::
      parenthesizeTokensIf ((Operator.sign sign).wrapsRight operand.precedence) operand.tokens

theorem Derives.parenthesizeIf {c : Category} {ts : List Token} {e : Expr} {wrap : Bool}
    (h : Derives e.category ts e) (hfits : wrap = false → e.category.Within c) :
    Derives c (parenthesizeTokensIf wrap ts) e := by
  cases wrap with
  | false => exact h.widen (hfits rfl)
  | true =>
    have hsum : e.category.Within .sum :=
      Expr.category_within (by decide) e.precedence_le_loosest
    exact (h.widen hsum).paren.widen (Category.atom_within c)

/-- The tokens of an expression are a phrase of its own category that denotes it. -/
theorem Expr.derives_tokens {e : Expr} (h : e.NonNegLiterals) :
    Derives e.category e.tokens e := by
  induction e with
  | literal value =>
    obtain ⟨n, rfl⟩ := Int.eq_ofNat_of_zero_le h
    exact Derives.number n
  | dice count sides ihc ihs =>
    exact ((ihc h.1).parenthesizeIf Operator.category_within_count).dice
      ((ihs h.2).parenthesizeIf Operator.category_within_sides)
  | arith op lhs rhs ihl ihr =>
    exact ((ihl h.1).parenthesizeIf (Operator.category_within_left op)).arith op
      ((ihr h.2).parenthesizeIf (Operator.category_within_right op))
  | signed sign operand ih =>
    exact ((ih h).parenthesizeIf (Operator.category_within_signed sign)).signed sign

/-- Whatever follows, unless it begins with a digit, the text is cut into these tokens as if it
stood alone. -/
def Token.SplitsInContext (text : String) (ts : List Token) : Prop :=
  ∀ rest us, NoDigitAhead rest → Splits rest us → Splits (text.toList ++ rest) (ts ++ us)

namespace Token.SplitsInContext

variable {text left right : String} {ts us : List Token}

theorem splits (h : SplitsInContext text ts) : Splits text.toList ts := by
  have htext := h [] [] (by simp [NoDigitAhead]) .nil
  rwa [List.append_nil, List.append_nil] at htext

theorem literal (value : Nat) : SplitsInContext (toString (value : Int)) [.number value] := by
  intro rest us hrest hsplits
  rw [toList_toString_natCast]
  exact .number value hrest hsplits

theorem parenthesizeIf (wrap : Bool) (h : SplitsInContext text ts) :
    SplitsInContext (parenthesizeIf wrap text) (parenthesizeTokensIf wrap ts) := by
  cases wrap with
  | false => exact h
  | true =>
    intro rest us _ hrest
    have hclose : Splits (')' :: rest) (.closeParen :: us) := .of_first? (n := 1) rfl hrest
    have hinner := h _ _ (by simp [NoDigitAhead]) hclose
    have hopen : Splits ('(' :: (text.toList ++ ')' :: rest))
        (.openParen :: (ts ++ .closeParen :: us)) := .of_first? (n := 1) rfl hinner
    simpa [DiceCalculator.parenthesizeIf, parenthesizeTokensIf] using hopen

private theorem splits_infix (op : ArithOp) {rest : List Char} {us : List Token}
    (h : Splits rest us) :
    Splits ((Operator.arith op).infixText.toList ++ rest) (op.token :: us) := by
  have hblank {rest : List Char} {us : List Token} (h : Splits rest us) : Splits (' ' :: rest) us :=
    .blank (by simp) h
  have hsymbol : Splits ((Operator.arith op).symbol.toList ++ ' ' :: rest) (op.token :: us) := by
    cases op with
    | power => exact .of_first? (n := 2) rfl (hblank h)
    | _ => exact .of_first? (n := 1) rfl (hblank h)
  have hspaced : (Operator.arith op).spaced = true := by cases op <;> rfl
  simpa [Operator.infixText, hspaced] using hblank hsymbol

theorem arith (op : ArithOp) (hleft : SplitsInContext left ts) (hright : SplitsInContext right us) :
    SplitsInContext (left ++ (Operator.arith op).infixText ++ right) (ts ++ op.token :: us) := by
  intro rest vs hrest hvs
  have hoperator := splits_infix op (hright rest vs hrest hvs)
  have hall := hleft _ _ (by cases op <;> simp [NoDigitAhead, Operator.infixText, Operator.arith])
    hoperator
  simpa using hall

theorem dice (hleft : SplitsInContext left ts) (hright : SplitsInContext right us) :
    SplitsInContext (left ++ Operator.dice.infixText ++ right) (ts ++ .die :: us) := by
  intro rest vs hrest hvs
  have hdie : Splits ('d' :: (right.toList ++ rest)) (.die :: (us ++ vs)) :=
    .of_first? (n := 1) rfl (hright rest vs hrest hvs)
  have hall := hleft _ _ (by simp [NoDigitAhead]) hdie
  simpa [Operator.infixText, Operator.dice] using hall

theorem signed (sign : Sign) (h : SplitsInContext text ts) :
    SplitsInContext ((Operator.sign sign).symbol ++ text) (sign.token :: ts) := by
  intro rest us hrest hus
  have htail := h rest us hrest hus
  cases sign with
  | minus =>
    have hall : Splits ('-' :: (text.toList ++ rest)) (.minus :: (ts ++ us)) :=
      .of_first? (n := 1) rfl htail
    simpa [Operator.sign, Sign.token] using hall
  | plus =>
    have hall : Splits ('+' :: (text.toList ++ rest)) (.plus :: (ts ++ us)) :=
      .of_first? (n := 1) rfl htail
    simpa [Operator.sign, Sign.token] using hall

end Token.SplitsInContext

theorem Expr.splits_tokens {e : Expr} (h : e.NonNegLiterals) :
    Token.SplitsInContext e.render e.tokens := by
  induction e with
  | literal value =>
    obtain ⟨n, rfl⟩ := Int.eq_ofNat_of_zero_le h
    exact .literal n
  | dice count sides ihc ihs => exact ((ihc h.1).parenthesizeIf _).dice ((ihs h.2).parenthesizeIf _)
  | arith op lhs rhs ihl ihr =>
    exact ((ihl h.1).parenthesizeIf _).arith op ((ihr h.2).parenthesizeIf _)
  | signed sign operand ih => exact ((ih h).parenthesizeIf _).signed sign

namespace Expr

theorem parse_render {e : Expr} (h : e.NonNegLiterals) : Expr.parse e.render = .ok e := by
  have hsum : e.category.Within .sum := category_within (by decide) e.precedence_le_loosest
  have hderives : Derives .sum e.tokens e := (derives_tokens h).widen hsum
  exact parse_eq_ok_iff.mpr ⟨e.tokens, (splits_tokens h).splits, hderives⟩

theorem nonNegLiterals_of_parse {text : String} {e : Expr} (h : Expr.parse text = .ok e) :
    e.NonNegLiterals := by
  obtain ⟨_, _, d, _, rfl⟩ := parse_eq_ok_iff.mp h
  exact d.denote_nonNegLiterals

/-- Reading undoes writing for every expression without negative literals; so the text of such an
expression is its own, and writing what was read from any text is a fixed point. -/
theorem parse_render_inverse :
    (∀ e : Expr, e.NonNegLiterals → Expr.parse e.render = .ok e) ∧
      (∀ a b : Expr, a.NonNegLiterals → b.NonNegLiterals → a.render = b.render → a = b) ∧
      ∀ (text : String) (e : Expr), Expr.parse text = .ok e →
        ∃ again, Expr.parse e.render = .ok again ∧ again.render = e.render := by
  refine ⟨fun e => parse_render, ?_, ?_⟩
  · intro a b ha hb htext
    have hread : Except.ok (ε := ParseError) a = .ok b := by
      rw [← parse_render ha, ← parse_render hb, htext]
    exact Except.ok.inj hread
  · intro text e hparse
    exact ⟨e, parse_render (nonNegLiterals_of_parse hparse), rfl⟩

theorem parse_render_of_nested_difference :
    (Expr.arith .difference (.literal 1) (.arith .difference (.literal 2)
        (.dice (.literal 3) (.signed .minus (.literal 4))))).NonNegLiterals ∧
      Expr.parse "1 - (2 - 3d(-4))" = .ok (.arith .difference (.literal 1)
        (.arith .difference (.literal 2) (.dice (.literal 3) (.signed .minus (.literal 4))))) ∧
      Expr.parse "01-((2)-3d-4)" = .ok (.arith .difference (.literal 1)
        (.arith .difference (.literal 2) (.dice (.literal 3) (.signed .minus (.literal 4))))) ∧
      ∃ again, Expr.parse "1 - (2 - 3d(-4))" = .ok again ∧ again.render = "1 - (2 - 3d(-4))" := by
  have hliterals : (Expr.arith .difference (.literal 1) (.arith .difference (.literal 2)
      (.dice (.literal 3) (.signed .minus (.literal 4))))).NonNegLiterals := by
    simp [NonNegLiterals]
  have hread : Expr.parse "01-((2)-3d-4)" = .ok (.arith .difference (.literal 1)
      (.arith .difference (.literal 2) (.dice (.literal 3) (.signed .minus (.literal 4))))) := by
    decide +kernel
  exact ⟨hliterals, parse_render_inverse.1 _ hliterals, hread, parse_render_inverse.2.2 _ _ hread⟩

end Expr

end DiceCalculator
