import DiceCalculator.Proofs.Expr.Rendering
import DiceCalculator.Proofs.Text.Brackets
/-!
# Parentheses in a written expression

A hole is an expression that lacks one operand of its outermost operator. The text of an expression
is the text of its hole around that of the operand, which is in parentheses or not. Every pair of
parentheses in the text of an expression stands around an operand of some operator in it.
-/
namespace DiceCalculator

/-- An expression that lacks one operand of its outermost operator. -/
inductive Hole where
  | count (sides : Expr)
  | sides (count : Expr)
  | left (op : ArithOp) (rhs : Expr)
  | right (op : ArithOp) (lhs : Expr)
  | signed (sign : Sign)

namespace Hole

def fill : Hole → Expr → Expr
  | count s, x => .dice x s
  | sides n, x => .dice n x
  | left op rhs, x => .arith op x rhs
  | right op lhs, x => .arith op lhs x
  | signed sign, x => .signed sign x

def wraps : Hole → Expr → Bool
  | count _, x => Operator.dice.wrapsLeft x.precedence
  | sides _, x => Operator.dice.wrapsRight x.precedence
  | left op _, x => (Operator.arith op).wrapsLeft x.precedence
  | right op _, x => (Operator.arith op).wrapsRight x.precedence
  | signed sign, x => (Operator.sign sign).wrapsRight x.precedence

def before : Hole → String
  | count _ => ""
  | sides n => parenthesizeIf (Operator.dice.wrapsLeft n.precedence) n.render ++
      Operator.dice.infixText
  | left _ _ => ""
  | right op lhs => parenthesizeIf ((Operator.arith op).wrapsLeft lhs.precedence) lhs.render ++
      (Operator.arith op).infixText
  | signed sign => (Operator.sign sign).symbol

def after : Hole → String
  | count s => Operator.dice.infixText ++
      parenthesizeIf (Operator.dice.wrapsRight s.precedence) s.render
  | sides _ => ""
  | left op rhs => (Operator.arith op).infixText ++
      parenthesizeIf ((Operator.arith op).wrapsRight rhs.precedence) rhs.render
  | right _ _ => ""
  | signed _ => ""

theorem render_fill (hole : Hole) (x : Expr) :
    (hole.fill x).render = hole.before ++ parenthesizeIf (hole.wraps x) x.render ++ hole.after := by
  cases hole <;> simp [fill, wraps, before, after, Expr.render, String.append_assoc]

end Hole

/-- In the text of an expression a pair of parentheses stands around an operand that fills a hole:
the expression, the text in front of the pair, the hole, the operand, and the text behind the pair.
-/
inductive Encloses : Expr → String → Hole → Expr → String → Prop
  | here (hole : Hole) (x : Expr) (wraps : hole.wraps x = true) :
      Encloses (hole.fill x) hole.before hole x hole.after
  | within (outer : Hole) {y x : Expr} {hole : Hole} {before after : String}
      (inner : Encloses y before hole x after) :
      Encloses (outer.fill y)
        (outer.before ++ ((if outer.wraps y then "(" else "") ++ before)) hole x
        ((after ++ (if outer.wraps y then ")" else "")) ++ outer.after)

theorem Encloses.render_eq {e x : Expr} {hole : Hole} {before after : String}
    (h : Encloses e before hole x after) :
    e.render = before ++ ("(" ++ x.render ++ ")") ++ after := by
  induction h with
  | here hole x wraps => rw [Hole.render_fill, wraps]; rfl
  | @within outer y x hole before after inner ih =>
    rw [Hole.render_fill, ih, parenthesizeIf]
    split <;> simp [String.append_assoc]

def Brackets.text : Brackets Char := ⟨'(', ')', by decide⟩

open Brackets (text)

section Balance

private theorem balanced_parenthesizeIf (wrap : Bool) {t : String} (h : text.Balanced t.toList) :
    text.Balanced (parenthesizeIf wrap t).toList := by
  cases wrap with
  | false => exact h
  | true =>
    have henclosed : text.Balanced ('(' :: (t.toList ++ [')'])) := h.enclose
    simpa [parenthesizeIf] using henclosed

private theorem free_literal (value : Nat) : text.Free (toString (value : Int)).toList := by
  have hdigit (c : Char) (hc : c.isDigit = false) : c ∉ (toString (value : Int)).toList := by
    rw [toList_toString_natCast]
    intro hmem
    rw [Nat.isDigit_of_mem_toDigits (by decide) (by decide) hmem] at hc
    cases hc
  exact ⟨hdigit _ rfl, hdigit _ rfl⟩

private theorem free_infixText (op : Operator) (h : text.Free op.symbol.toList) :
    text.Free op.infixText.toList := by
  obtain ⟨hopening, hclosing⟩ := h
  rw [Operator.infixText]
  split
  · simp only [String.toList_append, Brackets.Free, List.mem_append, not_or]
    exact ⟨⟨⟨by decide, hopening⟩, by decide⟩, ⟨by decide, hclosing⟩, by decide⟩
  · exact ⟨hopening, hclosing⟩

private theorem free_dice : text.Free Operator.dice.infixText.toList :=
  free_infixText _ ⟨by decide, by decide⟩

private theorem free_arith (op : ArithOp) : text.Free (Operator.arith op).infixText.toList := by
  refine free_infixText _ ?_
  cases op <;> exact ⟨by decide, by decide⟩

private theorem free_sign (sign : Sign) : text.Free (Operator.sign sign).symbol.toList := by
  cases sign <;> exact ⟨by decide, by decide⟩

theorem Expr.balanced_render {e : Expr} (h : e.NonNegLiterals) :
    text.Balanced e.render.toList := by
  induction e with
  | literal value =>
    obtain ⟨n, rfl⟩ := Int.eq_ofNat_of_zero_le h
    exact .of_free (free_literal n)
  | dice count sides ihc ihs =>
    simp only [render, String.toList_append]
    exact ((balanced_parenthesizeIf _ (ihc h.1)).append (.of_free free_dice)).append
      (balanced_parenthesizeIf _ (ihs h.2))
  | arith op lhs rhs ihl ihr =>
    simp only [render, String.toList_append]
    exact ((balanced_parenthesizeIf _ (ihl h.1)).append (.of_free (free_arith op))).append
      (balanced_parenthesizeIf _ (ihr h.2))
  | signed sign operand ih =>
    simp only [render, String.toList_append]
    exact (Brackets.Balanced.of_free (free_sign sign)).append (balanced_parenthesizeIf _ (ih h))

end Balance

section Pairs

variable {inside before after : String} {b a : List Char}

private theorem pair_in_operand {wrap : Bool} {t : String} (ht : text.Balanced t.toList)
    (hinside : text.Balanced inside.toList)
    (h : (parenthesizeIf wrap t).toList = b ++ '(' :: (inside.toList ++ ')' :: a)) :
    (wrap = true ∧ b = [] ∧ inside = t ∧ a = []) ∨
      ∃ b' a', t.toList = b' ++ '(' :: (inside.toList ++ ')' :: a') ∧
        b = (if wrap then "(" else "").toList ++ b' ∧
        a = a' ++ (if wrap then ")" else "").toList := by
  cases wrap with
  | false => exact .inr ⟨b, a, h, by simp, by simp⟩
  | true =>
    have hlist : '(' :: (t.toList ++ [')']) = b ++ '(' :: (inside.toList ++ ')' :: a) := by
      simpa [parenthesizeIf] using h
    cases b with
    | nil =>
      obtain ⟨hsame, rfl⟩ := ht.eq_of_closing hinside (List.cons.inj hlist).2
      exact .inl ⟨rfl, rfl, String.toList_inj.mp hsame.symm, rfl⟩
    | cons c b =>
      obtain ⟨rfl, htail⟩ := List.cons.inj hlist
      rcases List.eq_nil_or_concat a with rfl | ⟨a, d, rfl⟩
      · have hopen : t.toList = b ++ '(' :: inside.toList := by
          have hconcat : t.toList ++ [')'] = (b ++ '(' :: inside.toList) ++ [')'] := by
            simpa using htail
          exact List.append_cancel_right hconcat
        have htotal : text.depth (b ++ '(' :: inside.toList) = text.depth b + 1 := by
          rw [Brackets.depth_append, show '(' = text.opening from rfl, Brackets.depth_opening,
            hinside.depth_eq]
          omega
        have hbefore := ht.depth_nonneg b (by rw [hopen]; exact List.prefix_append b _)
        rw [← hopen, ht.depth_eq] at htotal
        omega
      · have hconcat : t.toList ++ [')'] = (b ++ '(' :: (inside.toList ++ ')' :: a)) ++ [d] := by
          simpa using htail
        obtain ⟨hbody, hlast⟩ := List.append_inj' hconcat rfl
        obtain rfl : ')' = d := by simpa using hlast
        exact .inr ⟨b, a, hbody, by simp, by simp⟩

/-- A pair in a text of two balanced parts lies within one of them. -/
private theorem pair_in_parts {p f q x : List Char} (hp : text.Balanced p) (hf : text.Free f)
    (hx : text.Balanced x) (h : p ++ f ++ q = b ++ '(' :: (x ++ ')' :: a)) :
    (∃ a', p = b ++ '(' :: (x ++ ')' :: a') ∧ a = a' ++ (f ++ q)) ∨
      ∃ b', q = b' ++ '(' :: (x ++ ')' :: a) ∧ b = p ++ f ++ b' := by
  rw [List.append_assoc] at h
  rcases List.append_eq_append_iff.mp h with ⟨z, rfl, hz⟩ | ⟨z, rfl, hz⟩
  · rcases List.append_eq_append_iff.mp hz with ⟨z', rfl, hz'⟩ | ⟨z', rfl, hz'⟩
    · exact .inr ⟨z', hz', by simp⟩
    · cases z' with
      | nil => exact .inr ⟨[], by simpa using hz'.symm, by simp⟩
      | cons c z' =>
        obtain ⟨rfl, -⟩ := List.cons.inj hz'
        exact absurd (show '(' ∈ z ++ '(' :: z' by simp) hf.1
  · cases z with
    | nil =>
      cases f with
      | nil => exact .inr ⟨[], by simpa using hz.symm, by simp⟩
      | cons c f =>
        obtain ⟨rfl, -⟩ := List.cons.inj hz
        exact absurd (List.mem_cons_self) hf.1
    | cons c z =>
      obtain ⟨rfl, hrest⟩ := List.cons.inj hz
      obtain ⟨a', rfl, rfl⟩ := hp.closes_within hx hrest.symm
      exact .inl ⟨a', rfl, rfl⟩

private theorem Encloses.of_operand (hole : Hole) {x : Expr} (hx : x.NonNegLiterals)
    (hinside : text.Balanced inside.toList)
    (ih : ∀ before' after' : String, x.render = before' ++ ("(" ++ inside ++ ")") ++ after' →
      ∃ inner y, Encloses x before' inner y after' ∧ inside = y.render)
    (h : (parenthesizeIf (hole.wraps x) x.render).toList = b ++ '(' :: (inside.toList ++ ')' :: a))
    (hb : before.toList = hole.before.toList ++ b) (ha : after.toList = a ++ hole.after.toList) :
    ∃ inner y, Encloses (hole.fill x) before inner y after ∧ inside = y.render := by
  rcases pair_in_operand (Expr.balanced_render hx) hinside h with ⟨hwraps, rfl, rfl, rfl⟩ | hwithin
  · obtain rfl : before = hole.before := String.toList_inj.mp (by simpa using hb)
    obtain rfl : after = hole.after := String.toList_inj.mp (by simpa using ha)
    exact ⟨hole, x, .here hole x hwraps, rfl⟩
  · obtain ⟨b', a', hrender, rfl, rfl⟩ := hwithin
    obtain ⟨inner, y, hencloses, hy⟩ := ih (String.ofList b') (String.ofList a')
      (String.toList_inj.mp (by simpa using hrender))
    obtain rfl : before = hole.before ++ ((if hole.wraps x then "(" else "") ++ String.ofList b') :=
      String.toList_inj.mp (by simpa using hb)
    obtain rfl : after = (String.ofList a' ++ (if hole.wraps x then ")" else "")) ++ hole.after :=
      String.toList_inj.mp (by simpa using ha)
    exact ⟨inner, y, .within hole hencloses, hy⟩

private theorem Expr.exists_encloses {e : Expr} (he : e.NonNegLiterals)
    (hinside : text.Balanced inside.toList)
    (h : e.render = before ++ ("(" ++ inside ++ ")") ++ after) :
    ∃ hole x, Encloses e before hole x after ∧ inside = x.render := by
  -- the text between two operands has no parentheses, so a pair lies within one of them
  induction e generalizing before after with
  | literal value =>
    obtain ⟨n, rfl⟩ := Int.eq_ofNat_of_zero_le he
    have hfree := (free_literal n).1
    rw [show toString (n : Int) = (Expr.literal n).render from rfl, h] at hfree
    exact absurd (by simp [Brackets.text]) hfree
  | dice count sides ihc ihs =>
    have hlist := congrArg String.toList h
    simp only [render, String.toList_append] at hlist
    have hcount := balanced_parenthesizeIf (Operator.dice.wrapsLeft count.precedence)
      (balanced_render he.1)
    rcases pair_in_parts hcount free_dice hinside (by simpa using hlist)
      with ⟨a', hpart, ha⟩ | ⟨b', hpart, hb⟩
    · exact Encloses.of_operand (.count sides) he.1 hinside (fun _ _ => ihc he.1) hpart
        (by simp [Hole.before]) (by simp [Hole.after, ha])
    · exact Encloses.of_operand (.sides count) he.2 hinside (fun _ _ => ihs he.2) hpart
        (by simp [Hole.before, hb]) (by simp [Hole.after])
  | arith op lhs rhs ihl ihr =>
    have hlist := congrArg String.toList h
    simp only [render, String.toList_append] at hlist
    have hleft := balanced_parenthesizeIf ((Operator.arith op).wrapsLeft lhs.precedence)
      (balanced_render he.1)
    rcases pair_in_parts hleft (free_arith op) hinside (by simpa using hlist)
      with ⟨a', hpart, ha⟩ | ⟨b', hpart, hb⟩
    · exact Encloses.of_operand (.left op rhs) he.1 hinside (fun _ _ => ihl he.1) hpart
        (by simp [Hole.before]) (by simp [Hole.after, ha])
    · exact Encloses.of_operand (.right op lhs) he.2 hinside (fun _ _ => ihr he.2) hpart
        (by simp [Hole.before, hb]) (by simp [Hole.after])
  | signed sign operand ih =>
    have hlist := congrArg String.toList h
    simp only [render, String.toList_append] at hlist
    rcases pair_in_parts .nil (free_sign sign) hinside (by simpa using hlist)
      with ⟨a', hpart, _⟩ | ⟨b', hpart, hb⟩
    · exact absurd hpart (by simp)
    · exact Encloses.of_operand (.signed sign) he hinside (fun _ _ => ih he) hpart
        (by simp [Hole.before, hb]) (by simp [Hole.after])

/-- The pairs of parentheses in the text of an expression are those around operands. -/
theorem Expr.render_eq_iff_encloses {e : Expr} (he : e.NonNegLiterals)
    (hinside : text.Balanced inside.toList) :
    e.render = before ++ ("(" ++ inside ++ ")") ++ after ↔
      ∃ hole x, Encloses e before hole x after ∧ inside = x.render := by
  constructor
  · exact exists_encloses he hinside
  · rintro ⟨hole, x, hencloses, rfl⟩
    exact hencloses.render_eq

end Pairs

end DiceCalculator
