import DiceCalculator.Proofs.Expr.Hole
import DiceCalculator.Proofs.Expr.Root
/-!
# Needless parentheses

The operator table puts parentheses around an operand that is no phrase of the category which the
grammar asks for at its place. One place is an exception: a number of faces may start with signs,
and the table wraps it then all the same.
-/
namespace DiceCalculator

open Token (SplitsInContext)

/-! ## Signs in front of an expression -/

/-- What an expression is without the signs in front of it. -/
def Expr.withoutSigns : Expr → Expr
  | .signed _ operand => operand.withoutSigns
  | e => e

/-- One or more signs in front of an expression that is no roll of dice. -/
def Expr.IsSignChain (e : Expr) : Prop :=
  (∃ sign operand, e = .signed sign operand) ∧
    ∀ count sides, e.withoutSigns ≠ .dice count sides

private theorem Category.eq_atom_of_within_sides {c : Category} (hc : c ≠ .sides)
    (h : c.Within .sides) : c = .atom := by
  rw [Within, if_pos rfl] at h
  exact h.resolve_left hc

namespace Expr

variable {e : Expr} {c : Category}

private theorem derives_sides_of_withoutSigns (he : e.NonNegLiterals)
    (hdice : ∀ count sides, e.withoutSigns ≠ .dice count sides) (sign : Sign) :
    Derives .sides (parenthesizeTokensIf ((Operator.sign sign).wrapsRight e.precedence) e.tokens)
      e := by
  induction e generalizing sign with
  | literal value => exact (derives_tokens he).parenthesizeIf fun _ => Category.atom_within _
  | dice count sides => exact absurd rfl (hdice count sides)
  | arith op lhs rhs =>
    have hwraps : (Operator.sign sign).wrapsRight (Expr.arith op lhs rhs).precedence = true := by
      cases sign <;> cases op <;> rfl
    exact (derives_tokens he).parenthesizeIf fun h => absurd (hwraps.symm.trans h) (by decide)
  | signed s operand ih =>
    have hwraps : (Operator.sign sign).wrapsRight (Expr.signed s operand).precedence = false := by
      cases sign <;> cases s <;> rfl
    rw [hwraps]
    exact (ih he hdice s).sidesSigned s

private theorem IsSignChain.derives_sides (h : e.IsSignChain) (he : e.NonNegLiterals) :
    Derives .sides e.tokens e := by
  obtain ⟨⟨sign, operand, rfl⟩, hdice⟩ := h
  exact (derives_sides_of_withoutSigns (e := operand) he hdice sign).sidesSigned sign

/-- Without parentheses an expression is a phrase where its category is one, and a chain of signs is
a number of faces besides. -/
theorem within_or_isSignChain (he : e.NonNegLiterals) (h : Derives c e.tokens e) :
    e.category.Within c ∨ (c = .sides ∧ e.IsSignChain) := by
  induction e generalizing c with
  | literal value => exact .inl (Category.atom_within c)
  | dice count sides =>
    exact .inl (h.dice_operands ((spellsOut_tokens he.1).parenthesizeIf _)
      ((spellsOut_tokens he.2).parenthesizeIf _)).1
  | arith op lhs rhs =>
    exact .inl (h.arith_operands ((spellsOut_tokens he.1).parenthesizeIf _)
      ((spellsOut_tokens he.2).parenthesizeIf _)).1
  | signed sign operand ih =>
    obtain ⟨hwithin, -⟩ | ⟨rfl, hoperand⟩ := h.signed_operand
    · exact .inl hwithin
    · refine .inr ⟨rfl, ⟨sign, operand, rfl⟩, fun count sides hdice => ?_⟩
      cases hwraps : (Operator.sign sign).wrapsRight operand.precedence with
      | true =>
        cases operand with
        | arith op lhs rhs => cases hdice
        | literal value => cases hdice
        | dice n s => cases sign <;> cases hwraps
        | signed s x => cases sign <;> cases s <;> cases hwraps
      | false =>
        rw [hwraps] at hoperand
        obtain hwithin | ⟨-, hchain⟩ := ih he hoperand
        · cases operand with
          | literal value => cases hdice
          | dice n s => exact absurd hwithin (show ¬ Category.roll.Within .sides by decide)
          | arith op lhs rhs => cases hdice
          | signed s x => exact absurd hwithin (show ¬ Category.unary.Within .sides by decide)
        · exact hchain.2 count sides hdice

private theorem within_unary_of_sides (he : e.NonNegLiterals) (h : Derives .sides e.tokens e) :
    e.category.Within .unary := by
  obtain hwithin | ⟨-, ⟨sign, operand, rfl⟩, -⟩ := within_or_isSignChain he h
  · rw [Category.eq_atom_of_within_sides e.category_ne_sides hwithin]
    exact Category.atom_within _
  · exact Category.within_refl _

private theorem not_within_of_limit_lt (hc : c ≠ .sides) (h : c.limit < e.precedence) :
    ¬ e.category.Within c := by
  rw [Category.within_iff hc, e.limit_category]
  exact fun hwithin => Nat.not_lt.mpr hwithin.2 h

end Expr

/-! ## The tokens around an operand -/

namespace Hole

variable {hole : Hole} {x : Expr} {c : Category} {t : String} {ts : List Token}

/-- The category that the grammar asks for at the place of the operand. -/
def category : Hole → Category
  | count _ => .roll
  | sides _ => .sides
  | left op _ => op.leftCategory
  | right op _ => op.rightCategory
  | signed _ => .unary

/-- The tokens of the expression with the operand written as these. -/
def tokensAround (ts : List Token) : Hole → List Token
  | count s => ts ++ .die :: parenthesizeTokensIf (Operator.dice.wrapsRight s.precedence) s.tokens
  | sides n => parenthesizeTokensIf (Operator.dice.wrapsLeft n.precedence) n.tokens ++ .die :: ts
  | left op rhs => ts ++ op.token ::
      parenthesizeTokensIf ((Operator.arith op).wrapsRight rhs.precedence) rhs.tokens
  | right op lhs =>
    parenthesizeTokensIf ((Operator.arith op).wrapsLeft lhs.precedence) lhs.tokens ++
      op.token :: ts
  | signed sign => sign.token :: ts

private theorem eq_sides_of_category (h : hole.category = .sides) :
    ∃ count, hole = .sides count := by
  cases hole with
  | sides n => exact ⟨n, rfl⟩
  | left op rhs => cases op <;> cases h
  | right op lhs => cases op <;> cases h
  | _ => cases h

private theorem nonNegLiterals_operand (h : (hole.fill x).NonNegLiterals) : x.NonNegLiterals := by
  cases hole with
  | count s => exact h.1
  | sides n => exact h.2
  | left op rhs => exact h.1
  | right op lhs => exact h.2
  | signed sign => exact h

private theorem splits (h : (hole.fill x).NonNegLiterals) (hts : SplitsInContext t ts) :
    SplitsInContext (hole.before ++ t ++ hole.after) (hole.tokensAround ts) := by
  cases hole with
  | count s =>
    have hright := (Expr.splits_tokens h.2).parenthesizeIf (Operator.dice.wrapsRight s.precedence)
    simpa [before, after, tokensAround, String.append_assoc] using hts.dice hright
  | sides n =>
    have hleft := (Expr.splits_tokens h.1).parenthesizeIf (Operator.dice.wrapsLeft n.precedence)
    simpa [before, after, tokensAround, String.append_assoc] using hleft.dice hts
  | left op rhs =>
    have hright := (Expr.splits_tokens h.2).parenthesizeIf
      ((Operator.arith op).wrapsRight rhs.precedence)
    simpa [before, after, tokensAround, String.append_assoc] using hts.arith op hright
  | right op lhs =>
    have hleft := (Expr.splits_tokens h.1).parenthesizeIf
      ((Operator.arith op).wrapsLeft lhs.precedence)
    simpa [before, after, tokensAround, String.append_assoc] using hleft.arith op hts
  | signed sign => simpa [before, after, tokensAround] using hts.signed sign

private theorem spellsOut (h : (hole.fill x).NonNegLiterals) (hts : SpellsOut ts x) :
    SpellsOut (hole.tokensAround ts) (hole.fill x) := by
  cases hole with
  | count s => exact hts.dice ((Expr.spellsOut_tokens h.2).parenthesizeIf _)
  | sides n => exact ((Expr.spellsOut_tokens h.1).parenthesizeIf _).dice hts
  | left op rhs => exact hts.arith op ((Expr.spellsOut_tokens h.2).parenthesizeIf _)
  | right op lhs => exact ((Expr.spellsOut_tokens h.1).parenthesizeIf _).arith op hts
  | signed sign => exact hts.signed sign

private theorem derives (h : (hole.fill x).NonNegLiterals) (hts : Derives hole.category ts x) :
    Derives (hole.fill x).category (hole.tokensAround ts) (hole.fill x) := by
  cases hole with
  | count s =>
    exact hts.dice ((Expr.derives_tokens h.2).parenthesizeIf Operator.category_within_sides)
  | sides n =>
    exact ((Expr.derives_tokens h.1).parenthesizeIf Operator.category_within_count).dice hts
  | left op rhs =>
    exact hts.arith op
      ((Expr.derives_tokens h.2).parenthesizeIf (Operator.category_within_right op))
  | right op lhs =>
    exact ((Expr.derives_tokens h.1).parenthesizeIf (Operator.category_within_left op)).arith op hts
  | signed sign => exact hts.signed sign

private theorem derives_operand (h : (hole.fill x).NonNegLiterals) (hts : SpellsOut ts x)
    (hall : Derives c (hole.tokensAround ts) (hole.fill x)) :
    Derives hole.category ts x ∨ ((∃ sign, hole = .signed sign) ∧ Derives .sides ts x) := by
  cases hole with
  | count s =>
    exact .inl (hall.dice_operands hts ((Expr.spellsOut_tokens h.2).parenthesizeIf _)).2.1
  | sides n =>
    exact .inl (hall.dice_operands ((Expr.spellsOut_tokens h.1).parenthesizeIf _) hts).2.2
  | left op rhs =>
    exact .inl (hall.arith_operands hts ((Expr.spellsOut_tokens h.2).parenthesizeIf _)).2.1
  | right op lhs =>
    exact .inl (hall.arith_operands ((Expr.spellsOut_tokens h.1).parenthesizeIf _) hts).2.2
  | signed sign =>
    obtain ⟨-, hunary⟩ | ⟨-, hsides⟩ := hall.signed_operand
    · exact .inl hunary
    · exact .inr ⟨⟨sign, rfl⟩, hsides⟩

/-- An operand in parentheses is no phrase of the category that its place asks for. -/
theorem not_within_of_wraps (h : hole.wraps x = true) : ¬ x.category.Within hole.category := by
  by_cases hsides : hole.category = .sides
  · obtain ⟨n, rfl⟩ := eq_sides_of_category hsides
    intro hwithin
    have hloose : 2 ≤ x.precedence := of_decide_eq_true h
    rw [← x.limit_category, Category.eq_atom_of_within_sides x.category_ne_sides hwithin] at hloose
    exact absurd hloose (by decide)
  · refine Expr.not_within_of_limit_lt hsides ?_
    cases hole with
    | count s => exact of_decide_eq_true h
    | sides n => exact absurd rfl hsides
    | left op rhs => cases op <;> exact of_decide_eq_true h
    | right op lhs => cases op <;> exact of_decide_eq_true h
    | signed sign => cases sign <;> exact of_decide_eq_true h

private theorem within_of_not_wraps (h : hole.wraps x = false) :
    x.category.Within hole.category := by
  cases hole with
  | count s => exact Operator.category_within_count h
  | sides n => exact Operator.category_within_sides h
  | left op rhs => exact Operator.category_within_left op h
  | right op lhs => exact Operator.category_within_right op h
  | signed sign => exact Operator.category_within_signed sign h

/-- Parentheses around this operand in this place are needless: it is a number of faces that is a
chain of signs. -/
def Needless (hole : Hole) (x : Expr) : Prop :=
  (∃ count, hole = .sides count) ∧ x.IsSignChain

end Hole

/-! ## Leaving out a pair -/

/-- A text and its tokens that write an expression without the parentheses around an operand. -/
structure Omits (e : Expr) (hole : Hole) (x : Expr) (t : String) (ts : List Token) : Prop where
  splits : SplitsInContext t ts
  spellsOut : SpellsOut ts e
  needless : ∀ c, Derives c ts e → hole.Needless x
  derives : hole.Needless x → Derives e.category ts e

private theorem Omits.here {hole : Hole} {x : Expr} (he : (hole.fill x).NonNegLiterals)
    (hwraps : hole.wraps x = true) :
    Omits (hole.fill x) hole x (hole.before ++ x.render ++ hole.after)
      (hole.tokensAround x.tokens) := by
  have hx := Hole.nonNegLiterals_operand he
  have hspells := Expr.spellsOut_tokens hx
  refine ⟨Hole.splits he (Expr.splits_tokens hx), Hole.spellsOut he hspells, ?needless, ?derives⟩
  case needless =>
    intro c hall
    have hnot := Hole.not_within_of_wraps hwraps
    obtain hoperand | ⟨⟨sign, rfl⟩, hsides⟩ := Hole.derives_operand he hspells hall
    · obtain hwithin | ⟨hsides, hchain⟩ := Expr.within_or_isSignChain hx hoperand
      · exact absurd hwithin hnot
      · exact ⟨Hole.eq_sides_of_category hsides, hchain⟩
    · exact absurd (Expr.within_unary_of_sides hx hsides) hnot
  case derives =>
    rintro ⟨⟨n, rfl⟩, hchain⟩
    exact Hole.derives he (hchain.derives_sides hx)

private theorem Omits.within (outer : Hole) {y x : Expr} {hole : Hole} {t : String}
    {ts : List Token} (he : (outer.fill y).NonNegLiterals) (h : Omits y hole x t ts) :
    Omits (outer.fill y) hole x (outer.before ++ parenthesizeIf (outer.wraps y) t ++ outer.after)
      (outer.tokensAround (parenthesizeTokensIf (outer.wraps y) ts)) := by
  have hspells := h.spellsOut.parenthesizeIf (outer.wraps y)
  refine ⟨Hole.splits he (h.splits.parenthesizeIf _), Hole.spellsOut he hspells, ?needless,
    ?derives⟩
  case needless =>
    intro c hall
    have hoperand : ∃ c', Derives c' (parenthesizeTokensIf (outer.wraps y) ts) y := by
      obtain hoperand | ⟨-, hsides⟩ := Hole.derives_operand he hspells hall
      · exact ⟨_, hoperand⟩
      · exact ⟨_, hsides⟩
    obtain ⟨c', hoperand⟩ := hoperand
    -- an outer pair around the operand is taken off, and the shorter text is looked at
    cases hwraps : outer.wraps y with
    | false =>
      rw [hwraps] at hoperand
      exact h.needless c' hoperand
    | true =>
      rw [hwraps] at hoperand
      exact h.needless .sum (hoperand.of_enclosed h.spellsOut.balanced)
  case derives =>
    intro hneedless
    exact Hole.derives he ((h.derives hneedless).parenthesizeIf Hole.within_of_not_wraps)

private theorem Encloses.omits {e x : Expr} {hole : Hole} {before after : String}
    (h : Encloses e before hole x after) (he : e.NonNegLiterals) :
    ∃ ts, Omits e hole x (before ++ x.render ++ after) ts := by
  induction h with
  | here hole x wraps => exact ⟨_, .here he wraps⟩
  | @within outer y x hole before after inner ih =>
    obtain ⟨ts, hts⟩ := ih (Hole.nonNegLiterals_operand he)
    have htext : outer.before ++ ((if outer.wraps y then "(" else "") ++ before) ++ x.render ++
        ((after ++ (if outer.wraps y then ")" else "")) ++ outer.after) =
        outer.before ++ parenthesizeIf (outer.wraps y) (before ++ x.render ++ after) ++
          outer.after := by
      rw [parenthesizeIf]
      split <;> simp [String.append_assoc]
    exact ⟨_, htext ▸ hts.within outer he⟩

namespace Expr

variable {e : Expr} {inside before after : String}

/-- The text without a pair reads as the expression only where the pair is needless. -/
theorem parse_omitted_iff {x : Expr} {hole : Hole} (he : e.NonNegLiterals)
    (h : Encloses e before hole x after) :
    Expr.parse (before ++ x.render ++ after) = .ok e ↔ hole.Needless x := by
  obtain ⟨ts, hts⟩ := h.omits he
  constructor
  · intro hparse
    obtain ⟨us, hus, hderives⟩ := parse_eq_ok_iff.mp hparse
    rw [← hts.splits.splits.unique hus] at hderives
    exact hts.needless .sum hderives
  · intro hneedless
    have hsum : e.category.Within .sum := category_within (by decide) e.precedence_le_loosest
    exact parse_eq_ok_iff.mpr ⟨ts, hts.splits.splits, (hts.derives hneedless).widen hsum⟩

/-- Every pair of parentheses in the text of an expression stands around an operand. The text
without the pair reads as the expression just where the operand is the number of faces of dice, and
one or more signs in front of something that is no roll of dice. -/
theorem parse_without_parentheses_iff (he : e.NonNegLiterals)
    (hpair : Brackets.text.Balanced inside.toList)
    (h : e.render = before ++ ("(" ++ inside ++ ")") ++ after) :
    (∃ hole x, Encloses e before hole x after ∧ inside = x.render) ∧
      (Expr.parse (before ++ inside ++ after) = .ok e ↔
        ∃ count x, Encloses e before (.sides count) x after ∧ inside = x.render ∧
          x.IsSignChain) := by
  obtain ⟨hole, x, hencloses, rfl⟩ := (render_eq_iff_encloses he hpair).mp h
  refine ⟨⟨hole, x, hencloses, rfl⟩, ?_⟩
  constructor
  · intro hparse
    obtain ⟨⟨count, rfl⟩, hchain⟩ := (parse_omitted_iff he hencloses).mp hparse
    exact ⟨count, x, hencloses, rfl, hchain⟩
  · rintro ⟨count, y, hother, hsame, hchain⟩
    rw [hsame]
    exact (parse_omitted_iff he hother).mpr ⟨⟨count, rfl⟩, hchain⟩

theorem parse_without_parentheses_of_difference :
    let dice := Expr.dice (.literal 2) (.signed .minus (.literal 6))
    let rest := Expr.arith .difference (.literal 3) (.literal 1)
    let e := Expr.arith .difference dice rest
    e.NonNegLiterals ∧ e.render = "2d" ++ ("(" ++ "-6" ++ ")") ++ " - (3 - 1)" ∧
      e.render = "2d(-6) - " ++ ("(" ++ "3 - 1" ++ ")") ++ "" ∧
      Brackets.text.Balanced "-6".toList ∧ Brackets.text.Balanced "3 - 1".toList ∧
      Expr.parse "2d-6 - (3 - 1)" = .ok e ∧ Expr.parse "2d(-6) - 3 - 1" ≠ .ok e := by
  intro dice rest e
  have he : e.NonNegLiterals := by simp [e, dice, rest, NonNegLiterals]
  have hfirst : e.render = "2d" ++ ("(" ++ "-6" ++ ")") ++ " - (3 - 1)" := by decide +kernel
  have hsecond : e.render = "2d(-6) - " ++ ("(" ++ "3 - 1" ++ ")") ++ "" := by decide +kernel
  have hsix : Brackets.text.Balanced "-6".toList := .of_free ⟨by decide, by decide⟩
  have hrest : Brackets.text.Balanced "3 - 1".toList := .of_free ⟨by decide, by decide⟩
  refine ⟨he, hfirst, hsecond, hsix, hrest, ?needless, ?needed⟩
  case needless =>
    have hhere := Encloses.here (.sides (.literal 2)) (.signed .minus (.literal 6)) rfl
    have hencloses : Encloses e "2d" (.sides (.literal 2)) (.signed .minus (.literal 6))
        " - (3 - 1)" := by
      convert hhere.within (.left .difference rest) using 1
      all_goals decide +kernel
    have hchain : IsSignChain (.signed .minus (.literal 6)) :=
      ⟨⟨_, _, rfl⟩, fun _ _ h => by cases h⟩
    have hiff := (parse_without_parentheses_iff he hsix hfirst).2
    exact hiff.mpr ⟨_, _, hencloses, by decide +kernel, hchain⟩
  case needed =>
    intro hparse
    have hiff := (parse_without_parentheses_iff he hrest hsecond).2
    obtain ⟨count, x, -, htext, ⟨sign, operand, rfl⟩, -⟩ := hiff.mp hparse
    have hhead := congrArg (fun t : String => t.toList.head?) htext
    cases sign <;> simp [render, Operator.sign] at hhead

end Expr

end DiceCalculator
