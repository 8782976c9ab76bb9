import DiceCalculator.Proofs.Expr.Sampling

/-!
# Means of expressions

With exact weights the mean of a distribution is the expectation of its value. So means are added,
subtracted and multiplied like the values of independent operands, and the mean of a number of dice
is the mean number times the mean face, also when both numbers depend on dice themselves.
-/
namespace DiceCalculator

namespace Distribution

variable {d : Distribution Rat}

theorem mean_eq_expect (d : Distribution Rat) : d.mean = d.expect fun v => (v : Rat) := by
  rw [mean, expect, List.sum_eq_foldl, List.foldl_map]
  congr 1
  funext sum o
  exact congrArg (sum + ·) (mul_comm (o.value : Rat) o.probability)

theorem expect_add (d : Distribution Rat) (f g : Int → Rat) :
    (d.expect fun v => f v + g v) = d.expect f + d.expect g := by
  simp only [expect, mul_add, List.sum_map_add]

theorem expect_const_mul (d : Distribution Rat) (c : Rat) (f : Int → Rat) :
    (d.expect fun v => c * f v) = c * d.expect f := by
  simp only [expect, mul_left_comm _ c, List.sum_map_mul_left]

private theorem IsProper.expect_const (h : d.IsProper) (c : Rat) : (d.expect fun _ => c) = c := by
  have hconst := expect_const_mul d c fun _ => 1
  simpa only [mul_one, h.mass] using hconst

theorem IsProper.expect_linear (h : d.IsProper) (c k : Rat) :
    (d.expect fun v => c + k * (v : Rat)) = c + k * d.mean := by
  rw [expect_add, h.expect_const, expect_const_mul, mean_eq_expect]

end Distribution

namespace Expr

/-- The expression has a distribution, and this is its mean in exact arithmetic. -/
def HasMean (e : Expr) (mean : Rat) : Prop :=
  ∃ d : Distribution Rat, e.distribution = .ok d ∧ d.mean = mean

private theorem HasMean.of_law {e : Expr} {d : Distribution Rat} (h : e.law = .ok d) :
    e.HasMean d.mean :=
  ⟨d, e.distribution_eq_law.trans h, rfl⟩

private theorem HasMean.exists_law {e : Expr} {m : Rat} (h : e.HasMean m) :
    ∃ d : Distribution Rat, e.law = .ok d ∧ d.mean = m := by
  obtain ⟨d, hd, hmean⟩ := h
  exact ⟨d, e.distribution_eq_law.symm.trans hd, hmean⟩

variable {m : Rat}

private theorem HasMean.arith {op : ArithOp} {a b : Expr} (h : (Expr.arith op a b).HasMean m) :
    ∃ l r : Distribution Rat, l.IsProper ∧ r.IsProper ∧ a.HasMean l.mean ∧ b.HasMean r.mean ∧
      m = l.expect fun x => r.expect fun y => (op.apply x y : Rat) := by
  obtain ⟨d, hd, rfl⟩ := h.exists_law
  obtain ⟨l, r, hl, hr, rfl⟩ := law_arith_eq_ok hd
  have hlproper := isProper_of_law hl
  have hrproper := isProper_of_law hr
  refine ⟨l, r, hlproper, hrproper, .of_law hl, .of_law hr, ?_⟩
  rw [Distribution.mean_eq_expect, Distribution.expect_pairMasses op.apply hlproper.mass
    hrproper.mass]

theorem HasMean.sum {a b : Expr} (h : (Expr.arith .sum a b).HasMean m) :
    ∃ μ ν, a.HasMean μ ∧ b.HasMean ν ∧ m = μ + ν := by
  obtain ⟨l, r, hl, hr, ha, hb, rfl⟩ := h.arith
  refine ⟨_, _, ha, hb, ?_⟩
  have hinner (x : Int) :
      (r.expect fun y => (ArithOp.sum.apply x y : Rat)) = r.mean + 1 * x := by
    have hlinear := hr.expect_linear x 1
    simp only [ArithOp.apply, Int.cast_add, one_mul] at hlinear ⊢
    rw [hlinear, add_comm]
  simp only [hinner, hl.expect_linear]
  ring

theorem HasMean.difference {a b : Expr} (h : (Expr.arith .difference a b).HasMean m) :
    ∃ μ ν, a.HasMean μ ∧ b.HasMean ν ∧ m = μ - ν := by
  obtain ⟨l, r, hl, hr, ha, hb, rfl⟩ := h.arith
  refine ⟨_, _, ha, hb, ?_⟩
  have hinner (x : Int) :
      (r.expect fun y => (ArithOp.difference.apply x y : Rat)) = -r.mean + 1 * x := by
    have hlinear := hr.expect_linear x (-1)
    simp only [ArithOp.apply, Int.cast_sub, neg_one_mul, ← sub_eq_add_neg] at hlinear ⊢
    rw [hlinear]
    ring
  simp only [hinner, hl.expect_linear]
  ring

theorem HasMean.product {a b : Expr} (h : (Expr.arith .product a b).HasMean m) :
    ∃ μ ν, a.HasMean μ ∧ b.HasMean ν ∧ m = μ * ν := by
  obtain ⟨l, r, hl, hr, ha, hb, rfl⟩ := h.arith
  refine ⟨_, _, ha, hb, ?_⟩
  have hinner (x : Int) :
      (r.expect fun y => (ArithOp.product.apply x y : Rat)) = 0 + r.mean * x := by
    have hlinear := hr.expect_linear 0 x
    simp only [ArithOp.apply, Int.cast_mul, zero_add] at hlinear ⊢
    rw [hlinear, mul_comm]
  simp only [hinner, hl.expect_linear]
  ring

private theorem HasMean.signed {sign : Sign} {a : Expr} (h : (Expr.signed sign a).HasMean m) :
    ∃ d : Distribution Rat, a.HasMean d.mean ∧ m = d.expect fun x => (sign.apply x : Rat) := by
  obtain ⟨d, hd, rfl⟩ := h.exists_law
  obtain ⟨c, hc, rfl⟩ := law_signed_eq_ok hd
  refine ⟨c, .of_law hc, ?_⟩
  rw [Distribution.mean_eq_expect, Distribution.expect_map sign.apply (isProper_of_law hc).mass]

private theorem HasMean.minus {a : Expr} (h : (Expr.signed .minus a).HasMean m) :
    ∃ μ, a.HasMean μ ∧ m = -μ := by
  obtain ⟨d, ha, rfl⟩ := h.signed
  refine ⟨_, ha, ?_⟩
  have hneg := Distribution.expect_const_mul d (-1) fun v => (v : Rat)
  simp only [neg_one_mul, ← Distribution.mean_eq_expect] at hneg
  simpa only [Sign.apply, Int.cast_neg] using hneg

private theorem HasMean.plus {a : Expr} (h : (Expr.signed .plus a).HasMean m) : a.HasMean m := by
  obtain ⟨d, ha, rfl⟩ := h.signed
  rwa [Distribution.mean_eq_expect] at ha

/-- Given how many sides the dice have, their mean total grows with the mean of their number; and
that is linear in the number of sides again. -/
theorem HasMean.dice {count sides : Expr} (h : (Expr.dice count sides).HasMean m) :
    ∃ μ ν, count.HasMean μ ∧ sides.HasMean ν ∧ m = μ * (ν + 1) / 2 := by
  obtain ⟨d, hd, rfl⟩ := h.exists_law
  obtain ⟨s, n, hs, hn, hsides, hcount, rfl⟩ := law_dice_eq_ok hd
  have hsproper := isProper_of_law hs
  have hnproper := isProper_of_law hn
  refine ⟨_, _, .of_law hn, .of_law hs, ?_⟩
  have hthrow (v : Int) (hv : v ∈ s.values) :
      (n.expect fun w => (Draws.total v w.toNat 0).expect fun total => (total : Rat)) =
        n.mean / 2 + n.mean / 2 * v := by
    have hface (w : Int) (hw : w ∈ n.values) :
        ((Draws.total v w.toNat 0).expect fun total => (total : Rat)) =
          0 + ((v : Rat) + 1) / 2 * w := by
      have hnat : ((w.toNat : Nat) : Rat) = w := by
        exact_mod_cast Int.toNat_of_nonneg (hcount w hw)
      rw [DiceSum.expect_total_value (hsides v hv), hnat, Int.cast_zero, mul_comm]
    rw [Distribution.expect_congr hface, hnproper.expect_linear]
    ring
  rw [Distribution.mean_eq_expect, (isProper_diceMasses hnproper hsproper hcount hsides).2,
    Distribution.expect_congr hthrow, hsproper.expect_linear]
  ring

/-- Means follow the laws of expectation. Whenever an expression has a distribution, so have its
operands, and the mean of a sum, a difference or a product is that of the two means, a sign applies
to the mean, and dice have as mean the mean of their number times that of a face. -/
theorem mean_of_operation (a b : Expr) (m : Rat) :
    ((Expr.arith .sum a b).HasMean m → ∃ μ ν, a.HasMean μ ∧ b.HasMean ν ∧ m = μ + ν) ∧
      ((Expr.arith .difference a b).HasMean m → ∃ μ ν, a.HasMean μ ∧ b.HasMean ν ∧ m = μ - ν) ∧
      ((Expr.arith .product a b).HasMean m → ∃ μ ν, a.HasMean μ ∧ b.HasMean ν ∧ m = μ * ν) ∧
      ((Expr.signed .minus a).HasMean m → ∃ μ, a.HasMean μ ∧ m = -μ) ∧
      ((Expr.signed .plus a).HasMean m → ∃ μ, a.HasMean μ ∧ m = μ) ∧
      ((Expr.dice a b).HasMean m →
        ∃ μ ν, a.HasMean μ ∧ b.HasMean ν ∧ m = μ * (ν + 1) / 2) :=
  ⟨HasMean.sum, HasMean.difference, HasMean.product, HasMean.minus, fun h => ⟨m, h.plus, rfl⟩,
    HasMean.dice⟩

theorem mean_of_two_coins :
    let coin : Expr := .dice (.literal 1) (.literal 2)
    ((Expr.arith .sum coin coin).HasMean 3 ∧ (Expr.arith .difference coin coin).HasMean 0 ∧
        (Expr.arith .product coin coin).HasMean (9 / 4) ∧
        (Expr.signed .minus coin).HasMean (-3 / 2) ∧ (Expr.signed .plus coin).HasMean (3 / 2) ∧
        (Expr.dice coin coin).HasMean (15 / 8)) ∧
      (∃ μ ν, coin.HasMean μ ∧ coin.HasMean ν ∧ (3 : Rat) = μ + ν) ∧
      (∃ μ ν, coin.HasMean μ ∧ coin.HasMean ν ∧ (0 : Rat) = μ - ν) ∧
      (∃ μ ν, coin.HasMean μ ∧ coin.HasMean ν ∧ (9 / 4 : Rat) = μ * ν) ∧
      (∃ μ, coin.HasMean μ ∧ (-3 / 2 : Rat) = -μ) ∧
      (∃ μ, coin.HasMean μ ∧ (3 / 2 : Rat) = μ) ∧
      ∃ μ ν, coin.HasMean μ ∧ coin.HasMean ν ∧ (15 / 8 : Rat) = μ * (ν + 1) / 2 := by
  intro coin
  have hsum : (Expr.arith .sum coin coin).HasMean 3 :=
    ⟨⟨[⟨2, 1 / 4⟩, ⟨3, 1 / 2⟩, ⟨4, 1 / 4⟩]⟩, by decide +kernel, by decide +kernel⟩
  have hdifference : (Expr.arith .difference coin coin).HasMean 0 :=
    ⟨⟨[⟨-1, 1 / 4⟩, ⟨0, 1 / 2⟩, ⟨1, 1 / 4⟩]⟩, by decide +kernel, by decide +kernel⟩
  have hproduct : (Expr.arith .product coin coin).HasMean (9 / 4) :=
    ⟨⟨[⟨1, 1 / 4⟩, ⟨2, 1 / 2⟩, ⟨4, 1 / 4⟩]⟩, by decide +kernel, by decide +kernel⟩
  have hminus : (Expr.signed .minus coin).HasMean (-3 / 2) :=
    ⟨⟨[⟨-2, 1 / 2⟩, ⟨-1, 1 / 2⟩]⟩, by decide +kernel, by decide +kernel⟩
  have hplus : (Expr.signed .plus coin).HasMean (3 / 2) :=
    ⟨⟨[⟨1, 1 / 2⟩, ⟨2, 1 / 2⟩]⟩, by decide +kernel, by decide +kernel⟩
  have hdice : (Expr.dice coin coin).HasMean (15 / 8) :=
    ⟨⟨[⟨1, 3 / 8⟩, ⟨2, 7 / 16⟩, ⟨3, 1 / 8⟩, ⟨4, 1 / 16⟩]⟩, by decide +kernel, by decide +kernel⟩
  exact ⟨⟨hsum, hdifference, hproduct, hminus, hplus, hdice⟩,
    (mean_of_operation coin coin _).1 hsum, (mean_of_operation coin coin _).2.1 hdifference,
    (mean_of_operation coin coin _).2.2.1 hproduct,
    (mean_of_operation coin coin _).2.2.2.1 hminus,
    (mean_of_operation coin coin _).2.2.2.2.1 hplus,
    (mean_of_operation coin coin _).2.2.2.2.2 hdice⟩

end Expr

end DiceCalculator
