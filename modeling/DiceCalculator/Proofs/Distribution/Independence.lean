import DiceCalculator.Proofs.Distribution.Normalization
import Mathlib.Algebra.BigOperators.Group.Finset.Sigma

/-!
# Functions of independent values

Masses are merged by value, sorted and normalized again whenever a function is applied. With exact
weights none of this changes a probability: a value of the function has the probability of all
arguments, or pairs of arguments, that the function takes to it. So operands may be swapped, a
second function may be applied at once, and operands of an associative function may be regrouped.
-/
namespace DiceCalculator.Distribution

/-- The values are listed in increasing order, and their probabilities add up to one. A listed value
may have probability zero. -/
structure IsNormalized (d : Distribution Rat) : Prop where
  sorted : d.values.Pairwise (· < ·)
  sum_eq_one : (d.outcomes.map (·.probability)).sum = 1

private theorem IsNormalized.expect_one {d : Distribution Rat} (h : d.IsNormalized) :
    (d.expect fun _ => 1) = 1 := by
  simp only [expect, mul_one]
  exact h.sum_eq_one

section Sorted

variable {d e : Distribution Rat}

private theorem probabilityOf_of_mem (hsorted : d.values.Pairwise (· < ·)) {o : Outcome Rat}
    (ho : o ∈ d.outcomes) : d.probabilityOf o.value = o.probability := by
  have hnodup : (d.outcomes.map (·.value)).Nodup := hsorted.imp fun hlt => ne_of_lt hlt
  rw [probabilityOf]
  split
  next o' hfind =>
    have hvalue : o'.value = o.value := by simpa using List.find?_some hfind
    rw [List.inj_on_of_nodup_map hnodup (List.mem_of_find?_eq_some hfind) ho hvalue]
  next hnone => exact absurd (List.find?_eq_none.mp hnone o ho) (by simp)

private theorem outcomes_eq_map_values (hsorted : d.values.Pairwise (· < ·)) :
    d.outcomes = d.values.map fun value => ⟨value, d.probabilityOf value⟩ := by
  rw [values, List.map_map]
  conv_lhs => rw [← List.map_id d.outcomes]
  refine List.map_congr_left fun o ho => ?_
  rw [Function.comp_apply, probabilityOf_of_mem hsorted ho]
  rfl

private theorem expect_eq_sum (hsorted : d.values.Pairwise (· < ·)) (f : Int → Rat) :
    d.expect f = ∑ value ∈ d.values.toFinset, d.probabilityOf value * f value := by
  have hnodup : d.values.Nodup := hsorted.imp fun hlt => ne_of_lt hlt
  rw [List.sum_toFinset _ hnodup, expect, outcomes_eq_map_values hsorted, List.map_map]
  rfl

/-- Distributions that list the same values and have the same expectations are the same. -/
theorem IsNormalized.ext (hd : d.IsNormalized) (he : e.IsNormalized)
    (hvalues : ∀ value, value ∈ d.values ↔ value ∈ e.values)
    (hexpect : ∀ f, d.expect f = e.expect f) : d = e := by
  have hlist : d.values = e.values := hd.sorted.eq_of_mem_iff he.sorted hvalues
  have hprobability (value : Int) : d.probabilityOf value = e.probabilityOf value := by
    rw [probabilityOf_eq_expect hd.sorted, probabilityOf_eq_expect he.sorted, hexpect]
  have houtcomes : d.outcomes = e.outcomes := by
    rw [outcomes_eq_map_values hd.sorted, outcomes_eq_map_values he.sorted, hlist]
    simp only [hprobability]
  obtain ⟨outcomes⟩ := d
  exact congrArg Distribution.mk houtcomes

end Sorted

/-- Masses that add up to one make a normalized distribution that lists their values. -/
theorem isNormalized_ofMasses {masses : List (Int × Rat)} (hmass : (masses.map Prod.snd).sum = 1) :
    (ofMasses masses).IsNormalized ∧
      ∀ value, value ∈ (ofMasses masses).values ↔ value ∈ masses.map Prod.fst := by
  have htotal : totalMass masses ≠ 0 := by
    rw [totalMass, hmass]
    exact one_ne_zero
  have hnormalizes := normalizes_ofMasses masses
  exact ⟨⟨sorted_ofTally _, hnormalizes.sum_eq_one htotal⟩, hnormalizes.mem_values_iff htotal⟩

section Map

variable {d : Distribution Rat} (hd : d.IsNormalized) (g : Int → Int)

include hd

theorem IsNormalized.map : (d.map g).IsNormalized := by
  rw [map_eq_ofMasses]
  exact (isNormalized_ofMasses ((sum_map_masses g d).trans hd.expect_one)).1

private theorem IsNormalized.mem_values_map (value : Int) :
    value ∈ (d.map g).values ↔ ∃ a ∈ d.values, g a = value := by
  rw [map_eq_ofMasses, (isNormalized_ofMasses ((sum_map_masses g d).trans hd.expect_one)).2]
  simp [values]

private theorem IsNormalized.probabilityOf_map (value : Int) :
    (d.map g).probabilityOf value =
      ∑ a ∈ d.values.toFinset with g a = value, d.probabilityOf a := by
  rw [probabilityOf_eq_expect (hd.map g).sorted, expect_map g hd.expect_one,
    expect_eq_sum hd.sorted, Finset.sum_filter]
  simp only [mul_ite, mul_one, mul_zero]

end Map

section Product

variable {d e : Distribution Rat} (hd : d.IsNormalized) (he : e.IsNormalized)
  (f : Int → Int → Int)

include hd he

theorem IsNormalized.product : (d.product f e).IsNormalized := by
  rw [product_eq_ofMasses]
  exact (isNormalized_ofMasses (sum_pairMasses_eq_one f hd.expect_one he.expect_one)).1

theorem IsNormalized.expect_product (h : Int → Rat) :
    (d.product f e).expect h = d.expect fun a => e.expect fun b => h (f a b) := by
  rw [product_eq_ofMasses, expect_pairMasses f hd.expect_one he.expect_one]

private theorem IsNormalized.mem_values_product (value : Int) :
    value ∈ (d.product f e).values ↔ ∃ a ∈ d.values, ∃ b ∈ e.values, f a b = value := by
  rw [product_eq_ofMasses,
    (isNormalized_ofMasses (sum_pairMasses_eq_one f hd.expect_one he.expect_one)).2]
  simp [pairMasses, values]

private theorem IsNormalized.probabilityOf_product (value : Int) :
    (d.product f e).probabilityOf value =
      ∑ p ∈ d.values.toFinset ×ˢ e.values.toFinset with f p.1 p.2 = value,
        d.probabilityOf p.1 * e.probabilityOf p.2 := by
  rw [probabilityOf_eq_expect (hd.product he f).sorted, hd.expect_product he f,
    expect_eq_sum hd.sorted, Finset.sum_filter, Finset.sum_product]
  refine Finset.sum_congr rfl fun a _ => ?_
  rw [expect_eq_sum he.sorted, Finset.mul_sum]
  refine Finset.sum_congr rfl fun b _ => ?_
  split <;> simp

theorem IsNormalized.product_swap : d.product f e = e.product (fun b a => f a b) d := by
  refine (hd.product he f).ext (he.product hd _) (fun value => ?_) fun h => ?_
  · rw [hd.mem_values_product he, he.mem_values_product hd]
    constructor
    · rintro ⟨a, ha, b, hb, hvalue⟩
      exact ⟨b, hb, a, ha, hvalue⟩
    · rintro ⟨b, hb, a, ha, hvalue⟩
      exact ⟨a, ha, b, hb, hvalue⟩
  · rw [hd.expect_product he, he.expect_product hd, expect_comm]

theorem IsNormalized.map_product (g : Int → Int) :
    (d.product f e).map g = d.product (fun a b => g (f a b)) e := by
  have hproduct := hd.product he f
  refine (hproduct.map g).ext (hd.product he _) (fun value => ?_) fun h => ?_
  · rw [hproduct.mem_values_map, hd.mem_values_product he]
    constructor
    · rintro ⟨c, hc, hvalue⟩
      obtain ⟨a, ha, b, hb, rfl⟩ := (hd.mem_values_product he f c).mp hc
      exact ⟨a, ha, b, hb, hvalue⟩
    · rintro ⟨a, ha, b, hb, hvalue⟩
      exact ⟨f a b, (hd.mem_values_product he f _).mpr ⟨a, ha, b, hb, rfl⟩, hvalue⟩
  · rw [expect_map g hproduct.expect_one, hd.expect_product he, hd.expect_product he]

theorem IsNormalized.product_assoc {c : Distribution Rat} (hc : c.IsNormalized)
    (hassoc : ∀ x y z, f (f x y) z = f x (f y z)) :
    (d.product f e).product f c = d.product f (e.product f c) := by
  have hleft := hd.product he f
  have hright := he.product hc f
  refine (hleft.product hc f).ext (hd.product hright f) (fun value => ?_) fun h => ?_
  · rw [hleft.mem_values_product hc, hd.mem_values_product hright]
    constructor
    · rintro ⟨p, hp, z, hz, rfl⟩
      obtain ⟨x, hx, y, hy, rfl⟩ := (hd.mem_values_product he f p).mp hp
      exact ⟨x, hx, f y z, (he.mem_values_product hc f _).mpr ⟨y, hy, z, hz, rfl⟩,
        (hassoc x y z).symm⟩
    · rintro ⟨x, hx, p, hp, rfl⟩
      obtain ⟨y, hy, z, hz, rfl⟩ := (he.mem_values_product hc f p).mp hp
      exact ⟨f x y, (hd.mem_values_product he f _).mpr ⟨x, hx, y, hy, rfl⟩, z, hz, hassoc x y z⟩
  · rw [hleft.expect_product hc, hd.expect_product he, hd.expect_product hright]
    simp only [he.expect_product hc, hassoc]

/-- A function of independent values has the law that the probabilities of the values give. It is
found alike with the operands swapped and when a second function is applied later or at once, and
for an associative function alike in whatever way three operands are grouped. -/
theorem product_eq_law_of_independent :
    (∀ w, (d.product f e).probabilityOf w =
        ∑ p ∈ d.values.toFinset ×ˢ e.values.toFinset with f p.1 p.2 = w,
          d.probabilityOf p.1 * e.probabilityOf p.2) ∧
      (∀ (g : Int → Int) (w : Int), (d.map g).probabilityOf w =
        ∑ u ∈ d.values.toFinset with g u = w, d.probabilityOf u) ∧
      d.product f e = e.product (fun v u => f u v) d ∧
      (∀ g : Int → Int, (d.product f e).map g = d.product (fun u v => g (f u v)) e) ∧
      ∀ c : Distribution Rat, c.IsNormalized → (∀ x y z, f (f x y) z = f x (f y z)) →
        (d.product f e).product f c = d.product f (e.product f c) := by
  refine ⟨hd.probabilityOf_product he f, hd.probabilityOf_map, hd.product_swap he f,
    hd.map_product he f, ?_⟩
  intro c hc hassoc
  exact hd.product_assoc he f hc hassoc

end Product

theorem product_eq_law_of_maximum :
    let coin : Distribution Rat := ⟨[⟨1, 1 / 2⟩, ⟨2, 1 / 2⟩]⟩
    let skewed : Distribution Rat := ⟨[⟨-1, 0⟩, ⟨1, 1 / 4⟩, ⟨3, 3 / 4⟩]⟩
    coin.IsNormalized ∧ skewed.IsNormalized ∧ (∀ x y z : Int, max (max x y) z = max x (max y z)) ∧
      (coin.product max skewed).probabilityOf 2 =
        (∑ p ∈ coin.values.toFinset ×ˢ skewed.values.toFinset with max p.1 p.2 = 2,
          coin.probabilityOf p.1 * skewed.probabilityOf p.2) ∧
      (coin.product max skewed).probabilityOf 2 = 1 / 8 ∧
      coin.product max skewed = skewed.product (fun v u => max u v) coin ∧
      (coin.product max skewed).map (fun n => -n) =
        coin.product (fun u v => -(max u v)) skewed ∧
      (coin.product max skewed).product max coin = coin.product max (skewed.product max coin) := by
  intro coin skewed
  have hcoin : coin.IsNormalized := ⟨by decide, by decide +kernel⟩
  have hskewed : skewed.IsNormalized := ⟨by decide, by decide +kernel⟩
  have hassoc (x y z : Int) : max (max x y) z = max x (max y z) := max_assoc x y z
  obtain ⟨hlaw, _, hswap, hmap, hregroup⟩ := product_eq_law_of_independent hcoin hskewed max
  exact ⟨hcoin, hskewed, hassoc, hlaw 2, by decide +kernel, hswap, hmap fun n => -n,
    hregroup coin hcoin hassoc⟩

end DiceCalculator.Distribution
