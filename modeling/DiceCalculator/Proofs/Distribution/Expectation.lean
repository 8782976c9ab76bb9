import DiceCalculator.Distribution
import DiceCalculator.Proofs.Distribution.Tally
import Mathlib.Algebra.Order.BigOperators.Group.List
import Mathlib.Algebra.Order.Field.Rat
import Mathlib.Tactic.Ring

/-!
# Expectations under exact distributions

With rational weights a distribution stands for a functional: the expectation of a function of the
value. Masses that are positive and add up to one make a proper distribution, whose expectations are
those of the masses; so functions of independent values have iterated expectations.
-/
namespace DiceCalculator.Distribution

section Masses

variable {α ε : Type} [Weight α]

def pairMasses (f : Int → Int → Int) (d e : Distribution α) : List (Int × α) :=
  d.outcomes.flatMap fun l =>
    e.outcomes.map fun r => (f l.value r.value, Weight.mul l.probability r.probability)

theorem map_eq_ofMasses (f : Int → Int) (d : Distribution α) :
    d.map f = ofMasses (d.outcomes.map fun o => (f o.value, o.probability)) := by
  rw [map, ofMasses, List.foldl_map]

theorem product_eq_ofMasses (f : Int → Int → Int) (d e : Distribution α) :
    d.product f e = ofMasses (pairMasses f d e) := by
  rw [product, ofMasses, pairMasses, List.foldl_flatMap]
  simp only [List.foldl_map]

private theorem foldlM_eq_ok {β γ : Type} {f : β → γ → Except ε β} {g : β → γ → β} {items : List γ}
    (h : ∀ b, ∀ c ∈ items, f b c = .ok (g b c)) (start : β) :
    items.foldlM f start = .ok (items.foldl g start) := by
  induction items generalizing start with
  | nil => rfl
  | cons c items ih =>
      rw [List.foldlM_cons, h start c List.mem_cons_self, List.foldl_cons]
      exact ih (fun b x hx => h b x (List.mem_cons_of_mem c hx)) (g start c)

theorem product?_eq_ok {f : Int → Int → Except ε Int} {g : Int → Int → Int}
    {d e : Distribution α} (h : ∀ a, ∀ b ∈ e.values, f a b = .ok (g a b)) :
    product? f d e = .ok (ofMasses (pairMasses g d e)) := by
  have hstep (l : Outcome α) (tally : Tally α) (r : Outcome α) (hr : r ∈ e.outcomes) :
      (do let value ← f l.value r.value
          pure (tally.add value (Weight.mul l.probability r.probability)) : Except ε (Tally α)) =
        .ok (tally.add (g l.value r.value) (Weight.mul l.probability r.probability)) := by
    rw [h l.value r.value (List.mem_map_of_mem hr)]
    rfl
  rw [product?, foldlM_eq_ok fun tally l _ => foldlM_eq_ok (hstep l) tally, ofMasses, pairMasses,
    List.foldl_flatMap]
  simp only [List.foldl_map]
  rfl

theorem sorted_ofTally (tally : Tally α) : (ofTally tally).values.Pairwise (· < ·) := by
  rw [ofTally]
  split
  · exact List.Pairwise.nil
  · simp only [values, List.map_map]
    have hordered := Std.TreeMap.ordered_keys (t := tally.masses)
    rw [← Std.TreeMap.map_fst_toList_eq_keys] at hordered
    exact hordered.imp fun hlt => Int.compare_eq_lt.mp hlt

end Masses

def expect (d : Distribution Rat) (f : Int → Rat) : Rat :=
  (d.outcomes.map fun o => o.probability * f o.value).sum

/-- The distribution lists possible values only, in increasing order, with exact probabilities. -/
structure IsProper (d : Distribution Rat) : Prop where
  sorted : d.values.Pairwise (· < ·)
  positive : ∀ o ∈ d.outcomes, 0 < o.probability
  mass : (d.expect fun _ => 1) = 1

theorem IsProper.probability_le_one {d : Distribution Rat} (h : d.IsProper)
    {o : Outcome Rat} (ho : o ∈ d.outcomes) : o.probability ≤ 1 := by
  have hmass : (d.outcomes.map (·.probability)).sum = 1 := by
    rw [← h.mass, expect]
    simp
  rw [← hmass]
  refine List.single_le_sum (fun p hp => ?_) _ (List.mem_map_of_mem ho)
  obtain ⟨o', ho', rfl⟩ := List.mem_map.mp hp
  exact (h.positive o' ho').le

theorem isProper_constant (value : Int) : (constant value : Distribution Rat).IsProper :=
  ⟨List.pairwise_singleton _ _, by simp [constant], by simp [constant, expect]⟩

@[simp]
theorem expect_constant (value : Int) (f : Int → Rat) : (constant value).expect f = f value := by
  simp [constant, expect]

theorem expect_congr {d : Distribution Rat} {f g : Int → Rat} (h : ∀ v ∈ d.values, f v = g v) :
    d.expect f = d.expect g := by
  rw [expect, expect, List.map_congr_left fun o ho => by rw [h o.value (List.mem_map_of_mem ho)]]

theorem total_ofList (masses : List (Int × Rat)) :
    (Tally.ofList masses).total = (masses.map Prod.snd).sum := by
  rw [(Tally.consistent_ofList masses).total_eq, Tally.weigh_ofList]
  simp

theorem expect_ofMasses (masses : List (Int × Rat)) (f : Int → Rat) :
    (ofMasses masses).expect f =
      (masses.map fun entry => entry.2 * f entry.1).sum / (masses.map Prod.snd).sum := by
  change (ofTally (Tally.ofList masses)).expect f = _
  rw [ofTally, ← total_ofList, ← Tally.weigh_ofList]
  split
  next hzero =>
    rw [Weight.isZero_rat] at hzero
    rw [hzero, div_zero]
    rfl
  next =>
    rw [← Tally.sum_toList, expect, List.map_map, div_eq_mul_inv, ← List.sum_map_mul_right]
    congr 1
    refine List.map_congr_left fun entry _ => ?_
    simp only [Function.comp_apply, Weight.div_rat]
    ring

private theorem massOf_ofList_pos {masses : List (Int × Rat)} (hpos : ∀ entry ∈ masses, 0 < entry.2)
    {value : Int} (hmem : value ∈ masses.map Prod.fst) :
    0 < (Tally.ofList masses).massOf value := by
  obtain ⟨entry, hentry, rfl⟩ := List.mem_map.mp hmem
  rw [Tally.massOf_ofList]
  have hnonneg : ∀ mass ∈ masses.map fun other => if other.1 = entry.1 then other.2 else 0,
      0 ≤ mass := by
    intro mass hmass
    obtain ⟨other, hother, rfl⟩ := List.mem_map.mp hmass
    split
    · exact (hpos other hother).le
    · exact le_refl 0
  refine (hpos entry hentry).trans_le (List.single_le_sum hnonneg _ ?_)
  exact List.mem_map.mpr ⟨entry, hentry, if_pos rfl⟩

/-- Positive masses that add up to one make a proper distribution. -/
theorem isProper_ofMasses {masses : List (Int × Rat)} (hpos : ∀ entry ∈ masses, 0 < entry.2)
    (hmass : (masses.map Prod.snd).sum = 1) : (ofMasses masses).IsProper := by
  refine ⟨sorted_ofTally _, ?_, ?_⟩
  · change ∀ o ∈ (ofTally (Tally.ofList masses)).outcomes, 0 < o.probability
    rw [ofTally, if_neg (by rw [Weight.isZero_rat, total_ofList, hmass]; exact one_ne_zero),
      total_ofList, hmass]
    intro o ho
    obtain ⟨entry, hentry, rfl⟩ := List.mem_map.mp ho
    obtain ⟨hmem, hmassOf⟩ := Tally.mem_toList hentry
    rw [Tally.mem_ofList] at hmem
    simpa [hmassOf] using massOf_ofList_pos hpos hmem
  · rw [expect_ofMasses]
    simp [hmass]

theorem expect_ofMasses_of_sum_eq_one {masses : List (Int × Rat)}
    (hmass : (masses.map Prod.snd).sum = 1) (f : Int → Rat) :
    (ofMasses masses).expect f = (masses.map fun entry => entry.2 * f entry.1).sum := by
  rw [expect_ofMasses, hmass, div_one]

theorem sum_map_flatMap {β γ : Type} (items : List β) (g : β → List γ) (h : γ → Rat) :
    ((items.flatMap g).map h).sum = (items.map fun b => ((g b).map h).sum).sum := by
  induction items with
  | nil => rfl
  | cons b items ih =>
      rw [List.flatMap_cons, List.map_append, List.sum_append, ih, List.map_cons, List.sum_cons]

private theorem sum_pairMasses (op : Int → Int → Int) (d e : Distribution Rat) (f : Int → Rat) :
    ((pairMasses op d e).map fun entry => entry.2 * f entry.1).sum =
      d.expect fun a => e.expect fun b => f (op a b) := by
  rw [pairMasses, sum_map_flatMap, expect]
  congr 1
  refine List.map_congr_left fun l _ => ?_
  rw [expect, ← List.sum_map_mul_left, List.map_map]
  congr 1
  refine List.map_congr_left fun r _ => ?_
  simp only [Function.comp_apply, Weight.mul_rat]
  ring

theorem sum_pairMasses_eq_one (op : Int → Int → Int) {d e : Distribution Rat}
    (hd : (d.expect fun _ => 1) = 1) (he : (e.expect fun _ => 1) = 1) :
    ((pairMasses op d e).map Prod.snd).sum = 1 := by
  have hone := sum_pairMasses op d e fun _ => 1
  simp only [mul_one, hd, he] at hone
  exact hone

/-- A function of two independent values has an iterated expectation. -/
theorem expect_pairMasses (op : Int → Int → Int) {d e : Distribution Rat}
    (hd : (d.expect fun _ => 1) = 1) (he : (e.expect fun _ => 1) = 1) (f : Int → Rat) :
    (ofMasses (pairMasses op d e)).expect f = d.expect fun a => e.expect fun b => f (op a b) := by
  rw [expect_ofMasses_of_sum_eq_one (sum_pairMasses_eq_one op hd he), sum_pairMasses]

theorem sum_map_masses (g : Int → Int) (d : Distribution Rat) :
    ((d.outcomes.map fun o => (g o.value, o.probability)).map Prod.snd).sum =
      d.expect fun _ => 1 := by
  rw [List.map_map, expect]
  simp [Function.comp_def]

theorem expect_map (g : Int → Int) {d : Distribution Rat} (hd : (d.expect fun _ => 1) = 1)
    (f : Int → Rat) : (d.map g).expect f = d.expect fun a => f (g a) := by
  rw [map_eq_ofMasses, expect_ofMasses_of_sum_eq_one ((sum_map_masses g d).trans hd), List.map_map]
  rfl

theorem expect_comm (d e : Distribution Rat) (g : Int → Int → Rat) :
    (d.expect fun a => e.expect fun b => g a b) = e.expect fun b => d.expect fun a => g a b := by
  have hswap := Multiset.sum_map_sum_map (d.outcomes : Multiset (Outcome Rat))
    (e.outcomes : Multiset (Outcome Rat))
    (f := fun l r => l.probability * (r.probability * g l.value r.value))
  simp only [Multiset.map_coe, Multiset.sum_coe] at hswap
  simp only [expect, ← List.sum_map_mul_left]
  rw [hswap]
  congr 1
  refine List.map_congr_left fun r _ => ?_
  congr 1
  refine List.map_congr_left fun l _ => ?_
  ring

theorem probabilityOf_eq_expect {d : Distribution Rat} (hsorted : d.values.Pairwise (· < ·))
    (value : Int) : d.probabilityOf value = d.expect fun v => if v = value then 1 else 0 := by
  obtain ⟨outcomes⟩ := d
  rw [probabilityOf, expect]
  induction outcomes with
  | nil => rfl
  | cons o outcomes ih =>
      rw [values, List.map_cons, List.pairwise_cons] at hsorted
      rw [List.map_cons, List.sum_cons]
      by_cases ho : o.value = value
      · have hrest : ∀ mass ∈
            outcomes.map fun p => p.probability * if p.value = value then 1 else 0, mass = 0 := by
          intro mass hmass
          obtain ⟨p, hp, rfl⟩ := List.mem_map.mp hmass
          have hlt := hsorted.1 p.value (List.mem_map_of_mem hp)
          rw [if_neg (by omega), mul_zero]
        rw [List.find?_cons_of_pos (by simpa using ho), List.sum_eq_zero hrest]
        simp [ho]
      · rw [List.find?_cons_of_neg (by simpa using ho), ih hsorted.2]
        simp [ho]

theorem IsProper.probabilityOf_eq {d : Distribution Rat} (h : d.IsProper) (value : Int) :
    d.probabilityOf value = d.expect fun v => if v = value then 1 else 0 :=
  probabilityOf_eq_expect h.sorted value

theorem IsProper.mem_values_iff {d : Distribution Rat} (h : d.IsProper) (value : Int) :
    value ∈ d.values ↔ 0 < d.probabilityOf value := by
  rw [probabilityOf]
  split
  next o hfind =>
    have hvalue : o.value = value := by simpa using List.find?_some hfind
    have hmem := List.mem_of_find?_eq_some hfind
    exact ⟨fun _ => h.positive o hmem, fun _ => hvalue ▸ List.mem_map_of_mem hmem⟩
  next hnone =>
    rw [List.find?_eq_none] at hnone
    refine ⟨fun hmem => ?_, fun hpos => absurd hpos (lt_irrefl 0)⟩
    obtain ⟨o, ho, hvalue⟩ := List.mem_map.mp hmem
    exact absurd hvalue (by simpa using hnone o ho)

end DiceCalculator.Distribution
