import DiceCalculator.Distribution.Tally
import Mathlib.Algebra.BigOperators.Ring.Finset
import Mathlib.Algebra.Field.Rat
import Std.Data.TreeMap.Lemmas

/-!
# Tallies of rational masses

Weighing a tally means adding up a function of the values in proportion to their masses. Each mass
that is added counts once, for the value that it is added to.
-/
namespace DiceCalculator

namespace Weight

@[simp] theorem zero_rat : (Weight.zero : Rat) = 0 := rfl
@[simp] theorem one_rat : (Weight.one : Rat) = 1 := rfl
@[simp] theorem add_rat (a b : Rat) : Weight.add a b = a + b := rfl
@[simp] theorem mul_rat (a b : Rat) : Weight.mul a b = a * b := rfl
@[simp] theorem div_rat (a b : Rat) : Weight.div a b = a / b := rfl
@[simp] theorem ratio_rat (a b : Int) : (Weight.ratio a b : Rat) = a / b := rfl
@[simp] theorem isZero_rat (a : Rat) : Weight.isZero a = true ↔ a = 0 := beq_iff_eq

end Weight

namespace Tally

section Order

variable {α : Type} [Weight α]

/-- The order of first appearance names each value of the tally once, and no other. -/
structure Consistent (tally : Tally α) : Prop where
  nodup : tally.order.toList.Nodup
  mem_iff : ∀ value, value ∈ tally.order.toList ↔ value ∈ tally.masses

omit [Weight α] in
private theorem consistent_empty : (empty : Tally α).Consistent :=
  ⟨List.nodup_nil, fun value => by simp [empty]⟩

private theorem mem_masses_add (tally : Tally α) (value w : Int) (mass : α) :
    w ∈ (tally.add value mass).masses ↔ value = w ∨ w ∈ tally.masses := by
  unfold add
  split <;> simp [Std.TreeMap.mem_insert]

theorem Consistent.add {tally : Tally α} (h : tally.Consistent) (value : Int) (mass : α) :
    (tally.add value mass).Consistent := by
  unfold Tally.add
  split
  next hnone =>
    have hout : value ∉ tally.order.toList := by
      rw [h.mem_iff, Std.TreeMap.mem_iff_isSome_getElem?, hnone]
      simp
    refine ⟨?_, fun w => ?_⟩
    · rw [Array.toList_push, List.nodup_append]
      refine ⟨h.nodup, List.nodup_singleton value, fun a ha b hb hab => ?_⟩
      rw [List.mem_singleton.mp hb] at hab
      exact hout (hab ▸ ha)
    · rw [Array.toList_push, List.mem_append, h.mem_iff, List.mem_singleton,
        Std.TreeMap.mem_insert, Std.LawfulEqCmp.compare_eq_iff_eq]
      rw [or_comm, eq_comm]
  next sum hsome =>
    refine ⟨h.nodup, fun w => ?_⟩
    rw [h.mem_iff, Std.TreeMap.mem_insert, Std.LawfulEqCmp.compare_eq_iff_eq]
    constructor
    · exact Or.inr
    · rintro (rfl | hw)
      · rw [Std.TreeMap.mem_iff_isSome_getElem?, hsome]
        rfl
      · exact hw

end Order

private theorem massOf_eq_getD (tally : Tally Rat) (value : Int) :
    tally.massOf value = tally.masses[value]?.getD 0 :=
  Std.TreeMap.getD_eq_getD_getElem?

private theorem massOf_of_not_mem {tally : Tally Rat} {value : Int} (h : value ∉ tally.masses) :
    tally.massOf value = 0 :=
  Std.TreeMap.getD_eq_fallback h

theorem massOf_add (tally : Tally Rat) (value w : Int) (mass : Rat) :
    (tally.add value mass).massOf w = tally.massOf w + if value = w then mass else 0 := by
  simp only [massOf_eq_getD, add]
  split
  next hnone =>
    simp only [Std.TreeMap.getElem?_insert, Std.LawfulEqCmp.compare_eq_iff_eq]
    by_cases hw : value = w
    · subst hw
      simp [hnone]
    · simp [hw]
  next sum hsome =>
    simp only [Std.TreeMap.getElem?_insert, Std.LawfulEqCmp.compare_eq_iff_eq]
    by_cases hw : value = w
    · subst hw
      simp [hsome]
    · simp [hw]

def support (tally : Tally Rat) : Finset Int := tally.masses.keys.toFinset

private theorem mem_support {tally : Tally Rat} {value : Int} :
    value ∈ tally.support ↔ value ∈ tally.masses := by
  rw [support, List.mem_toFinset, Std.TreeMap.mem_keys]

/-- A function of the values, added up in proportion to their masses. -/
def weigh (tally : Tally Rat) (f : Int → Rat) : Rat :=
  ∑ value ∈ tally.support, tally.massOf value * f value

private theorem weigh_empty (f : Int → Rat) : (empty : Tally Rat).weigh f = 0 := rfl

private theorem weigh_eq_sum {tally : Tally Rat} {values : Finset Int}
    (h : tally.support ⊆ values) (f : Int → Rat) :
    tally.weigh f = ∑ value ∈ values, tally.massOf value * f value := by
  refine Finset.sum_subset h fun value _ hout => ?_
  rw [mem_support] at hout
  rw [massOf_of_not_mem hout, zero_mul]

theorem weigh_add (tally : Tally Rat) (value : Int) (mass : Rat) (f : Int → Rat) :
    (tally.add value mass).weigh f = tally.weigh f + mass * f value := by
  have hsub : tally.support ⊆ (tally.add value mass).support := by
    intro w hw
    rw [mem_support] at hw ⊢
    exact (mem_masses_add tally value w mass).mpr (Or.inr hw)
  have hmem : value ∈ (tally.add value mass).support :=
    mem_support.mpr ((mem_masses_add tally value value mass).mpr (Or.inl rfl))
  rw [weigh_eq_sum hsub, weigh]
  simp only [massOf_add, add_mul, ite_mul, zero_mul]
  rw [Finset.sum_add_distrib, Finset.sum_ite_eq, if_pos hmem]

/-- The total is what the weights of all values add up to, in whatever order it is summed. -/
theorem Consistent.total_eq {tally : Tally Rat} (h : tally.Consistent) :
    tally.total = tally.weigh fun _ => 1 := by
  have hsupport : tally.support = tally.order.toList.toFinset := by
    ext value
    rw [mem_support, List.mem_toFinset, h.mem_iff]
  simp only [total, weigh, hsupport, mul_one]
  rw [List.sum_toFinset _ h.nodup, ← Array.foldl_toList, List.sum_eq_foldl, List.foldl_map]
  rfl

theorem sum_toList (tally : Tally Rat) (f : Int → Rat) :
    (tally.toList.map fun entry => entry.2 * f entry.1).sum = tally.weigh f := by
  have hentry : ∀ entry ∈ tally.toList, entry.2 * f entry.1 = tally.massOf entry.1 * f entry.1 := by
    intro entry hmem
    rw [toList, Std.TreeMap.mem_toList_iff_getElem?_eq_some] at hmem
    rw [massOf_eq_getD, hmem, Option.getD_some]
  rw [List.map_congr_left hentry, weigh, support, List.sum_toFinset _ Std.TreeMap.nodup_keys,
    ← Std.TreeMap.map_fst_toList_eq_keys, List.map_map]
  rfl

theorem mem_toList {tally : Tally Rat} {entry : Int × Rat} (h : entry ∈ tally.toList) :
    entry.1 ∈ tally.masses ∧ entry.2 = tally.massOf entry.1 := by
  rw [toList, Std.TreeMap.mem_toList_iff_getElem?_eq_some] at h
  refine ⟨?_, by rw [massOf_eq_getD, h, Option.getD_some]⟩
  rw [Std.TreeMap.mem_iff_isSome_getElem?, h]
  rfl

section List

/-- All masses of a list, added to the values that they stand with. -/
def ofList (masses : List (Int × Rat)) : Tally Rat :=
  masses.foldl (fun tally (value, mass) => tally.add value mass) .empty

private theorem foldl_add (masses : List (Int × Rat)) {tally : Tally Rat} (h : tally.Consistent) :
    let after := masses.foldl (fun tally (value, mass) => tally.add value mass) tally
    after.Consistent ∧
      (∀ f, after.weigh f = tally.weigh f + (masses.map fun entry => entry.2 * f entry.1).sum) ∧
      ∀ value, value ∈ after.masses ↔ value ∈ tally.masses ∨ value ∈ masses.map Prod.fst := by
  induction masses generalizing tally with
  | nil => exact ⟨h, fun f => by simp, fun value => by simp⟩
  | cons entry masses ih =>
      obtain ⟨hcons, hweigh, hmem⟩ := ih (h.add entry.1 entry.2)
      refine ⟨hcons, fun f => ?_, fun value => ?_⟩
      · rw [List.foldl_cons, hweigh, weigh_add, List.map_cons, List.sum_cons, add_assoc]
      · rw [List.foldl_cons, hmem, mem_masses_add, List.map_cons, List.mem_cons]
        tauto

theorem consistent_ofList (masses : List (Int × Rat)) : (ofList masses).Consistent :=
  (foldl_add masses consistent_empty).1

theorem weigh_ofList (masses : List (Int × Rat)) (f : Int → Rat) :
    (ofList masses).weigh f = (masses.map fun entry => entry.2 * f entry.1).sum := by
  rw [ofList, (foldl_add masses consistent_empty).2.1, weigh_empty, zero_add]

theorem massOf_ofList (masses : List (Int × Rat)) (value : Int) :
    (ofList masses).massOf value =
      (masses.map fun entry => if entry.1 = value then entry.2 else 0).sum := by
  have hweigh := weigh_ofList masses fun v => if v = value then 1 else 0
  simp only [mul_ite, mul_one, mul_zero] at hweigh
  rw [← hweigh, weigh]
  simp only [mul_ite, mul_one, mul_zero, Finset.sum_ite_eq']
  split
  · rfl
  next hout => exact massOf_of_not_mem fun hmem => hout (mem_support.mpr hmem)

theorem mem_ofList {masses : List (Int × Rat)} {value : Int} :
    value ∈ (ofList masses).masses ↔ value ∈ masses.map Prod.fst := by
  rw [ofList, (foldl_add masses consistent_empty).2.2]
  simp [empty]

end List

end Tally

end DiceCalculator
