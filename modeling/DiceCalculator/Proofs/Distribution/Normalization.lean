import DiceCalculator.Proofs.Distribution.Expectation
import Mathlib.Data.List.Sort

/-!
# Normalized masses

A list of masses, in which values may come up again and masses may be zero or negative, makes a
distribution as soon as the masses do not cancel out. Each value that came up is listed once, with
its share of all mass. A distribution that is sorted by value is determined by that, so the order
of the masses does not matter.
-/
namespace DiceCalculator.Distribution

def totalMass (masses : List (Int × Rat)) : Rat := (masses.map Prod.snd).sum

def massAt (masses : List (Int × Rat)) (value : Int) : Rat :=
  totalMass (masses.filter (·.1 = value))

/-- The distribution lists the values of the masses with their shares of the total, unless the
total is zero: only then it lists nothing. -/
structure Normalizes (d : Distribution Rat) (masses : List (Int × Rat)) : Prop where
  empty_iff : d.outcomes = [] ↔ totalMass masses = 0
  mem_values_iff : totalMass masses ≠ 0 → ∀ value, value ∈ d.values ↔ value ∈ masses.map Prod.fst
  probability_eq : totalMass masses ≠ 0 →
    ∀ o ∈ d.outcomes, o.probability = massAt masses o.value / totalMass masses
  sum_eq_one : totalMass masses ≠ 0 → (d.outcomes.map (·.probability)).sum = 1

private theorem massOf_ofList_eq_massAt (masses : List (Int × Rat)) (value : Int) :
    (Tally.ofList masses).massOf value = massAt masses value := by
  have hsplit := List.sum_map_ite (fun entry : Int × Rat => entry.1 = value) Prod.snd (fun _ => 0)
    masses
  rw [Tally.massOf_ofList, hsplit]
  simp [massAt, totalMass]

private theorem outcomes_ofMasses {masses : List (Int × Rat)} (h : totalMass masses ≠ 0) :
    (ofMasses masses).outcomes =
      (Tally.ofList masses).toList.map fun entry => ⟨entry.1, entry.2 / totalMass masses⟩ := by
  change (ofTally (Tally.ofList masses)).outcomes = _
  rw [ofTally, total_ofList, if_neg (by rwa [Weight.isZero_rat])]
  rfl

private theorem ofMasses_eq_empty {masses : List (Int × Rat)} (h : totalMass masses = 0) :
    ofMasses masses = empty := by
  change ofTally (Tally.ofList masses) = empty
  rw [ofTally, total_ofList, if_pos (by rwa [Weight.isZero_rat])]

private theorem values_ofMasses {masses : List (Int × Rat)} (h : totalMass masses ≠ 0) :
    (ofMasses masses).values = (Tally.ofList masses).masses.keys := by
  rw [values, outcomes_ofMasses h, List.map_map, ← Std.TreeMap.map_fst_toList_eq_keys]
  rfl

theorem normalizes_ofMasses (masses : List (Int × Rat)) :
    (ofMasses masses).Normalizes masses := by
  refine ⟨⟨fun hempty => ?_, fun hzero => ?_⟩, fun htotal value => ?_, fun htotal o ho => ?_,
    fun htotal => ?_⟩
  · by_contra htotal
    have hmem (value : Int) : value ∉ masses.map Prod.fst := by
      rw [← Tally.mem_ofList, ← Std.TreeMap.mem_keys, ← values_ofMasses htotal, values, hempty]
      exact List.not_mem_nil
    have hnil : masses = [] :=
      List.map_eq_nil_iff.mp (List.eq_nil_iff_forall_not_mem.mpr hmem)
    exact htotal (by rw [hnil]; rfl)
  · rw [ofMasses_eq_empty hzero]
    rfl
  · rw [values_ofMasses htotal, Std.TreeMap.mem_keys, Tally.mem_ofList]
  · rw [outcomes_ofMasses htotal] at ho
    obtain ⟨entry, hentry, rfl⟩ := List.mem_map.mp ho
    rw [(Tally.mem_toList hentry).2, massOf_ofList_eq_massAt]
  · have hone := expect_ofMasses masses fun _ => 1
    simp only [expect, mul_one] at hone
    exact hone.trans (div_self htotal)

theorem Normalizes.perm {d : Distribution Rat} {masses others : List (Int × Rat)}
    (h : d.Normalizes masses) (hperm : masses.Perm others) : d.Normalizes others := by
  have htotal : totalMass masses = totalMass others := (hperm.map Prod.snd).sum_eq
  have hmass (value : Int) : massAt masses value = massAt others value :=
    ((hperm.filter _).map Prod.snd).sum_eq
  obtain ⟨hempty, hmem, hprobability, hsum⟩ := h
  rw [htotal] at hempty hmem hprobability hsum
  refine ⟨hempty, fun hne value => ?_, fun hne o ho => ?_, hsum⟩
  · rw [hmem hne, (hperm.map Prod.fst).mem_iff]
  · rw [hprobability hne o ho, hmass]

/-- A sorted distribution is determined by the masses that it normalizes. -/
theorem Normalizes.unique {d e : Distribution Rat} {masses : List (Int × Rat)}
    (hd : d.Normalizes masses) (he : e.Normalizes masses) (hdsorted : d.values.Pairwise (· < ·))
    (hesorted : e.values.Pairwise (· < ·)) : d = e := by
  have houtcomes : d.outcomes = e.outcomes := by
    by_cases htotal : totalMass masses = 0
    · rw [hd.empty_iff.mpr htotal, he.empty_iff.mpr htotal]
    · have hvalues : d.values = e.values := hdsorted.eq_of_mem_iff hesorted fun value => by
        rw [hd.mem_values_iff htotal, he.mem_values_iff htotal]
      have hform {c : Distribution Rat} (hc : c.Normalizes masses) : c.outcomes =
          c.values.map fun value => ⟨value, massAt masses value / totalMass masses⟩ := by
        rw [values, List.map_map]
        conv_lhs => rw [← List.map_id c.outcomes]
        refine List.map_congr_left fun o ho => ?_
        rw [Function.comp_apply, ← hc.probability_eq htotal o ho]
        rfl
      rw [hform hd, hform he, hvalues]
  obtain ⟨outcomes⟩ := d
  exact congrArg Distribution.mk houtcomes

theorem ofMasses_perm {masses others : List (Int × Rat)} (hperm : masses.Perm others) :
    ofMasses masses = ofMasses others :=
  (normalizes_ofMasses masses).unique ((normalizes_ofMasses others).perm hperm.symm)
    (sorted_ofTally _) (sorted_ofTally _)

theorem ofMasses_singleton (value : Int) : ofMasses [(value, (1 : Rat))] = constant value := by
  refine (normalizes_ofMasses _).unique ⟨?_, ?_, ?_, ?_⟩ (sorted_ofTally _)
    (List.pairwise_singleton _ _)
  · simp [constant, totalMass]
  · simp [constant, values]
  · simp [constant, totalMass, massAt]
  · simp [constant]

end DiceCalculator.Distribution
