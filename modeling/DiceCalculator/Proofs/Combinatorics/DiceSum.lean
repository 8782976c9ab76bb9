import DiceCalculator.Combinatorics.DiceSum
import DiceCalculator.Proofs.Combinatorics.Binomials
import DiceCalculator.Proofs.Rolling.Chance
import Mathlib.Algebra.Ring.GeomSum
import Mathlib.RingTheory.PowerSeries.WellKnown

/-!
# Throws of equal dice

The inclusion-exclusion sum counts the throws of dice with a given total: both are the coefficients
of a power of `X + X ^ 2 + ... + X ^ sides`. The same numbers are the chances of the totals.
-/
namespace DiceCalculator.DiceSum

open Binomials

/-- The number of ways in which some dice, each showing a face from one to the number of sides, add
up to a total. -/
def throws (sides : Int) : Nat → Int → Nat
  | 0, total => if total = 0 then 1 else 0
  | n + 1, total => ∑ face ∈ Draws.faces sides, throws sides n (total - face)

private theorem throws_succ (sides : Int) (n : Nat) (total : Int) :
    throws sides (n + 1) total = ∑ face ∈ Finset.Icc 1 sides, throws sides n (total - face) := by
  rw [throws, Draws.faces_eq_Icc]

theorem throws_eq_zero {sides : Int} {n : Nat} {total : Int}
    (h : total < n ∨ n * sides < total) : throws sides n total = 0 := by
  induction n generalizing total with
  | zero =>
      rw [throws, if_neg]
      push_cast at h
      omega
  | succ n ih =>
      rw [throws_succ]
      refine Finset.sum_eq_zero fun face hface => ih ?_
      have hrange := Finset.mem_Icc.mp hface
      push_cast [add_mul, one_mul] at h
      omega

theorem throws_pos {sides : Int} (hsides : 1 ≤ sides) {n : Nat} {total : Int}
    (hlow : n ≤ total) (hhigh : total ≤ n * sides) : 0 < throws sides n total := by
  induction n generalizing total with
  | zero =>
      rw [throws, if_pos (by push_cast at hlow hhigh; omega)]
      exact Nat.one_pos
  | succ n ih =>
      push_cast [add_mul, one_mul] at hlow hhigh
      have hn : (n : Int) ≤ n * sides := le_mul_of_one_le_right (by omega) hsides
      rw [throws_succ]
      refine Finset.sum_pos' (fun face _ => Nat.zero_le _) ⟨min sides (total - n), ?_, ih ?_ ?_⟩
      · exact Finset.mem_Icc.mpr ⟨by omega, by omega⟩
      · omega
      · omega

theorem throws_le {sides : Int} (hsides : 0 ≤ sides) (n : Nat) (total : Int) :
    (throws sides n total : Int) ≤ sides ^ n := by
  induction n generalizing total with
  | zero =>
      rw [throws, pow_zero]
      split <;> decide
  | succ n ih =>
      rw [throws_succ, Nat.cast_sum]
      refine (Finset.sum_le_card_nsmul _ _ (sides ^ n) fun face _ => ih (total - face)).trans ?_
      rw [Int.card_Icc, nsmul_eq_mul, add_sub_cancel_right, Int.toNat_of_nonneg hsides, pow_succ']

private theorem sum_faces {M : Type} [AddCommMonoid M] (sides : Nat) (g : Int → M) :
    ∑ face ∈ Finset.Icc 1 (sides : Int), g face = ∑ i ∈ Finset.range sides, g (i + 1) := by
  refine (Finset.sum_nbij (fun i : Nat => (i : Int) + 1) ?_ ?_ ?_ ?_).symm
  · intro i hi
    have := Finset.mem_range.mp hi
    exact Finset.mem_Icc.mpr ⟨by omega, by omega⟩
  · intro i _ j _ hij
    simpa using hij
  · intro face hface
    have := Finset.mem_Icc.mp hface
    exact ⟨(face - 1).toNat, Finset.mem_coe.mpr (Finset.mem_range.mpr (by omega)), by
      simp only; omega⟩
  · intro i _
    rfl

section Series

open PowerSeries

/-- One die as a power series: each of its faces is an exponent. -/
private noncomputable def faces (sides : Nat) : ℤ⟦X⟧ := ∑ i ∈ Finset.range sides, X ^ (i + 1)

private theorem coeff_faces_pow (sides n total : Nat) :
    coeff total (faces sides ^ n) = (throws sides n total : ℤ) := by
  induction n generalizing total with
  | zero =>
      rw [pow_zero, coeff_one, throws]
      push_cast
      congr 1
      simp
  | succ n ih =>
      rw [pow_succ, throws_succ, sum_faces, faces, Finset.mul_sum, map_sum]
      push_cast
      refine Finset.sum_congr rfl fun i _ => ?_
      rw [coeff_mul_X_pow', ← faces]
      split
      next hle =>
        rw [ih]
        congr 2
        omega
      next hgt =>
        rw [throws_eq_zero (Or.inl (by omega))]
        rfl

private theorem faces_mul_one_sub (sides : Nat) :
    faces sides * (1 - X) = X * (1 - X ^ sides) := by
  rw [← mul_neg_geom_sum, faces, Finset.sum_mul, Finset.mul_sum, Finset.mul_sum]
  refine Finset.sum_congr rfl fun i _ => ?_
  ring

/-- All dice together: dividing by a power of `1 - X` brings in the coefficients of Pascal's
triangle. -/
private theorem faces_pow_succ (sides n : Nat) :
    faces sides ^ (n + 1) =
      (1 - X ^ sides) ^ (n + 1) * (mk fun k => ((n + k).choose n : ℤ)) * X ^ (n + 1) := by
  have hinv := mk_add_choose_mul_one_sub_pow_eq_one ℤ n
  calc faces sides ^ (n + 1)
      = faces sides ^ (n + 1) * ((mk fun k => ((n + k).choose n : ℤ)) * (1 - X) ^ (n + 1)) := by
        rw [hinv, mul_one]
    _ = (faces sides * (1 - X)) ^ (n + 1) * mk fun k => ((n + k).choose n : ℤ) := by
        rw [mul_pow]; ring
    _ = _ := by
        rw [faces_mul_one_sub, mul_pow]; ring

private theorem coeff_excess (sides n k : Nat) (q : ℤ⟦X⟧) :
    coeff k ((1 - X ^ sides) ^ n * q) =
      ∑ i ∈ Finset.range (n + 1), (-1) ^ i * (n.choose i : ℤ) *
        if i * sides ≤ k then coeff (k - i * sides) q else 0 := by
  have hterm (i : Nat) : (-X ^ sides : ℤ⟦X⟧) ^ i * 1 ^ (n - i) * (n.choose i : ℤ⟦X⟧) * q =
      C ((-1) ^ i * (n.choose i : ℤ)) * (q * X ^ (i * sides)) := by
    rw [neg_pow, one_pow, ← pow_mul, mul_comm sides i, map_mul, map_pow, map_neg, map_one,
      map_natCast]
    ring
  rw [sub_eq_neg_add, add_pow, Finset.sum_mul, map_sum]
  refine Finset.sum_congr rfl fun i _ => ?_
  rw [hterm, coeff_C_mul, coeff_mul_X_pow']

end Series

/-- Inclusion and exclusion over the dice that show more than the number of sides. -/
private theorem throws_eq_sum {sides n total : Nat} (hsides : 0 < sides) (hn : 0 < n)
    (hlow : n ≤ total) :
    (throws sides n total : ℤ) = ∑ i ∈ Finset.range ((total - n) / sides + 1),
      (-1) ^ i * (n.choose i * (total - 1 - i * sides).choose (n - 1) : ℤ) := by
  obtain ⟨n, rfl⟩ : ∃ m, n = m + 1 := ⟨n - 1, by omega⟩
  rw [← coeff_faces_pow, faces_pow_succ, PowerSeries.coeff_mul_X_pow', if_pos hlow, coeff_excess]
  -- The one sum stops where the binomial coefficients end, the other one where the totals do.
  refine Finset.sum_congr_of_eq_on_inter ?_ ?_ ?_
  · intro i _ hout
    rw [Finset.mem_range, Nat.lt_succ_iff, Nat.le_div_iff_mul_le hsides] at hout
    rw [if_neg hout, mul_zero]
  · intro i _ hout
    rw [Finset.mem_range, not_lt] at hout
    rw [Nat.choose_eq_zero_of_lt (by omega)]
    simp
  · intro i _ hin
    rw [Finset.mem_range, Nat.lt_succ_iff, Nat.le_div_iff_mul_le hsides] at hin
    rw [if_pos hin, PowerSeries.coeff_mk, mul_assoc, Nat.add_sub_cancel]
    congr 4
    omega

private theorem sum_alternating (a : Nat → ℤ) (b : Nat) :
    ∑ i ∈ Finset.range (b + 1), (-1) ^ i * a i =
      ∑ j ∈ Finset.range ((b + 2) / 2), a (2 * j) -
        ∑ j ∈ Finset.range ((b + 1) / 2), a (2 * j + 1) := by
  induction b with
  | zero => simp
  | succ b ih =>
      rw [Finset.sum_range_succ, ih]
      rcases Nat.even_or_odd' b with ⟨q, rfl | rfl⟩
      · have hodd : (2 * q + 1) / 2 = q := by omega
        have heven : (2 * q + 2) / 2 = q + 1 ∧ (2 * q + 3) / 2 = q + 1 := by omega
        simp only [hodd, heven, Nat.add_assoc, Nat.reduceAdd]
        rw [Finset.sum_range_succ (fun j => a (2 * j + 1)), Odd.neg_one_pow ⟨q, rfl⟩]
        ring
      · have heven : (2 * q + 2) / 2 = q + 1 ∧ (2 * q + 3) / 2 = q + 1 := by omega
        have hnext : (2 * q + 4) / 2 = q + 2 := by omega
        simp only [heven, hnext, Nat.add_assoc, Nat.reduceAdd]
        rw [Finset.sum_range_succ (fun j => a (2 * j)) (q + 1),
          Even.neg_one_pow ⟨q + 1, by ring⟩, Nat.mul_add]
        ring

private theorem yields_terms {total n sides : Int} {indices : List Int} {a : Int → Nat}
    (hterm : ∀ i ∈ indices, Yields (term total n sides i) (a i)) :
    Yields (terms total n sides indices) (indices.map a).sum := by
  have hstep (sum i) (hi : i ∈ indices) :
      Yields (term total n sides i >>= fun t => pure (sum + t)) (sum + a i) :=
    (hterm i hi).bind (yields_pure _)
  have hfold := yields_foldlM hstep 0
  rw [List.sum_eq_foldl, List.foldl_map]
  exact hfold

private theorem yields_term {total n sides i : Nat} (hn : 0 < n) (hi : i * sides < total) :
    Yields (term total n sides i) (n.choose i * (total - 1 - i * sides).choose (n - 1)) := by
  have hrest := yields_choose (total - 1 - i * sides) (n - 1)
  rw [show ((total - 1 - i * sides : Nat) : Int) = (total : Int) - 1 - i * sides by
    push_cast [Nat.sub_sub, Nat.cast_sub (show 1 + i * sides ≤ total by omega)]; ring,
    show ((n - 1 : Nat) : Int) = (n : Int) - 1 by omega] at hrest
  exact (yields_choose n i).bind (hrest.bind (yields_pure _))

private theorem sum_map_range (g : Nat → Nat) (k : Nat) :
    ((List.range k).map g).sum = ∑ j ∈ Finset.range k, g j := rfl

private theorem sum_map_evens (a : Int → Nat) (b : Nat) :
    ((evens b).map a).sum = ∑ j ∈ Finset.range ((b + 2) / 2), a (2 * j : Nat) := by
  rw [evens, List.map_map, show (((b : Int) + 2) / 2).toNat = (b + 2) / 2 by omega, sum_map_range]
  rfl

private theorem sum_map_odds (a : Int → Nat) (b : Nat) :
    ((odds b).map a).sum = ∑ j ∈ Finset.range ((b + 1) / 2), a (2 * j + 1 : Nat) := by
  rw [odds, List.map_map, show (((b : Int) + 1) / 2).toNat = (b + 1) / 2 by omega, sum_map_range]
  rfl

theorem mem_evens {b i : Int} (hi : i ∈ evens b) : 0 ≤ i ∧ i ≤ b := by
  obtain ⟨j, hj, rfl⟩ := List.mem_map.mp hi
  have := List.mem_range.mp hj
  omega

theorem mem_odds {b i : Int} (hi : i ∈ odds b) : 0 ≤ i ∧ i ≤ b := by
  obtain ⟨j, hj, rfl⟩ := List.mem_map.mp hi
  have := List.mem_range.mp hj
  omega

/-- The positive and the negative terms, added up apart, differ by the number of throws. -/
theorem exists_yields_terms {n : Nat} {sides total : Int} (hn : 0 < n) (hsides : 1 ≤ sides)
    (hlow : n ≤ total) : ∃ positive negative : Nat,
      Yields (terms total n sides (evens (bound total n sides))) positive ∧
        Yields (terms total n sides (odds (bound total n sides))) negative ∧
          (throws sides n total : Int) = positive - negative := by
  obtain ⟨sides, rfl⟩ := Int.eq_ofNat_of_zero_le (show 0 ≤ sides by omega)
  obtain ⟨total, rfl⟩ := Int.eq_ofNat_of_zero_le (show 0 ≤ total by omega)
  rw [Nat.cast_le] at hlow
  have hbound : bound total n sides = ((total - n) / sides : Nat) := by
    rw [bound, Int.fdiv_eq_ediv_of_nonneg _ (by omega), ← Nat.cast_sub hlow]
    rfl
  let size (i : Int) : Nat := n.choose i.toNat * (total - 1 - i.toNat * sides).choose (n - 1)
  have hterm {i : Int} (hi : 0 ≤ i ∧ i ≤ ((total - n) / sides : Nat)) :
      Yields (term total n sides i) (size i) := by
    obtain ⟨j, rfl⟩ := Int.eq_ofNat_of_zero_le hi.1
    have hj : j ≤ (total - n) / sides := by exact_mod_cast hi.2
    rw [Nat.le_div_iff_mul_le (by omega)] at hj
    exact yields_term hn (by omega)
  have hsum := throws_eq_sum (show 0 < sides by omega) hn hlow
  rw [sum_alternating fun i => (n.choose i * (total - 1 - i * sides).choose (n - 1) : ℤ)] at hsum
  rw [hbound, hsum]
  refine ⟨_, _, yields_terms fun i hi => hterm (mem_evens hi),
    yields_terms fun i hi => hterm (mem_odds hi), ?_⟩
  rw [sum_map_evens, sum_map_odds]
  push_cast
  rfl

/-- The number that is computed is the number of throws. -/
theorem yields_count {n : Nat} {sides : Int} (hn : 0 < n) (hsides : 1 ≤ sides) (total : Int) :
    Yields (count total n sides) (throws sides n total : Int) := by
  rw [count, if_neg (by omega)]
  split
  next hout =>
    rw [throws_eq_zero hout]
    exact yields_pure 0
  next hin =>
    obtain ⟨positive, negative, hpositive, hnegative, hthrows⟩ :=
      exists_yields_terms hn hsides (show n ≤ total by omega)
    rw [hthrows]
    exact hpositive.bind (hnegative.bind (yields_pure _))

/-! ## Any arguments at all -/

private theorem steady_terms (total n sides : Int) (indices : List Int) :
    Steady (terms total n sides indices) := by
  have hterm (i : Int) : Steady (term total n sides i) :=
    (steady_choose _ _).bind fun _ => (steady_choose _ _).bind fun _ => steady_pure _
  exact steady_foldlM (fun _ i => (hterm i).bind fun _ => steady_pure _) indices 0

theorem steady_count (total n sides : Int) : Steady (count total n sides) := by
  unfold count
  split
  next => exact steady_pure 1
  next =>
    split
    next => exact steady_pure 0
    next =>
      exact (steady_terms total n sides _).bind fun _ =>
        (steady_terms total n sides _).bind fun _ => steady_pure _

theorem steady_probability {α : Type} [Weight α] (total n sides : Int) :
    Steady (probability total n sides : ExceptT Fault (StateM Binomials) α).run :=
  (steady_count total n sides).bind fun _ => steady_pure _

/-! ## Throws one by one -/

/-- The throws of some dice that add up to a total: what each die shows is one of its faces. -/
def throwsTo (n : Nat) (sides total : Int) : Finset (Fin n → Int) :=
  (Fintype.piFinset fun _ => Draws.faces sides).filter fun throw => ∑ die, throw die = total

private theorem mem_throwsTo {n : Nat} {sides total : Int} {throw : Fin n → Int} :
    throw ∈ throwsTo n sides total ↔
      (∀ die, throw die ∈ Finset.Icc 1 sides) ∧ ∑ die, throw die = total := by
  rw [throwsTo, Finset.mem_filter, Fintype.mem_piFinset, Draws.faces_eq_Icc]

private theorem mem_throwsTo_succ {n : Nat} {sides total : Int} {throw : Fin (n + 1) → Int} :
    throw ∈ throwsTo (n + 1) sides total ↔
      throw 0 ∈ Finset.Icc 1 sides ∧ Fin.tail throw ∈ throwsTo n sides (total - throw 0) := by
  rw [mem_throwsTo, mem_throwsTo, Fin.forall_fin_succ, Fin.sum_univ_succ, and_assoc,
    eq_sub_iff_add_eq']
  rfl

private theorem card_throwsTo_succ (n : Nat) (sides total : Int) :
    (throwsTo (n + 1) sides total).card =
      ∑ face ∈ Finset.Icc 1 sides, (throwsTo n sides (total - face)).card := by
  rw [Finset.card_eq_sum_card_fiberwise (f := fun throw => throw 0) (t := Finset.Icc 1 sides)
    fun throw hthrow => (mem_throwsTo_succ.mp hthrow).1]
  refine Finset.sum_congr rfl fun face hface => ?_
  refine Finset.card_nbij' (fun throw => Fin.tail throw)
    (fun rest => Fin.cons (α := fun _ => Int) face rest) ?_ ?_ ?_ ?_
  · intro throw hthrow
    obtain ⟨hto, rfl⟩ := Finset.mem_filter.mp hthrow
    exact (mem_throwsTo_succ.mp hto).2
  · intro rest hrest
    exact Finset.mem_filter.mpr ⟨mem_throwsTo_succ.mpr ⟨hface, hrest⟩, rfl⟩
  · intro throw hthrow
    obtain ⟨_, rfl⟩ := Finset.mem_filter.mp hthrow
    exact Fin.cons_self_tail throw
  · intro rest _
    exact Fin.tail_cons (α := fun _ => Int) face rest

/-- The throws with a total, taken one by one. -/
theorem card_throwsTo (n : Nat) (sides total : Int) :
    (throwsTo n sides total).card = throws sides n total := by
  induction n generalizing total with
  | zero =>
      rw [throws, throwsTo]
      split <;> simp_all [eq_comm]
  | succ n ih =>
      rw [card_throwsTo_succ, throws_succ]
      exact Finset.sum_congr rfl fun face _ => ih (total - face)

private theorem sum_throws_shift {sides face : Int} (hlow : 1 ≤ face) (hhigh : face ≤ sides)
    (n : Nat) (g : Int → Rat) :
    ∑ total ∈ Finset.Icc ((n + 1 : Nat) : Int) ((n + 1 : Nat) * sides),
        throws sides n (total - face) * g total =
      ∑ total ∈ Finset.Icc (n : Int) (n * sides), throws sides n total * g (face + total) := by
  have hmove : ∑ total ∈ Finset.Icc (n : Int) (n * sides), throws sides n total * g (face + total) =
      ∑ total ∈ Finset.Icc (face + n) (face + n * sides),
        throws sides n (total - face) * g total := by
    rw [← Finset.map_add_left_Icc, Finset.sum_map]
    refine Finset.sum_congr rfl fun total _ => ?_
    simp
  rw [hmove]
  refine (Finset.sum_subset ?_ fun total _ hout => ?_).symm
  · refine Finset.Icc_subset_Icc ?_ ?_ <;> push_cast [add_mul, one_mul] <;> omega
  · rw [Finset.mem_Icc, not_and_or] at hout
    rw [throws_eq_zero (by omega), Nat.cast_zero, zero_mul]

/-- The total of some dice has each value with its share of the throws. -/
theorem expect_total (sides : Int) (n : Nat) (start : Int) (f : Int → Rat) :
    (Draws.total sides n start).expect f =
      ∑ total ∈ Finset.Icc (n : Int) (n * sides),
        throws sides n total / sides ^ n * f (start + total) := by
  induction n generalizing start with
  | zero => simp [Draws.total, throws]
  | succ n ih =>
      rw [Draws.total, Draws.expect_die]
      calc (∑ face ∈ Finset.Icc 1 sides, (Draws.total sides n (start + face)).expect f) / sides
          = ∑ face ∈ Finset.Icc 1 sides, ∑ total ∈ Finset.Icc (n : Int) (n * sides),
              throws sides n total * (f (start + (face + total)) / sides ^ (n + 1)) := by
            rw [Finset.sum_div]
            refine Finset.sum_congr rfl fun face _ => ?_
            rw [ih, Finset.sum_div]
            refine Finset.sum_congr rfl fun total _ => ?_
            rw [add_assoc]
            ring
        _ = ∑ face ∈ Finset.Icc 1 sides,
              ∑ total ∈ Finset.Icc ((n + 1 : Nat) : Int) ((n + 1 : Nat) * sides),
                throws sides n (total - face) * (f (start + total) / sides ^ (n + 1)) := by
            refine Finset.sum_congr rfl fun face hface => ?_
            have hrange := Finset.mem_Icc.mp hface
            exact (sum_throws_shift hrange.1 hrange.2 n
              fun total => f (start + total) / sides ^ (n + 1)).symm
        _ = _ := by
            rw [Finset.sum_comm]
            refine Finset.sum_congr rfl fun total _ => ?_
            rw [throws_succ, ← Finset.sum_mul]
            push_cast
            ring

theorem expect_total_one {sides : Int} (hsides : 1 ≤ sides) (n : Nat) (start : Int) :
    ((Draws.total sides n start).expect fun _ => 1) = 1 := by
  induction n generalizing start with
  | zero => rfl
  | succ n ih =>
      have hne : (sides : Rat) ≠ 0 := by exact_mod_cast (by omega : sides ≠ 0)
      rw [Draws.total, Draws.expect_die, div_eq_one_iff_eq hne,
        Finset.sum_congr rfl fun face _ => ih (start + face), Finset.sum_const, Int.card_Icc,
        nsmul_one]
      exact_mod_cast (by omega : ((sides + 1 - 1).toNat : Int) = sides)

private theorem sum_face_values {sides : Int} (hsides : 0 ≤ sides) :
    ∑ face ∈ Finset.Icc 1 sides, (face : Rat) = sides * (sides + 1) / 2 := by
  obtain ⟨m, rfl⟩ := Int.eq_ofNat_of_zero_le hsides
  rw [sum_faces]
  induction m with
  | zero => simp
  | succ m ih =>
      rw [Finset.sum_range_succ, ih (by omega)]
      push_cast
      ring

theorem expect_total_value {sides : Int} (hsides : 1 ≤ sides) (n : Nat) (start : Int) :
    ((Draws.total sides n start).expect fun total => (total : Rat)) =
      start + n * ((sides + 1) / 2) := by
  induction n generalizing start with
  | zero => simp [Draws.total]
  | succ n ih =>
      have hne : (sides : Rat) ≠ 0 := by exact_mod_cast (by omega : sides ≠ 0)
      have hcard : ((sides + 1 - 1).toNat : Rat) = sides := by
        exact_mod_cast (by omega : ((sides + 1 - 1).toNat : Int) = sides)
      rw [Draws.total, Draws.expect_die, div_eq_iff hne]
      calc (∑ face ∈ Finset.Icc 1 sides,
            (Draws.total sides n (start + face)).expect fun total => (total : Rat))
          = ∑ face ∈ Finset.Icc 1 sides, ((face : Rat) + (start + n * ((sides + 1) / 2))) := by
            refine Finset.sum_congr rfl fun face _ => ?_
            rw [ih]
            push_cast
            ring
        _ = sides * (sides + 1) / 2 + sides * (start + n * ((sides + 1) / 2)) := by
            rw [Finset.sum_add_distrib, sum_face_values (by omega), Finset.sum_const,
              Int.card_Icc, nsmul_eq_mul, hcard]
        _ = (start + ((n + 1 : Nat) : Rat) * ((sides + 1) / 2)) * sides := by
            push_cast
            ring

end DiceCalculator.DiceSum
