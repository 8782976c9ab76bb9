import DiceCalculator.Rolling.Draws
import Mathlib.Algebra.BigOperators.Field
import Mathlib.Algebra.Order.BigOperators.Ring.Finset
import Mathlib.Data.Int.ConditionallyCompleteOrder
import Mathlib.Data.Int.Interval
import Mathlib.Data.Rat.Cast.Order
import Mathlib.Tactic.Linarith

/-!
# Chances of die requests

A computation that asks for dice has a mean for every quantity of its result, when each die is fair
and independent of the others. What has a positive chance is exactly what some sequence of die
rolls leads to.
-/
namespace DiceCalculator.Draws

variable {α β : Type}

/-- The computation ends with this result when the dice it asks for show these rolls, each of them
within the range of its die. -/
inductive Shows : Draws α → List Int → α → Prop
  | done (a : α) : Shows (.done a) [] a
  | die {sides roll : Int} {next : Int → Draws α} {rolls : List Int} {a : α} :
      1 ≤ roll → roll ≤ sides → Shows (next roll) rolls a →
        Shows (.die sides next) (roll :: rolls) a

def faces (sides : Int) : Finset Int := (Finset.range sides.toNat).image fun i : Nat => i + 1

theorem faces_eq_Icc (sides : Int) : faces sides = Finset.Icc 1 sides := by
  ext face
  simp only [faces, Finset.mem_image, Finset.mem_range, Finset.mem_Icc]
  constructor
  · rintro ⟨i, hi, rfl⟩
    omega
  · rintro ⟨hlow, hhigh⟩
    exact ⟨(face - 1).toNat, by omega, by omega⟩

/-- The mean of a quantity of the result. All rolls of a die are equally likely, whatever the other
dice show; a die without sides shows nothing. -/
def expect : Draws α → (α → Rat) → Rat
  | .done a, f => f a
  | .die sides next, f => (∑ roll ∈ faces sides, (next roll).expect f) / sides

/-- The probability that the result has a property. -/
def chance (t : Draws α) (p : α → Prop) [DecidablePred p] : Rat :=
  t.expect fun a => if p a then 1 else 0

@[simp]
theorem expect_done (a : α) (f : α → Rat) : (Draws.done a).expect f = f a := rfl

theorem expect_die (sides : Int) (next : Int → Draws α) (f : α → Rat) :
    (Draws.die sides next).expect f =
      (∑ roll ∈ Finset.Icc 1 sides, (next roll).expect f) / sides := by
  rw [expect, faces_eq_Icc]

theorem expect_andThen (t : Draws α) (g : α → Draws β) (f : β → Rat) :
    (t.andThen g).expect f = t.expect fun a => (g a).expect f := by
  induction t with
  | done a => rfl
  | die sides next ih =>
      simp only [andThen, expect_die]
      rw [Finset.sum_congr rfl fun roll _ => ih roll]

theorem expect_add (t : Draws α) (f g : α → Rat) :
    (t.expect fun a => f a + g a) = t.expect f + t.expect g := by
  induction t with
  | done a => rfl
  | die sides next ih =>
      simp only [expect_die, ih, Finset.sum_add_distrib, add_div]

theorem expect_nonneg (t : Draws α) {f : α → Rat} (hf : ∀ a, 0 ≤ f a) : 0 ≤ t.expect f := by
  induction t with
  | done a => exact hf a
  | die sides next ih =>
      rw [expect_die]
      rcases le_or_gt sides 0 with hsides | hsides
      · simp [Finset.Icc_eq_empty_of_lt (show sides < 1 by omega)]
      · exact div_nonneg (Finset.sum_nonneg fun roll _ => ih roll) (by exact_mod_cast hsides.le)

/-- A die without sides loses chances, and nothing adds any. -/
theorem expect_one_le (t : Draws α) : (t.expect fun _ => 1) ≤ 1 := by
  induction t with
  | done a => exact le_refl _
  | die sides next ih =>
      rw [expect_die]
      rcases le_or_gt sides 0 with hsides | hsides
      · simp [Finset.Icc_eq_empty_of_lt (show sides < 1 by omega)]
      · have hpos : (0 : Rat) < sides := by exact_mod_cast hsides
        rw [div_le_iff₀ hpos, one_mul]
        calc ∑ roll ∈ Finset.Icc 1 sides, ((next roll).expect fun _ => 1)
            ≤ ∑ _roll ∈ Finset.Icc 1 sides, (1 : Rat) := Finset.sum_le_sum fun roll _ => ih roll
          _ = ((sides + 1 - 1).toNat : Rat) := by rw [Finset.sum_const, Int.card_Icc, nsmul_one]
          _ = sides := by exact_mod_cast (by omega : ((sides + 1 - 1).toNat : Int) = sides)

/-- A quantity that is never negative has a positive mean if and only if some sequence of rolls
gives it a positive value. -/
theorem expect_pos_iff (t : Draws α) {f : α → Rat} (hf : ∀ a, 0 ≤ f a) :
    0 < t.expect f ↔ ∃ rolls a, t.Shows rolls a ∧ 0 < f a := by
  induction t with
  | done a =>
      constructor
      · intro hpos
        exact ⟨[], a, .done a, hpos⟩
      · rintro ⟨rolls, b, hshows, hpos⟩
        cases hshows
        exact hpos
  | die sides next ih =>
      rw [expect_die]
      constructor
      · intro hpos
        have hsides : 0 < sides := by
          by_contra hnot
          simp [Finset.Icc_eq_empty_of_lt (show sides < 1 by omega)] at hpos
        have hsum : 0 < ∑ roll ∈ Finset.Icc 1 sides, (next roll).expect f := by
          by_contra hnot
          exact absurd hpos (not_lt.mpr
            (div_nonpos_of_nonpos_of_nonneg (not_lt.mp hnot) (by exact_mod_cast hsides.le)))
        obtain ⟨roll, hmem, hroll⟩ := Finset.exists_lt_of_sum_lt
          (show ∑ _roll ∈ Finset.Icc 1 sides, (0 : Rat) < _ by simpa using hsum)
        obtain ⟨rolls, a, hshows, ha⟩ := (ih roll).mp hroll
        have hrange := Finset.mem_Icc.mp hmem
        exact ⟨roll :: rolls, a, .die hrange.1 hrange.2 hshows, ha⟩
      · rintro ⟨rolls, a, hshows, ha⟩
        cases hshows with
        | @die _ roll _ rolls _ hlow hhigh hshows =>
            have hsides : (0 : Rat) < sides := by exact_mod_cast (by omega : 0 < sides)
            refine div_pos ?_ hsides
            refine Finset.sum_pos' (fun r _ => expect_nonneg _ hf) ⟨roll, ?_, ?_⟩
            · exact Finset.mem_Icc.mpr ⟨hlow, hhigh⟩
            · exact (ih roll).mpr ⟨rolls, a, hshows, ha⟩

/-- What has a positive chance is what some rolls lead to. -/
theorem chance_pos_iff (t : Draws α) (p : α → Prop) [DecidablePred p] :
    0 < t.chance p ↔ ∃ rolls a, t.Shows rolls a ∧ p a := by
  rw [chance, expect_pos_iff t (fun a => by split <;> norm_num)]
  refine exists_congr fun rolls => exists_congr fun a => and_congr_right fun _ => ?_
  split <;> simp_all

private theorem chance_add_chance_not_le (t : Draws α) (p : α → Prop) [DecidablePred p] :
    t.chance p + t.chance (fun a => ¬ p a) ≤ 1 := by
  rw [chance, chance, ← expect_add]
  refine le_trans (le_of_eq ?_) t.expect_one_le
  congr 1
  funext a
  by_cases hp : p a <;> simp [hp]

theorem Shows.of_chance_eq_one {t : Draws α} {p : α → Prop} [DecidablePred p]
    (hone : t.chance p = 1) {rolls : List Int} {a : α} (hshows : t.Shows rolls a) : p a := by
  by_contra hnot
  have hpos : 0 < t.chance fun b => ¬ p b := (t.chance_pos_iff _).mpr ⟨rolls, a, hshows, hnot⟩
  have hle := t.chance_add_chance_not_le p
  linarith

/-- The rolls of a computation in two parts are those of the first part before those of the second.
-/
theorem shows_andThen_iff (t : Draws α) (g : α → Draws β) (rolls : List Int) (b : β) :
    (t.andThen g).Shows rolls b ↔
      ∃ a first second, rolls = first ++ second ∧ t.Shows first a ∧ (g a).Shows second b := by
  constructor
  · intro hshows
    induction t generalizing rolls with
    | done a => exact ⟨a, [], rolls, rfl, .done a, hshows⟩
    | die sides next ih =>
        cases hshows with
        | @die _ roll _ rolls _ hlow hhigh hshows =>
            obtain ⟨a, first, second, rfl, hfirst, hsecond⟩ := ih roll rolls hshows
            exact ⟨a, roll :: first, second, rfl, .die hlow hhigh hfirst, hsecond⟩
  · rintro ⟨a, first, second, rfl, hfirst, hsecond⟩
    induction hfirst with
    | done a => exact hsecond
    | die hlow hhigh _ ih => exact .die hlow hhigh (ih hsecond)

end DiceCalculator.Draws
