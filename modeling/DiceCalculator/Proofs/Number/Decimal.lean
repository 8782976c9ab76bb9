import DiceCalculator.Number.Decimal
import DiceCalculator.Proofs.Text.Numerals
import Mathlib.Algebra.Order.Field.Rat
import Mathlib.Tactic.Ring
/-!
# Decimal texts with two places

The text of a number with two places has no blank in it, and how long it is depends on the rounded
number alone: two places and the point are always there, and one more character for a sign.
-/
namespace DiceCalculator

/-- A quotient is rounded below an even number if it is less than a half below that number; from a
half on it is rounded up. -/
theorem roundHalfEven_lt_iff {num den m : Nat} (hden : 0 < den) (hm : m % 2 = 0) :
    roundHalfEven num den < m ↔ 2 * num + den < 2 * (den * m) := by
  have hnum : den * (num / den) + num % den = num := Nat.div_add_mod num den
  have hr : num % den < den := Nat.mod_lt num hden
  rw [roundHalfEven]
  generalize num / den = q at hnum ⊢
  generalize num % den = r at hnum hr ⊢
  obtain hlow | rfl | hhigh : q + 2 ≤ m ∨ m = q + 1 ∨ m ≤ q := by omega
  · have hle := Nat.mul_le_mul_left den hlow
    rw [Nat.mul_add] at hle
    split_ifs <;> omega
  · rw [Nat.mul_add]
    split_ifs <;> omega
  · have hle := Nat.mul_le_mul_left den hhigh
    split_ifs <;> omega

theorem roundHalfEven_rat_lt_iff {r : Rat} (hr : 0 ≤ r) {m : Nat} (hm : m % 2 = 0) :
    roundHalfEven (r.num.natAbs * 100) r.den < m ↔ 200 * r + 1 < 2 * m := by
  have hden : (0 : Rat) < r.den := by exact_mod_cast r.den_pos
  have hnum : (r.num.natAbs : Rat) = r * r.den := by
    rw [Rat.mul_den_eq_num, ← Int.cast_natCast,
      Int.natAbs_of_nonneg (Rat.num_nonneg.mpr hr)]
  rw [roundHalfEven_lt_iff r.den_pos hm, ← Nat.cast_lt (α := Rat)]
  push_cast
  rw [hnum]
  have hfactor : (2 * (r * r.den * 100) + r.den : Rat) = (200 * r + 1) * r.den := by ring
  have hfactor' : (2 * (r.den * m) : Rat) = 2 * m * r.den := by ring
  rw [hfactor, hfactor', mul_lt_mul_iff_left₀ hden]

/-- Rounded to two places, the number is below 100, and above -10 if it has a sign. An infinity and
what is no number are written with a few letters. -/
def Quantity.IsShort : Quantity → Prop
  | .finite negative num den => roundHalfEven (num * 100) den < if negative then 1000 else 10000
  | _ => True

instance : DecidablePred Quantity.IsShort
  | .finite _ _ _ => inferInstanceAs (Decidable (_ < _))
  | .infinite _ => .isTrue trivial
  | .undefined => .isTrue trivial

namespace Decimal

def hundredths (scaled : Nat) : List Char :=
  let fraction := (toString (scaled % 100)).toList
  zeros (2 - fraction.length) ++ fraction

private theorem length_hundredths (scaled : Nat) : (hundredths scaled).length = 2 := by
  have hlength : (toString (scaled % 100)).toList.length ≤ 2 := by
    rw [String.length_toList]
    exact (Nat.length_repr_le_iff (by decide)).mpr (Nat.mod_lt scaled (by decide))
  simp only [hundredths, zeros, List.length_append, List.length_replicate]
  omega

theorem fixed_finite (negative : Bool) (num den : Nat) :
    (fixed 2 (.finite negative num den)).toList =
      (if negative then ['-'] else []) ++
        ((toString (roundHalfEven (num * 100) den / 100)).toList ++
          '.' :: hundredths (roundHalfEven (num * 100) den)) := by
  cases negative <;> simp [fixed, hundredths, tenTo]

theorem blank_lt_of_mem_fixed {q : Quantity} {c : Char} (h : c ∈ (fixed 2 q).toList) :
    ' ' < c := by
  cases q with
  | undefined =>
    have hname : "nan".toList.all (decide <| ' ' < ·) = true := by decide
    exact blank_lt_of_all hname c h
  | infinite negative =>
    have hname : (fixed 2 (.infinite negative)).toList.all (decide <| ' ' < ·) = true := by
      cases negative <;> decide
    exact blank_lt_of_all hname c h
  | finite negative num den =>
    rw [fixed_finite, List.mem_append, List.mem_append, List.mem_cons, hundredths,
      List.mem_append] at h
    obtain hsign | hwhole | rfl | hzero | hfraction := h
    · have hc : c = '-' := by cases negative <;> simp_all
      exact hc ▸ by decide
    · exact blank_lt_of_isDigit (isDigit_of_mem_toString hwhole)
    · decide
    · exact List.eq_of_mem_replicate hzero ▸ by decide
    · exact blank_lt_of_isDigit (isDigit_of_mem_toString hfraction)

private theorem length_fixed_finite (negative : Bool) (num den : Nat) :
    (fixed 2 (.finite negative num den)).length = (if negative then 1 else 0) +
      (roundHalfEven (num * 100) den / 100).repr.length + 3 := by
  rw [← String.length_toList, fixed_finite, List.length_append, List.length_append,
    List.length_cons, length_hundredths, String.length_toList, Nat.toString_eq_repr]
  cases negative with
  | false => simp
  | true =>
    simp only [if_true, List.length_singleton]
    omega

theorem length_fixed_lt_iff (q : Quantity) : (fixed 2 q).length < 6 ↔ q.IsShort := by
  cases q with
  | undefined => exact iff_of_true (by decide) trivial
  | infinite negative => cases negative <;> exact iff_of_true (by decide) trivial
  | finite negative num den =>
    rw [length_fixed_finite, Quantity.IsShort]
    generalize roundHalfEven (num * 100) den = scaled
    have hone : (scaled / 100).repr.length ≤ 1 ↔ scaled / 100 < 10 ^ 1 :=
      Nat.length_repr_le_iff (by decide)
    have htwo : (scaled / 100).repr.length ≤ 2 ↔ scaled / 100 < 10 ^ 2 :=
      Nat.length_repr_le_iff (by decide)
    cases negative <;> simp <;> omega

theorem length_fixed_le {num den : Nat} (h : roundHalfEven (num * 100) den < 10002) :
    (fixed 2 (.finite false num den)).length ≤ 6 := by
  rw [length_fixed_finite]
  generalize roundHalfEven (num * 100) den = scaled at h ⊢
  have hthree : (scaled / 100).repr.length ≤ 3 :=
    (Nat.length_repr_le_iff (by decide)).mpr (by omega)
  simpa using hthree

end Decimal

end DiceCalculator
