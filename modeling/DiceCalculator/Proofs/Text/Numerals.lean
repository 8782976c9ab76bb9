/-!
# Characters of numerals

A numeral is made of decimal digits, behind a minus sign if it is negative.
-/
namespace DiceCalculator

theorem isDigit_of_mem_toString {n : Nat} {c : Char} (h : c ∈ (toString n).toList) : c.isDigit := by
  rw [Nat.toString_eq_repr, Nat.toList_repr] at h
  exact Nat.isDigit_of_mem_toDigits (by decide) (by decide) h

theorem minus_or_isDigit_of_mem_toString {n : Int} {c : Char} (h : c ∈ (toString n).toList) :
    c = '-' ∨ c.isDigit := by
  rw [Int.toString_eq_repr, Int.repr_eq_if] at h
  split at h
  next => exact .inr (isDigit_of_mem_toString h)
  next =>
    rw [String.toList_append, List.mem_append] at h
    exact h.imp (by simp) isDigit_of_mem_toString

theorem toList_toString_ne_nil (n : Int) : (toString n).toList ≠ [] := by
  rw [Int.toString_eq_repr, Int.repr_eq_if]
  split
  · rw [Nat.toList_repr]
    exact List.ne_nil_of_length_pos Nat.length_toDigits_pos
  · simp

theorem blank_lt_of_isDigit {c : Char} (h : c.isDigit) : ' ' < c := by
  simp only [Char.isDigit, Bool.and_eq_true, decide_eq_true_eq, ge_iff_le,
    UInt32.le_iff_toNat_le] at h
  rw [Char.lt_def, UInt32.lt_iff_toNat_lt]
  exact Nat.lt_of_lt_of_le (by decide) h.1

theorem blank_lt_of_all {text : List Char} (h : text.all (decide <| ' ' < ·) = true) :
    ∀ c ∈ text, ' ' < c :=
  fun c hc => of_decide_eq_true (List.all_eq_true.mp h c hc)

theorem blank_lt_of_mem_toString {n : Int} {c : Char} (h : c ∈ (toString n).toList) : ' ' < c := by
  obtain rfl | hdigit := minus_or_isDigit_of_mem_toString h
  · decide
  · exact blank_lt_of_isDigit hdigit

end DiceCalculator
