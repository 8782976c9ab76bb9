import Mathlib.Data.List.Infix
/-!
# Balanced brackets

A word is balanced if it closes exactly the brackets that it opens, each of them after it was
opened. What a pair of brackets encloses is then determined by the opening one, and a pair that is
opened within a balanced part of a word is closed in that part.
-/
namespace DiceCalculator

structure Brackets (α : Type) where
  opening : α
  closing : α
  opening_ne_closing : opening ≠ closing

namespace Brackets

variable {α : Type} [DecidableEq α] (b : Brackets α)

/-- The number of brackets that a word opens, less those that it closes. -/
def depth (w : List α) : Int := (w.count b.opening : Int) - w.count b.closing

/-- The word closes all brackets that it opens, and never one that it has not opened. -/
structure Balanced (w : List α) : Prop where
  depth_eq : b.depth w = 0
  depth_nonneg : ∀ u, u <+: w → 0 ≤ b.depth u

section Depth

variable {b}

@[simp]
theorem depth_nil : b.depth [] = 0 := rfl

@[simp]
theorem depth_append (u v : List α) : b.depth (u ++ v) = b.depth u + b.depth v := by
  simp only [depth, List.count_append]
  omega

@[simp]
theorem depth_opening (w : List α) : b.depth (b.opening :: w) = b.depth w + 1 := by
  simp only [depth, List.count_cons_self, List.count_cons_of_ne b.opening_ne_closing]
  omega

@[simp]
theorem depth_closing (w : List α) : b.depth (b.closing :: w) = b.depth w - 1 := by
  simp only [depth, List.count_cons_self, List.count_cons_of_ne b.opening_ne_closing.symm]
  omega

def Free (b : Brackets α) (w : List α) : Prop := b.opening ∉ w ∧ b.closing ∉ w

private theorem Free.depth_eq {w : List α} (h : b.Free w) : b.depth w = 0 := by
  simp [depth, List.count_eq_zero_of_not_mem h.1, List.count_eq_zero_of_not_mem h.2]

end Depth

namespace Balanced

variable {b} {w u v x y rest rest' : List α}

theorem nil : b.Balanced [] :=
  ⟨rfl, fun u hu => Int.le_of_eq (by rw [List.prefix_nil.mp hu, depth_nil])⟩

theorem of_free (h : b.Free w) : b.Balanced w := by
  refine ⟨h.depth_eq, fun u hu => ?_⟩
  have hfree : b.Free u := ⟨fun hmem => h.1 (hu.mem hmem), fun hmem => h.2 (hu.mem hmem)⟩
  exact Int.le_of_eq hfree.depth_eq.symm

theorem append (hu : b.Balanced u) (hv : b.Balanced v) : b.Balanced (u ++ v) := by
  refine ⟨by rw [depth_append, hu.depth_eq, hv.depth_eq, Int.add_zero], fun w hw => ?_⟩
  obtain ⟨rest, hrest⟩ := hw
  rcases List.append_eq_append_iff.mp hrest with ⟨z, rfl, rfl⟩ | ⟨z, rfl, rfl⟩
  · exact hu.depth_nonneg w (List.prefix_append w z)
  · rw [depth_append, hu.depth_eq, Int.zero_add]
    exact hv.depth_nonneg z (List.prefix_append z rest)

theorem enclose (h : b.Balanced w) : b.Balanced (b.opening :: (w ++ [b.closing])) := by
  refine ⟨?_, fun u hu => ?_⟩
  · simp [h.depth_eq]
  · cases u with
    | nil => exact Int.le_refl 0
    | cons c u =>
      obtain ⟨rfl, hinner⟩ := List.cons_prefix_cons.mp hu
      rw [depth_opening]
      rcases List.prefix_concat_iff.mp hinner with rfl | hinner
      · simp [h.depth_eq]
      · have := h.depth_nonneg u hinner
        omega

/-- Nothing in a balanced word closes a bracket that was opened before the word. -/
theorem not_closed_early (h : b.Balanced w) (hx : b.depth x = 0) :
    ¬ x ++ [b.closing] <+: w := by
  intro hprefix
  have hnonneg := h.depth_nonneg _ hprefix
  rw [depth_append, hx, depth_closing, depth_nil] at hnonneg
  omega

theorem eq_of_closing (hx : b.Balanced x) (hy : b.Balanced y)
    (h : x ++ b.closing :: rest = y ++ b.closing :: rest') : x = y ∧ rest = rest' := by
  rcases List.append_eq_append_iff.mp h with ⟨z, rfl, hz⟩ | ⟨z, rfl, hz⟩
  · cases z with
    | nil => simpa using hz
    | cons c z =>
      obtain ⟨rfl, -⟩ := List.cons.inj hz
      exact absurd (by simp) (hy.not_closed_early (x := x) hx.depth_eq)
  · cases z with
    | nil => simpa [eq_comm] using hz
    | cons c z =>
      obtain ⟨rfl, -⟩ := List.cons.inj hz
      exact absurd (by simp) (hx.not_closed_early (x := y) hy.depth_eq)

/-- A pair that is opened in a balanced part of a word is closed in that part. -/
theorem closes_within (hpart : b.Balanced (u ++ b.opening :: v)) (hx : b.Balanced x)
    (h : v ++ rest = x ++ b.closing :: rest') :
    ∃ v', v = x ++ b.closing :: v' ∧ rest' = v' ++ rest := by
  -- what follows the opening bracket closes more than it opens, so it cannot begin `x`
  have hdepth : b.depth v < 0 := by
    have htotal := hpart.depth_eq
    have hbefore := hpart.depth_nonneg u (List.prefix_append u _)
    rw [depth_append, depth_opening] at htotal
    omega
  rcases List.append_eq_append_iff.mp h with ⟨z, rfl, -⟩ | ⟨z, rfl, hz⟩
  · exact absurd (hx.depth_nonneg v (List.prefix_append v z)) (by omega)
  · cases z with
    | nil =>
      rw [List.append_nil, hx.depth_eq] at hdepth
      exact absurd hdepth (Int.lt_irrefl 0)
    | cons c z =>
      obtain ⟨rfl, rfl⟩ := List.cons.inj hz
      exact ⟨z, rfl, rfl⟩

theorem ne_enclosed (hx : b.Balanced x) (hu : b.depth u = 0) (hne : u ≠ []) {c : α} :
    u ++ c :: v ≠ b.opening :: (x ++ [b.closing]) := by
  intro h
  obtain ⟨a, u, rfl⟩ := List.exists_cons_of_ne_nil hne
  obtain ⟨rfl, htail⟩ := List.cons.inj h
  have hprefix : u <+: x := by
    rcases List.append_eq_append_iff.mp htail with ⟨z, rfl, -⟩ | ⟨z, rfl, hz⟩
    · exact List.prefix_append u z
    · cases z with
      | nil => simp
      | cons d z => simp at hz
  have hnonneg := hx.depth_nonneg u hprefix
  rw [depth_opening] at hu
  omega

end Balanced

end Brackets

end DiceCalculator
