import DiceCalculator.Combinatorics.Binomials
import Mathlib.Data.Nat.Choose.Basic
import Mathlib.Tactic.Ring
import Std.Data.TreeMap.Lemmas

/-!
# Remembered binomial coefficients

Distinct places in Pascal's triangle have distinct Cantor numbers, so a memory that has been filled
by walks holds the coefficient of every place it answers for. What such a memory holds changes no
result, and the results that do not depend on it compose.
-/
namespace DiceCalculator

private theorem triangle_succ (t : Nat) :
    (t + 1) * (t + 1 + 1) / 2 = t * (t + 1) / 2 + (t + 1) := by
  have hsplit : (t + 1) * (t + 1 + 1) = t * (t + 1) + (t + 1) * 2 := by ring
  rw [hsplit, Nat.add_mul_div_right _ _ (by decide)]

private theorem triangle_mono {s t : Nat} (h : s ≤ t) : s * (s + 1) / 2 ≤ t * (t + 1) / 2 :=
  Nat.div_le_div_right (Nat.mul_le_mul h (by omega))

private theorem cantorNumber_lt {n r m k : Nat} (h : n + r < m + k) :
    cantorNumber n r < cantorNumber m k := by
  have hstep := triangle_succ (n + r)
  have hmono := triangle_mono (show n + r + 1 ≤ m + k from h)
  simp only [cantorNumber]
  omega

theorem cantorNumber_inj {n r m k : Nat} : cantorNumber n r = cantorNumber m k ↔ n = m ∧ r = k := by
  constructor
  · intro heq
    have hdiag : n + r = m + k := by
      rcases Nat.lt_trichotomy (n + r) (m + k) with h | h | h
      · exact absurd heq (cantorNumber_lt h).ne
      · exact h
      · exact absurd heq (cantorNumber_lt h).ne'
    simp only [cantorNumber, hdiag] at heq
    omega
  · rintro ⟨rfl, rfl⟩
    rfl

namespace Binomials

variable {α β : Type}

/-- Every remembered number is the coefficient of the place under whose number it is found. -/
def Sound (memory : Binomials) : Prop :=
  ∀ n r value, memory.kept[cantorNumber n r]? = some value → value = n.choose r

theorem sound_empty : Sound empty := by
  intro n r value hvalue
  simp [empty] at hvalue

theorem Sound.keep {memory : Binomials} (hsound : memory.Sound) (n r : Nat) :
    (memory.keep n r (n.choose r)).Sound := by
  unfold Binomials.keep
  split
  · intro m k value hvalue
    rw [Std.TreeMap.getElem?_insert] at hvalue
    by_cases hplace : cantorNumber n r = cantorNumber m k
    · obtain ⟨rfl, rfl⟩ := cantorNumber_inj.mp hplace
      simpa using hvalue.symm
    · rw [if_neg (by simpa using hplace)] at hvalue
      exact hsound m k value hvalue
  · exact hsound

theorem mul_choose_div (n r : Nat) : n * (n - 1).choose r / (r + 1) = n.choose (r + 1) := by
  cases n with
  | zero => simp
  | succ n =>
      rw [Nat.add_sub_cancel, Nat.add_one_mul_choose_eq]
      exact Nat.mul_div_cancel _ r.succ_pos

/-- From a sound memory a walk finds the coefficient and leaves the memory sound. -/
theorem walk_spec {memory : Binomials} (hsound : memory.Sound) (n r : Nat) :
    (memory.walk n r).1 = n.choose r ∧ (memory.walk n r).2.Sound := by
  induction r generalizing n with
  | zero => exact ⟨(Nat.choose_zero_right n).symm, hsound⟩
  | succ r ih =>
      rw [walk]
      split
      next value hvalue => exact ⟨hsound n (r + 1) value hvalue, hsound⟩
      next =>
        obtain ⟨hbefore, hafter⟩ := ih (n - 1)
        simp only [hbefore, mul_choose_div]
        exact ⟨trivial, hafter.keep n (r + 1)⟩

/-- From every sound memory the computation has this result, and it leaves the memory sound. -/
def Yields (x : StateM Binomials α) (a : α) : Prop :=
  ∀ memory : Binomials, memory.Sound → (x.run memory).1 = a ∧ (x.run memory).2.Sound

theorem yields_pure (a : α) : Yields (pure a) a := fun _ hsound => ⟨rfl, hsound⟩

theorem Yields.bind {x : StateM Binomials α} {f : α → StateM Binomials β} {a : α} {b : β}
    (hx : Yields x a) (hf : Yields (f a) b) : Yields (x >>= f) b := by
  intro memory hsound
  obtain ⟨hresult, hafter⟩ := hx memory hsound
  rw [StateT.run_bind]
  change ((f (x.run memory).1).run (x.run memory).2).1 = b ∧
    ((f (x.run memory).1).run (x.run memory).2).2.Sound
  rw [hresult]
  exact hf _ hafter

theorem Yields.map {x : StateM Binomials α} {a : α} (hx : Yields x a) (f : α → β) :
    Yields (f <$> x) (f a) := by
  rw [← bind_pure_comp]
  exact hx.bind (yields_pure (f a))

theorem yields_foldlM {f : β → α → StateM Binomials β} {g : β → α → β} {items : List α}
    (hf : ∀ b, ∀ a ∈ items, Yields (f b a) (g b a)) (start : β) :
    Yields (items.foldlM f start) (items.foldl g start) := by
  induction items generalizing start with
  | nil => exact yields_pure start
  | cons a items ih =>
      rw [List.foldlM_cons, List.foldl_cons]
      have hrest := ih (fun b c hc => hf b c (List.mem_cons_of_mem a hc)) (g start a)
      exact (hf start a List.mem_cons_self).bind hrest

theorem run_choose (n r : Int) (memory : Binomials) :
    (choose n r).run memory =
      if n < r then (0, memory) else memory.walk n.toNat (nearerColumn n r).toNat := rfl

theorem yields_choose_int (n r : Int) :
    Yields (choose n r) (if n < r then 0 else n.toNat.choose (nearerColumn n r).toNat) := by
  intro memory hsound
  rw [run_choose]
  split
  next => exact ⟨rfl, hsound⟩
  next => exact walk_spec hsound n.toNat (nearerColumn n r).toNat

/-- Inside the triangle and on its right, the number that is found is the binomial coefficient. -/
theorem yields_choose (n r : Nat) : Yields (choose n r) (n.choose r) := by
  have hfound := yields_choose_int n r
  have hvalue : (if (n : Int) < r then 0 else (n : Int).toNat.choose (nearerColumn n r).toNat) =
      n.choose r := by
    split
    next hlt => exact (Nat.choose_eq_zero_of_lt (by omega)).symm
    next hle =>
      rw [Int.toNat_natCast, nearerColumn]
      split
      · rw [show ((n : Int) - r).toNat = n - r by omega]
        exact Nat.choose_symm (by omega)
      · rw [Int.toNat_natCast]
  rwa [hvalue] at hfound

/-! ## Results that do not show what is remembered -/

/-- Every sound memory gives the same result and is left sound. -/
def Steady (x : StateM Binomials α) : Prop := ∃ a, Yields x a

theorem Yields.steady {x : StateM Binomials α} {a : α} (hx : Yields x a) : Steady x := ⟨a, hx⟩

theorem steady_pure (a : α) : Steady (pure a) := (yields_pure a).steady

theorem Steady.bind {x : StateM Binomials α} {f : α → StateM Binomials β} (hx : Steady x)
    (hf : ∀ a, Steady (f a)) : Steady (x >>= f) := by
  obtain ⟨a, ha⟩ := hx
  obtain ⟨b, hb⟩ := hf a
  exact ⟨b, ha.bind hb⟩

theorem Steady.map {x : StateM Binomials α} (hx : Steady x) (f : α → β) : Steady (f <$> x) := by
  obtain ⟨a, ha⟩ := hx
  exact ⟨f a, ha.map f⟩

theorem steady_foldlM {f : β → α → StateM Binomials β} (hf : ∀ b a, Steady (f b a))
    (items : List α) (start : β) : Steady (items.foldlM f start) := by
  induction items generalizing start with
  | nil => exact steady_pure start
  | cons a items ih =>
      rw [List.foldlM_cons]
      exact (hf start a).bind ih

theorem steady_choose (n r : Int) : Steady (choose n r) := (yields_choose_int n r).steady

theorem Steady.eq_fresh {x : StateM Binomials α} (hx : Steady x) {memory : Binomials}
    (hsound : memory.Sound) : (x.run memory).1 = (x.run empty).1 := by
  obtain ⟨a, ha⟩ := hx
  exact (ha memory hsound).1.trans (ha empty sound_empty).1.symm

end Binomials

end DiceCalculator
