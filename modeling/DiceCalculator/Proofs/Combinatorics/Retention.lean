import DiceCalculator.Proofs.Combinatorics.Binomials
import Mathlib.Data.List.Dedup
import Mathlib.Data.List.Induction
import Mathlib.Data.List.Perm.Basic

/-!
# What a memory of coefficients holds

A walk passes the places of its diagonal from its start to the edge of the triangle, and it may stop
early where a coefficient is remembered. Nothing is lost by that: with a place, a memory holds all
places in kept rows further up its diagonal. So what it holds is what all walks together would have
passed, whatever their order, and a walk on a part of a diagonal that was walked before multiplies
out two rows at most.
-/
namespace DiceCalculator.Binomials

/-- The places in kept rows on a diagonal, from row `n` and column `r` up to the edge. -/
def keptOnDiagonal (n r : Nat) : List (Nat × Nat) :=
  ((List.range r).map fun j => (n - j, r - j)).filter fun place => keepsRow place.1

private theorem mem_keptOnDiagonal {n r : Nat} {place : Nat × Nat} :
    place ∈ keptOnDiagonal n r ↔ keepsRow place.1 ∧ ∃ j < r, place = (n - j, r - j) := by
  rw [keptOnDiagonal, List.mem_filter, List.mem_map, and_comm]
  simp only [List.mem_range, eq_comm]

private theorem mem_keptOnDiagonal_succ {n r : Nat} {place : Nat × Nat} :
    place ∈ keptOnDiagonal n (r + 1) ↔
      keepsRow n ∧ place = (n, r + 1) ∨ place ∈ keptOnDiagonal (n - 1) r := by
  simp only [mem_keptOnDiagonal]
  constructor
  · rintro ⟨hrow, j, hj, rfl⟩
    cases j with
    | zero => exact .inl ⟨hrow, rfl⟩
    | succ j =>
        refine .inr ⟨hrow, j, by omega, ?_⟩
        rw [Nat.sub_sub, Nat.add_comm 1 j, Nat.add_sub_add_right]
  · rintro (⟨hrow, rfl⟩ | ⟨hrow, j, hj, rfl⟩)
    · exact ⟨hrow, 0, r.succ_pos, rfl⟩
    · refine ⟨hrow, j + 1, by omega, ?_⟩
      rw [Nat.sub_sub, Nat.add_comm 1 j, Nat.add_sub_add_right]

private theorem keptOnDiagonal_subset (n r j : Nat) :
    keptOnDiagonal (n - j) (r - j) ⊆ keptOnDiagonal n r := by
  intro place hplace
  obtain ⟨hrow, i, hi, rfl⟩ := mem_keptOnDiagonal.mp hplace
  exact mem_keptOnDiagonal.mpr ⟨hrow, j + i, by omega, by rw [Nat.sub_sub, Nat.sub_sub]⟩

/-- What is stored for a place: its coefficient under its number. -/
def entry (place : Nat × Nat) : Nat × Nat :=
  (cantorNumber place.1 place.2, place.1.choose place.2)

private theorem entry_injective : Function.Injective entry := by
  intro place other heq
  obtain ⟨hrow, hcolumn⟩ := cantorNumber_inj.mp (congrArg Prod.fst heq)
  exact Prod.ext hrow hcolumn

/-! ## Memories that hold certain places -/

/-- The memory holds the coefficients of these places, each under its number, and nothing else. -/
def Holds (memory : Binomials) (places : List (Nat × Nat)) : Prop :=
  ∀ key value, memory.kept[key]? = some value ↔ (key, value) ∈ places.map entry

/-- With a place, all places in kept rows further up its diagonal are there. -/
def ReachesEdge (places : List (Nat × Nat)) : Prop :=
  ∀ place ∈ places, keptOnDiagonal place.1 place.2 ⊆ places

private theorem holds_empty : empty.Holds [] := by
  intro key value
  simp [empty]

section Holds

variable {memory : Binomials} {places others : List (Nat × Nat)}

private theorem Holds.congr (h : memory.Holds places)
    (heq : ∀ place, place ∈ places ↔ place ∈ others) : memory.Holds others := by
  intro key value
  simp only [h key value, List.mem_map, heq]

private theorem Holds.mem_iff (h : memory.Holds places) {n r value : Nat} :
    memory.kept[cantorNumber n r]? = some value ↔ (n, r) ∈ places ∧ value = n.choose r := by
  rw [h, List.mem_map]
  constructor
  · rintro ⟨⟨m, k⟩, hplace, hentry⟩
    obtain ⟨rfl, rfl⟩ := cantorNumber_inj.mp (congrArg Prod.fst hentry)
    exact ⟨hplace, (congrArg Prod.snd hentry).symm⟩
  · rintro ⟨hplace, rfl⟩
    exact ⟨(n, r), hplace, rfl⟩

private theorem Holds.sound (h : memory.Holds places) : memory.Sound :=
  fun _ _ _ hvalue => (h.mem_iff.mp hvalue).2

private theorem Holds.keep (h : memory.Holds places) (n r : Nat) :
    (memory.keep n r (n.choose r)).Holds
      ((if keepsRow n then [(n, r)] else []) ++ places) := by
  unfold Binomials.keep
  split
  · intro key value
    rw [Std.TreeMap.getElem?_insert, List.map_append, List.mem_append, ← h]
    by_cases hkey : cantorNumber n r = key
    · subst hkey
      have hsame : memory.kept[cantorNumber n r]? = some value → value = n.choose r :=
        h.sound n r value
      simpa [entry, eq_comm (b := value)] using hsame
    · simp [hkey, entry, Ne.symm hkey]
  · simpa using h

private theorem Holds.walk (h : memory.Holds places) (hedge : ReachesEdge places) (n r : Nat) :
    (memory.walk n r).2.Holds (keptOnDiagonal n r ++ places) := by
  induction r generalizing n with
  | zero => exact h
  | succ r ih =>
      rw [Binomials.walk]
      split
      next value hvalue =>
        have hplace : (n, r + 1) ∈ places := (h.mem_iff.mp hvalue).1
        have hhit : Holds { memory with hits := memory.hits + 1 } places := h
        refine hhit.congr fun place => ?_
        rw [List.mem_append]
        exact ⟨.inr, fun hor => hor.elim (fun hmem => hedge _ hplace hmem) id⟩
      next =>
        have hvalue : n * (memory.walk (n - 1) r).1 / (r + 1) = n.choose (r + 1) := by
          rw [(walk_spec h.sound (n - 1) r).1, mul_choose_div]
        simp only [hvalue]
        refine ((ih (n - 1)).keep n (r + 1)).congr fun place => ?_
        simp only [List.mem_append, mem_keptOnDiagonal_succ, or_assoc]
        split <;> simp_all

theorem Holds.toList_perm (h : memory.Holds places) :
    memory.toList.Perm (places.dedup.map entry) := by
  have hkeys : memory.toList.Pairwise fun a b => ¬ compare a.1 b.1 = .eq :=
    Std.TreeMap.distinct_keys_toList
  have hnodup : memory.toList.Nodup := by
    refine hkeys.imp fun hne heq => hne ?_
    rw [congrArg Prod.fst heq]
    exact Std.ReflCmp.compare_self
  refine (List.perm_ext_iff_of_nodup hnodup (places.nodup_dedup.map entry_injective)).mpr ?_
  rintro ⟨key, value⟩
  rw [Binomials.toList, Std.TreeMap.mem_toList_iff_getElem?_eq_some, h]
  simp only [List.mem_map, List.mem_dedup]

/-- Memories that hold the same places have the same entries. -/
theorem Holds.toList_eq {other : Binomials} (h : memory.Holds places) (h' : other.Holds places) :
    other.toList = memory.toList := by
  have hsame : other.toList.Perm memory.toList := h'.toList_perm.trans h.toList_perm.symm
  exact Std.TreeMap.equiv_iff_toList_eq.mp (Std.TreeMap.Equiv.of_toList_perm hsame)

end Holds

/-! ## Requests one after the other -/

/-- Where the walk for a coefficient starts. Only inside the triangle there is one. -/
def start? (request : Int × Int) : Option (Nat × Nat) :=
  let (n, r) := request
  if 0 ≤ r ∧ r ≤ n then some (n.toNat, (nearerColumn n r).toNat) else none

def demanded (requests : List (Int × Int)) : List (Nat × Nat) :=
  (requests.filterMap start?).flatMap fun (n, r) => keptOnDiagonal n r

/-- The memory that requests leave, one after the other, when it was empty before. -/
def memoryOf (requests : List (Int × Int)) : Binomials :=
  requests.foldl (fun memory (n, r) => ((choose n r).run memory).2) empty

private theorem memoryOf_concat (requests : List (Int × Int)) (n r : Int) :
    memoryOf (requests ++ [(n, r)]) = ((choose n r).run (memoryOf requests)).2 := by
  rw [memoryOf, List.foldl_append]
  rfl

private theorem reachesEdge_demanded (requests : List (Int × Int)) :
    ReachesEdge (demanded requests) := by
  intro place hplace further hfurther
  obtain ⟨⟨n, r⟩, hstart, hmem⟩ := List.mem_flatMap.mp hplace
  obtain ⟨-, j, -, rfl⟩ := mem_keptOnDiagonal.mp hmem
  exact List.mem_flatMap.mpr ⟨(n, r), hstart, keptOnDiagonal_subset n r j hfurther⟩

private theorem run_choose_of_start?_eq_none {n r : Int} (h : start? (n, r) = none)
    (memory : Binomials) : ((choose n r).run memory).2 = memory := by
  have hout : ¬ (0 ≤ r ∧ r ≤ n) := by simpa [start?] using h
  rw [run_choose]
  split
  next => rfl
  next hle =>
    have hcolumn : (nearerColumn n r).toNat = 0 := by
      rw [nearerColumn]
      split <;> omega
    rw [hcolumn]
    rfl

private theorem run_choose_of_start? {n r : Int} {m k : Nat} (h : start? (n, r) = some (m, k))
    (memory : Binomials) : k ≤ m ∧ (choose n r).run memory = memory.walk m k := by
  simp only [start?, Option.ite_none_right_eq_some, Option.some.injEq, Prod.mk.injEq] at h
  obtain ⟨hin, rfl, rfl⟩ := h
  rw [run_choose, if_neg (by omega), nearerColumn]
  refine ⟨?_, rfl⟩
  split <;> omega

theorem Holds.choose {memory : Binomials} {requests : List (Int × Int)}
    (h : memory.Holds (demanded requests)) (n r : Int) :
    ((choose n r).run memory).2.Holds (demanded (requests ++ [(n, r)])) := by
  cases hstart : start? (n, r) with
  | none =>
      rw [run_choose_of_start?_eq_none hstart]
      refine h.congr fun place => ?_
      simp [demanded, hstart]
  | some start =>
      rw [(run_choose_of_start? hstart memory).2]
      refine (h.walk (reachesEdge_demanded requests) start.1 start.2).congr fun place => ?_
      simp [demanded, hstart, or_comm]

theorem holds_memoryOf (requests : List (Int × Int)) :
    (memoryOf requests).Holds (demanded requests) := by
  induction requests using List.reverseRecOn with
  | nil => exact holds_empty
  | append_singleton requests request ih =>
      rw [memoryOf_concat]
      exact ih.choose request.1 request.2

/-! ## The rows that a walk multiplies out -/

/-- The places on the diagonal whose coefficients are not found, from row `n` on. -/
def climb (memory : Binomials) (n : Nat) : Nat → List (Nat × Nat)
  | 0 => []
  | r + 1 =>
    match memory.kept[cantorNumber n (r + 1)]? with
    | some _ => []
    | none => (n, r + 1) :: climb memory (n - 1) r

/-- The coefficient that is found where the climb ends. Finding a remembered one counts as a hit. -/
def foothold (memory : Binomials) (n : Nat) : Nat → Nat × Binomials
  | 0 => (1, memory)
  | r + 1 =>
    match memory.kept[cantorNumber n (r + 1)]? with
    | some value => (value, { memory with hits := memory.hits + 1 })
    | none => foothold memory (n - 1) r

def multiplyOut (place : Nat × Nat) (before : Nat × Binomials) : Nat × Binomials :=
  let value := place.1 * before.1 / place.2
  (value, before.2.keep place.1 place.2 value)

/-- A walk climbs to a coefficient that is known, and multiplies out one row after the other on its
way back. -/
theorem walk_eq_foldr (memory : Binomials) (n r : Nat) :
    memory.walk n r = (memory.climb n r).foldr multiplyOut (memory.foothold n r) := by
  induction r generalizing n with
  | zero => rfl
  | succ r ih =>
      rw [Binomials.walk, climb, foothold]
      cases memory.kept[cantorNumber n (r + 1)]? with
      | some value => rfl
      | none =>
          simp only [List.foldr_cons, ← ih]
          rfl

/-- Where the kept rows of a diagonal are held, a climb ends at the first of them. -/
theorem length_climb_le {memory : Binomials} {places : List (Nat × Nat)}
    (h : memory.Holds places) {n r : Nat} (hr : r ≤ n) (hkept : keptOnDiagonal n r ⊆ places) :
    (memory.climb n r).length ≤ (n + 1) % 3 := by
  induction r generalizing n with
  | zero => exact Nat.zero_le _
  | succ r ih =>
      rw [climb]
      split
      next => exact Nat.zero_le _
      next hnone =>
        have hrow : n % 3 ≠ 2 := by
          intro hkeeps
          have hplace : (n, r + 1) ∈ places :=
            hkept (mem_keptOnDiagonal_succ.mpr (.inl ⟨by simpa [keepsRow] using hkeeps, rfl⟩))
          have hfound := h.mem_iff.mpr ⟨hplace, rfl⟩
          rw [hnone] at hfound
          exact absurd hfound (by simp)
        have hrest : (memory.climb (n - 1) r).length ≤ (n - 1 + 1) % 3 :=
          ih (by omega) fun place hplace => hkept (mem_keptOnDiagonal_succ.mpr (.inr hplace))
        rw [List.length_cons]
        omega

/-- After any requests a memory has one entry for each place in a kept row that is on the walk of a
request, with its coefficient, and no other entry. So it does not matter in which order and how
often something was asked for. A request whose walk starts on a walk of an earlier request, or
further up, multiplies out at most two rows and adds no entry. -/
theorem memoryOf_holds_demanded (requests : List (Int × Int)) :
    (memoryOf requests).toList.Perm ((demanded requests).dedup.map entry) ∧
      (∀ others, (∀ request, request ∈ others ↔ request ∈ requests) →
        (memoryOf others).toList = (memoryOf requests).toList) ∧
      ∀ n r m k a b, start? (n, r) = some (m, k) → (a, b) ∈ requests.filterMap start? →
        m + b = a + k → m ≤ a →
          (choose n r).run (memoryOf requests) =
              ((memoryOf requests).climb m k).foldr multiplyOut
                ((memoryOf requests).foothold m k) ∧
            ((memoryOf requests).climb m k).length ≤ 2 ∧
            ((choose n r).run (memoryOf requests)).2.toList = (memoryOf requests).toList := by
  have hholds : (memoryOf requests).Holds (demanded requests) := holds_memoryOf requests
  refine ⟨hholds.toList_perm, fun others hsame => ?_, ?_⟩
  · refine hholds.toList_eq ((holds_memoryOf others).congr fun place => ?_)
    simp only [demanded, List.mem_flatMap, List.mem_filterMap, hsame]
  · intro n r m k a b hstart hearlier hdiagonal habove
    have hpart : keptOnDiagonal m k ⊆ demanded requests := by
      have hfurther := keptOnDiagonal_subset a b (a - m)
      rw [show a - (a - m) = m by omega, show b - (a - m) = k by omega] at hfurther
      exact fun place hplace =>
        List.mem_flatMap.mpr ⟨(a, b), hearlier, hfurther hplace⟩
    obtain ⟨hcolumn, hrun⟩ := run_choose_of_start? hstart (memoryOf requests)
    have hlength := length_climb_le hholds hcolumn hpart
    refine ⟨hrun.trans (walk_eq_foldr _ m k), by omega, hholds.toList_eq ?_⟩
    rw [hrun]
    refine (hholds.walk (reachesEdge_demanded requests) m k).congr fun place => ?_
    rw [List.mem_append]
    exact ⟨fun hor => hor.elim (fun hmem => hpart hmem) id, .inr⟩

theorem memoryOf_holds_demanded_of_one_diagonal :
    let requests : List (Int × Int) := [(30, 10), (7, -2), (3, 5), (26, 20)]
    let others : List (Int × Int) := [(3, 5), (26, 20), (26, 20), (7, -2), (30, 10)]
    let memory := memoryOf requests
    (∀ request, request ∈ others ↔ request ∈ requests) ∧
      start? (28, 20) = some (28, 8) ∧ (30, 10) ∈ requests.filterMap start? ∧
      memory.toList.Perm [entry (29, 9), entry (26, 6), entry (23, 3)] ∧
      (memoryOf others).toList = memory.toList ∧
      memory.climb 28 8 = [(28, 8), (27, 7)] ∧ (memory.climb 28 8).length ≤ 2 ∧
      ((choose 28 20).run memory).2.toList = memory.toList := by
  intro requests others memory
  have hsame : ∀ request, request ∈ others ↔ request ∈ requests := by
    intro request
    simp only [others, requests, List.mem_cons, List.not_mem_nil, or_false]
    tauto
  have hstart : start? (28, 20) = some (28, 8) := by decide
  have hearlier : (30, 10) ∈ requests.filterMap start? := by decide
  obtain ⟨hentries, horder, hsaved⟩ := memoryOf_holds_demanded requests
  obtain ⟨_, hrows, hentries'⟩ :=
    hsaved 28 20 28 8 30 10 hstart hearlier (by decide) (by decide)
  exact ⟨hsame, hstart, hearlier, hentries, horder others hsame, by decide +kernel, hrows,
    hentries'⟩

end DiceCalculator.Binomials
