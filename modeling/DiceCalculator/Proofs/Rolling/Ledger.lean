import DiceCalculator.Rolling.Draws
import Mathlib.Data.List.Induction
import Mathlib.Data.List.Nodup

/-!
# What a ledger keeps

Of the dice that are entered in it, a ledger keeps the faces of each size in draw order, and the
order in which the sizes came up first. A run enters its dice and never looks at the ledger, so a
run that starts with a used ledger is a fresh run whose ledger is put behind the used one.
-/
namespace DiceCalculator

/-- A die that was rolled, and the face that it shows. -/
structure Die where
  sides : Int
  face : Int
  deriving DecidableEq, Repr

/-- The faces of the dice of one size, in draw order. -/
def Die.facesOf (sides : Int) (dice : List Die) : List Int :=
  (dice.filter (·.sides = sides)).map (·.face)

theorem Die.facesOf_cons (size : Int) (die : Die) (dice : List Die) :
    facesOf size (die :: dice) =
      (if die.sides = size then [die.face] else []) ++ facesOf size dice := by
  unfold facesOf
  by_cases h : die.sides = size <;> simp [h]

namespace Ledger

def sizes (ledger : Ledger) : List Int := ledger.entries.map (·.sides)

/-- The ledger with more rolls, entered one after the other. -/
def recordAll (ledger : Ledger) (dice : List Die) : Ledger :=
  dice.foldl (fun ledger die => ledger.record die.sides die.face) ledger

/-- A ledger with a later one behind it: the earlier rolls of a size stand before the later ones,
and the sizes that are new stand behind all others, in their order. -/
def extend (earlier later : Ledger) : Ledger :=
  ⟨earlier.entries.map (fun entry =>
      ⟨entry.sides, entry.rolls ++ (later.rolls entry.sides).toArray⟩) ++
    later.entries.filter (·.sides ∉ earlier.sizes)⟩

@[simp] theorem sizes_empty : empty.sizes = [] := rfl

@[simp] theorem rolls_empty (size : Int) : empty.rolls size = [] := rfl

private theorem sizes_cons (entry : Entry) (entries : List Entry) :
    (⟨entry :: entries⟩ : Ledger).sizes = entry.sides :: (⟨entries⟩ : Ledger).sizes := rfl

private theorem rolls_cons (entry : Entry) (entries : List Entry) (size : Int) :
    (⟨entry :: entries⟩ : Ledger).rolls size =
      if entry.sides = size then entry.rolls.toList else (⟨entries⟩ : Ledger).rolls size := by
  by_cases h : entry.sides = size <;> simp [rolls, h]

private theorem rolls_eq_nil_of_not_mem {ledger : Ledger} {size : Int} (h : size ∉ ledger.sizes) :
    ledger.rolls size = [] := by
  obtain ⟨entries⟩ := ledger
  induction entries with
  | nil => rfl
  | cons entry entries ih =>
      rw [sizes_cons, List.mem_cons, not_or] at h
      rw [rolls_cons, if_neg (Ne.symm h.1), ih h.2]

theorem rolls_record (ledger : Ledger) (sides face size : Int) :
    (ledger.record sides face).rolls size =
      ledger.rolls size ++ if sides = size then [face] else [] := by
  obtain ⟨entries⟩ := ledger
  induction entries with
  | nil =>
      change (⟨[⟨sides, #[face]⟩]⟩ : Ledger).rolls size = _
      rw [rolls_cons]
      rfl
  | cons entry entries ih =>
      rw [record, Entry.record]
      split
      next heq =>
        rw [rolls_cons, rolls_cons, heq]
        by_cases h : sides = size <;> simp [h]
      next hne =>
        rw [rolls_cons, rolls_cons]
        split
        next hsize => rw [if_neg (fun h => hne (hsize.trans h.symm)), List.append_nil]
        next => exact ih

theorem sizes_record (ledger : Ledger) (sides face : Int) :
    (ledger.record sides face).sizes =
      if sides ∈ ledger.sizes then ledger.sizes else ledger.sizes ++ [sides] := by
  obtain ⟨entries⟩ := ledger
  induction entries with
  | nil => rfl
  | cons entry entries ih =>
      rw [record, Entry.record]
      split
      next heq => rw [sizes_cons, sizes_cons, if_pos (by simp [heq])]
      next hne =>
        change entry.sides :: (record ⟨entries⟩ sides face).sizes = _
        rw [ih, sizes_cons]
        simp only [List.mem_cons, Ne.symm hne, false_or]
        split <;> rfl

private theorem nodup_sizes_record {ledger : Ledger} (h : ledger.sizes.Nodup) (sides face : Int) :
    (ledger.record sides face).sizes.Nodup := by
  rw [sizes_record]
  split
  next => exact h
  next hnew => exact List.concat_eq_append ▸ h.concat hnew

private theorem recordAll_cons (ledger : Ledger) (die : Die) (dice : List Die) :
    ledger.recordAll (die :: dice) = (ledger.record die.sides die.face).recordAll dice := rfl

private theorem recordAll_concat (ledger : Ledger) (dice : List Die) (die : Die) :
    ledger.recordAll (dice ++ [die]) = (ledger.recordAll dice).record die.sides die.face := by
  rw [recordAll, List.foldl_append]
  rfl

theorem rolls_recordAll (ledger : Ledger) (dice : List Die) (size : Int) :
    (ledger.recordAll dice).rolls size = ledger.rolls size ++ Die.facesOf size dice := by
  induction dice generalizing ledger with
  | nil => exact (List.append_nil _).symm
  | cons die dice ih =>
      rw [recordAll_cons, ih, rolls_record, Die.facesOf_cons, List.append_assoc]

theorem nodup_sizes_recordAll {ledger : Ledger} (h : ledger.sizes.Nodup) (dice : List Die) :
    (ledger.recordAll dice).sizes.Nodup := by
  induction dice generalizing ledger with
  | nil => exact h
  | cons die dice ih => exact ih (nodup_sizes_record h die.sides die.face)

theorem sizes_recordAll (ledger : Ledger) (dice : List Die) :
    (ledger.recordAll dice).sizes =
      ledger.sizes ++ (dice.map (·.sides)).eraseDups.removeAll ledger.sizes := by
  induction dice using List.reverseRecOn with
  | nil => exact (List.append_nil _).symm
  | append_singleton dice die ih =>
      rw [recordAll_concat, sizes_record, ih, List.map_append, List.eraseDups_append, List.map_cons,
        List.map_nil]
      generalize dice.map (·.sides) = seen
      by_cases hold : die.sides ∈ ledger.sizes
      · simp [List.removeAll, hold]
      · by_cases hseen : die.sides ∈ seen
        · simp [List.removeAll, hold, hseen]
        · simp [List.removeAll, hold, hseen, List.eraseDups_cons]

theorem entries_eq {ledger : Ledger} (h : ledger.sizes.Nodup) :
    ledger.entries = ledger.sizes.map fun size => ⟨size, (ledger.rolls size).toArray⟩ := by
  obtain ⟨entries⟩ := ledger
  induction entries with
  | nil => rfl
  | cons entry entries ih =>
      rw [sizes_cons, List.nodup_cons] at h
      rw [sizes_cons, List.map_cons, rolls_cons, if_pos rfl]
      refine congrArg₂ List.cons rfl ((ih h.2).trans (List.map_congr_left fun size hsize => ?_))
      have hne : entry.sides ≠ size := fun heq => h.1 (heq ▸ hsize)
      rw [rolls_cons, if_neg hne]

theorem eq_of_sizes_of_rolls {ledger other : Ledger} (h : ledger.sizes.Nodup)
    (hsizes : ledger.sizes = other.sizes) (hrolls : ∀ size, ledger.rolls size = other.rolls size) :
    ledger = other := by
  have hentries : ledger.entries = other.entries := by
    rw [entries_eq h, entries_eq (hsizes ▸ h), hsizes]
    simp only [hrolls]
  obtain ⟨entries⟩ := ledger
  exact congrArg Ledger.mk hentries

theorem sizes_extend (earlier later : Ledger) :
    (earlier.extend later).sizes = earlier.sizes ++ later.sizes.removeAll earlier.sizes := by
  rw [extend, sizes, List.map_append, List.map_map, List.removeAll, sizes, sizes, List.filter_map]
  congr 2
  refine List.filter_congr fun entry _ => ?_
  rw [Function.comp_apply, List.elem_eq_mem, decide_not]

private theorem rolls_append (first second : List Entry) (size : Int) :
    (⟨first ++ second⟩ : Ledger).rolls size =
      if size ∈ (⟨first⟩ : Ledger).sizes then (⟨first⟩ : Ledger).rolls size
      else (⟨second⟩ : Ledger).rolls size := by
  induction first with
  | nil => rfl
  | cons entry first ih =>
      rw [List.cons_append, rolls_cons, rolls_cons, ih, sizes_cons]
      by_cases h : entry.sides = size
      · simp [h]
      · simp [h, Ne.symm h]

private theorem rolls_map (entries : List Entry) (later : Ledger) (size : Int) :
    (⟨entries.map fun entry => ⟨entry.sides, entry.rolls ++ (later.rolls entry.sides).toArray⟩⟩ :
        Ledger).rolls size =
      if size ∈ (⟨entries⟩ : Ledger).sizes then (⟨entries⟩ : Ledger).rolls size ++ later.rolls size
      else [] := by
  induction entries with
  | nil => rfl
  | cons entry entries ih =>
      rw [List.map_cons, rolls_cons, rolls_cons, ih, sizes_cons]
      by_cases h : entry.sides = size
      · simp [h]
      · simp [h, Ne.symm h]

private theorem rolls_filter (keep : Int → Prop) [DecidablePred keep] (entries : List Entry)
    {size : Int} (h : keep size) :
    (⟨entries.filter (keep ·.sides)⟩ : Ledger).rolls size = (⟨entries⟩ : Ledger).rolls size := by
  induction entries with
  | nil => rfl
  | cons entry entries ih =>
      rw [List.filter_cons]
      split
      next => rw [rolls_cons, rolls_cons, ih]
      next hdrop =>
        have hne : entry.sides ≠ size := by
          rintro rfl
          exact hdrop (by simpa using h)
        rw [rolls_cons, if_neg hne, ih]

theorem rolls_extend (earlier later : Ledger) (size : Int) :
    (earlier.extend later).rolls size = earlier.rolls size ++ later.rolls size := by
  rw [extend, rolls_append, rolls_map]
  have hsame : size ∈ (⟨earlier.entries.map fun entry =>
      ⟨entry.sides, entry.rolls ++ (later.rolls entry.sides).toArray⟩⟩ : Ledger).sizes ↔
      size ∈ earlier.sizes := by
    rw [sizes, sizes, List.map_map]
    rfl
  by_cases h : size ∈ earlier.sizes
  · rw [if_pos (hsame.mpr h), if_pos h]
  · rw [if_neg (mt hsame.mp h), rolls_filter (· ∉ earlier.sizes) _ h, rolls_eq_nil_of_not_mem h,
      List.nil_append]

/-- Entering dice in a used ledger puts behind it the ledger of these dice alone. -/
theorem recordAll_eq_extend {ledger : Ledger} (h : ledger.sizes.Nodup) (dice : List Die) :
    ledger.recordAll dice = ledger.extend (empty.recordAll dice) := by
  refine eq_of_sizes_of_rolls (nodup_sizes_recordAll h dice) ?_ fun size => ?_
  · rw [sizes_recordAll, sizes_extend, sizes_recordAll, sizes_empty, List.nil_append]
    simp [List.removeAll]
  · rw [rolls_recordAll, rolls_extend, rolls_recordAll, rolls_empty, List.nil_append]

end Ledger

namespace Draws

variable {α β σ : Type} (draw : σ → Int → Int × σ)

def dice : Draws α → σ → List Die
  | .done _, _ => []
  | .die sides next, source =>
    let (face, source) := draw source sides
    ⟨sides, face⟩ :: dice (next face) source

theorem run_die (sides : Int) (next : Int → Draws α) (source : σ) (ledger : Ledger) :
    run draw (.die sides next) source ledger =
      run draw (next (draw source sides).1) (draw source sides).2
        (ledger.record sides (draw source sides).1) := rfl

/-- A run does not look at the ledger: it enters its dice and does nothing else with it. -/
theorem run_eq_fresh (t : Draws α) (source : σ) (ledger : Ledger) :
    run draw t source ledger =
      ⟨(run draw t source .empty).result, (run draw t source .empty).source,
        ledger.recordAll (dice draw t source)⟩ := by
  suffices h : ∀ ledger ledger', run draw t source ledger =
      ⟨(run draw t source ledger').result, (run draw t source ledger').source,
        ledger.recordAll (dice draw t source)⟩ from h ledger .empty
  induction t generalizing source with
  | done a => exact fun _ _ => rfl
  | die sides next ih => exact fun ledger ledger' => ih _ _ _ _

theorem ledger_run (t : Draws α) (source : σ) (ledger : Ledger) :
    (run draw t source ledger).ledger = ledger.recordAll (dice draw t source) := by
  rw [run_eq_fresh]

end Draws

end DiceCalculator
