import DiceCalculator.Proofs.Expr.Requests
import DiceCalculator.Proofs.Rolling.Ledger

/-!
# Sessions with one ledger

Any number of expressions may be rolled into one ledger. Neither the outcome of a roll nor the dice
that it draws depend on what the ledger holds by then; a failed roll leaves its dice in it like any
other. As long as dice show numbers in their range, all that the ledger holds is in range too.
-/
namespace DiceCalculator

namespace Ledger

/-- There is a roll in the entry, and all rolls are faces of dice with its number of sides. -/
structure Entry.InRange (entry : Entry) : Prop where
  sides_pos : 1 ≤ entry.sides
  rolls_ne : entry.rolls ≠ #[]
  rolls_range : ∀ face ∈ entry.rolls, 1 ≤ face ∧ face ≤ entry.sides

def InRange (ledger : Ledger) : Prop := ∀ entry ∈ ledger.entries, entry.InRange

/-- The ledger of a session: expressions are rolled into it one after the other, each with the
state in which it finds the source of rolls. -/
def afterSession {σ : Type} (draw : σ → Int → Int × σ) (session : List (Expr × σ)) : Ledger :=
  session.foldl (fun ledger (e, source) => (Draws.run draw e.roll.run source ledger).ledger) .empty

private theorem Entry.inRange_record {sides face : Int} (hlow : 1 ≤ face) (hhigh : face ≤ sides)
    {entries : List Entry} (h : ∀ entry ∈ entries, entry.InRange) :
    ∀ entry ∈ Entry.record sides face entries, entry.InRange := by
  induction entries with
  | nil =>
      intro entry hentry
      obtain rfl := List.mem_singleton.mp hentry
      exact ⟨by simp only; omega, by simp, by simpa using ⟨hlow, hhigh⟩⟩
  | cons first entries ih =>
      obtain ⟨hfirst, hrest⟩ := List.forall_mem_cons.mp h
      rw [Entry.record]
      split
      next heq =>
        refine List.forall_mem_cons.mpr ⟨⟨hfirst.sides_pos, by simp, ?_⟩, hrest⟩
        intro roll hroll
        rcases Array.mem_push.mp hroll with hold | rfl
        · exact hfirst.rolls_range roll hold
        · exact ⟨hlow, heq ▸ hhigh⟩
      next => exact List.forall_mem_cons.mpr ⟨hfirst, ih hrest⟩

theorem InRange.record {ledger : Ledger} (h : ledger.InRange) {sides face : Int}
    (hlow : 1 ≤ face) (hhigh : face ≤ sides) : (ledger.record sides face).InRange :=
  Entry.inRange_record hlow hhigh h

end Ledger

namespace Draws

variable {α σ : Type}

/-- What a die with sides shows is one of its faces. -/
def StaysInRange (draw : σ → Int → Int × σ) : Prop :=
  ∀ source sides, 1 ≤ sides → 1 ≤ (draw source sides).1 ∧ (draw source sides).1 ≤ sides

theorem inRange_run {draw : σ → Int → Int × σ} (hdraw : StaysInRange draw) {t : Draws α}
    (ht : t.AllSides (1 ≤ ·)) (source : σ) {ledger : Ledger} (h : ledger.InRange) :
    (run draw t source ledger).ledger.InRange := by
  induction t generalizing source ledger with
  | done a => exact h
  | die sides next ih =>
      obtain ⟨hsides, hnext⟩ := ht
      obtain ⟨hlow, hhigh⟩ := hdraw source sides hsides
      rw [run_die]
      exact ih _ (hnext _) _ (h.record hlow hhigh)

end Draws

open Draws

namespace Ledger

variable {σ : Type} (draw : σ → Int → Int × σ)

private theorem afterSession_concat (session : List (Expr × σ)) (e : Expr) (source : σ) :
    afterSession draw (session ++ [(e, source)]) =
      (run draw e.roll.run source (afterSession draw session)).ledger := by
  rw [afterSession, List.foldl_append]
  rfl

private theorem nodup_sizes_afterSession (session : List (Expr × σ)) :
    (afterSession draw session).sizes.Nodup := by
  induction session using List.reverseRecOn with
  | nil => exact List.nodup_nil
  | append_singleton session step ih =>
      rw [afterSession_concat, ledger_run]
      exact nodup_sizes_recordAll ih _

theorem inRange_afterSession (hdraw : StaysInRange draw) (session : List (Expr × σ)) :
    (afterSession draw session).InRange := by
  induction session using List.reverseRecOn with
  | nil =>
      intro entry hentry
      exact absurd hentry List.not_mem_nil
  | append_singleton session step ih =>
      rw [afterSession_concat]
      exact inRange_run hdraw step.1.allSides_roll step.2 ih

end Ledger

/-- After any session, rolling an expression comes out as it does with an empty ledger, also if it
fails, and the source is left in the same state. The ledger is the one of the session with the one
of the fresh roll behind it, whose sizes stand in the order of their first roll. If dice show
numbers in their range, so do all entries of the ledger after the session. -/
theorem Expr.roll_extends_ledger {σ τ : Type} (draw : σ → Int → Int × σ)
    (drawBefore : τ → Int → Int × τ) (session : List (Expr × τ)) (e : Expr) (source : σ) :
    let ledger := Ledger.afterSession drawBefore session
    let fresh := run draw e.roll.run source .empty
    run draw e.roll.run source ledger =
        ⟨fresh.result, fresh.source, ledger.extend fresh.ledger⟩ ∧
      fresh.ledger.sizes = ((Draws.dice draw e.roll.run source).map (·.sides)).eraseDups ∧
      (StaysInRange drawBefore → ledger.InRange) := by
  intro ledger fresh
  have hfresh : fresh.ledger = Ledger.empty.recordAll (Draws.dice draw e.roll.run source) :=
    ledger_run draw e.roll.run source .empty
  refine ⟨?_, ?_, fun hdraw => Ledger.inRange_afterSession drawBefore hdraw session⟩
  · rw [run_eq_fresh, hfresh]
    rw [Ledger.recordAll_eq_extend (Ledger.nodup_sizes_afterSession drawBefore session)]
  · rw [hfresh, Ledger.sizes_recordAll, Ledger.sizes_empty, List.nil_append]
    exact List.filter_eq_self.mpr fun _ _ => rfl

theorem roll_extends_ledger_after_failure :
    let draw : Nat → Int → Int × Nat := fun k sides => (k % sides + 1, k + 1)
    let session : List (Expr × Nat) := [(.dice (.literal 2) (.literal 6), 3),
      (.arith .quotient (.dice (.literal 1) (.literal 4)) (.literal 0), 5)]
    let e : Expr := .arith .sum (.dice (.literal 1) (.literal 8)) (.dice (.literal 1) (.literal 6))
    let ledger := Ledger.afterSession draw session
    let fresh := run draw e.roll.run 7 .empty
    StaysInRange draw ∧ ledger.InRange ∧ ledger = ⟨[⟨6, #[4, 5]⟩, ⟨4, #[2]⟩]⟩ ∧
      (run draw e.roll.run 7 ledger).result = fresh.result ∧
      (run draw e.roll.run 7 ledger).ledger = ⟨[⟨6, #[4, 5, 3]⟩, ⟨4, #[2]⟩, ⟨8, #[8]⟩]⟩ := by
  intro draw session e ledger fresh
  have hdraw : StaysInRange draw := by
    intro k sides hsides
    have hlow := Int.emod_nonneg k (show sides ≠ 0 by omega)
    have hhigh := Int.emod_lt_of_pos k (show 0 < sides by omega)
    simp only [draw]
    omega
  obtain ⟨hrun, _, hrange⟩ := Expr.roll_extends_ledger draw draw session e 7
  refine ⟨hdraw, hrange hdraw, by decide +kernel, by rw [hrun], ?_⟩
  rw [hrun]
  decide +kernel

end DiceCalculator
