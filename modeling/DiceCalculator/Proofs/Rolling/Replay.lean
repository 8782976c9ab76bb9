import DiceCalculator.Expr.Roll
import DiceCalculator.Proofs.Rolling.Ledger
import Mathlib.Logic.Function.Basic

/-!
# Replaying a run from its ledger

A ledger forgets how dice of different sizes took turns. The run can be repeated from it all the
same, since each request names the size of the die: the next unused roll of that size is the one
that answered the request in the first run. The repeated run finds every roll that it asks for, and
it leaves none.
-/
namespace DiceCalculator

namespace Draws

variable {α σ : Type}

/-- Answers with the first unused roll of the size that is asked for. There are no unused rolls any
more after a request that none of them could answer. -/
def fromUnused : Option (Int → List Int) → Int → Int × Option (Int → List Int)
  | none, _ => (0, none)
  | some unused, sides =>
    match unused sides with
    | [] => (0, none)
    | face :: rest => (face, some (Function.update unused sides rest))

private theorem fromUnused_cons {unused : Int → List Int} {sides face : Int} {rest : List Int}
    (h : unused sides = face :: rest) :
    fromUnused (some unused) sides = (face, some (Function.update unused sides rest)) := by
  simp [fromUnused, h]

/-- If the unused rolls of each size begin with those of a run, the run is repeated with them, and
the rolls behind them are left. -/
theorem run_fromUnused (draw : σ → Int → Int × σ) (t : Draws α) (source : σ)
    {unused left : Int → List Int}
    (h : ∀ size, unused size = Die.facesOf size (dice draw t source) ++ left size)
    (ledger : Ledger) :
    run fromUnused t (some unused) ledger =
      ⟨(run draw t source .empty).result, some left, ledger.recordAll (dice draw t source)⟩ := by
  induction t generalizing source unused ledger with
  | done a =>
      have hleft : unused = left := funext h
      rw [hleft]
      rfl
  | die sides next ih =>
      let face := (draw source sides).1
      let rest := dice draw (next face) (draw source sides).2
      have hdice : dice draw (.die sides next) source = ⟨sides, face⟩ :: rest := rfl
      have hnext : unused sides = face :: (Die.facesOf sides rest ++ left sides) := by
        rw [h, hdice, Die.facesOf_cons, if_pos rfl]
        rfl
      have hothers (size : Int) :
          Function.update unused sides (Die.facesOf sides rest ++ left sides) size =
            Die.facesOf size rest ++ left size := by
        by_cases hsize : size = sides
        · rw [hsize, Function.update_self]
        · rw [Function.update_of_ne hsize, h, hdice, Die.facesOf_cons, if_neg (Ne.symm hsize)]
          rfl
      have hresult : (run draw (.die sides next) source .empty).result =
          (run draw (next face) (draw source sides).2 .empty).result := by
        rw [run_die, run_eq_fresh]
      rw [run_die, fromUnused_cons hnext, hresult, hdice]
      exact ih face _ hothers (ledger.record sides face)

end Draws

open Draws

/-- Whatever answers the requests of a roll, the ledger that it leaves is enough to repeat it. Each
request is answered with the next unused roll of its size, none finds that there is no such roll,
and in the end all of them have been used and stand in a ledger as before. The outcome is the same
value or the same failure. -/
theorem Expr.roll_replayed_from_ledger {σ : Type} (e : Expr) (draw : σ → Int → Int × σ)
    (source : σ) :
    let first := run draw e.roll.run source .empty
    run fromUnused e.roll.run (some first.ledger.rolls) .empty =
      ⟨first.result, some fun _ => [], first.ledger⟩ := by
  intro first
  have hledger : first.ledger = Ledger.empty.recordAll (Draws.dice draw e.roll.run source) :=
    ledger_run draw e.roll.run source .empty
  rw [hledger]
  refine run_fromUnused draw e.roll.run source (fun size => ?_) .empty
  rw [Ledger.rolls_recordAll, Ledger.rolls_empty, List.nil_append, List.append_nil]

end DiceCalculator
