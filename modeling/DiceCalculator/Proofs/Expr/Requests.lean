import DiceCalculator.Expr.Roll
import DiceCalculator.Proofs.Expr.Checks

/-!
# The dice that an expression asks for

A roll of an expression goes through its steps in turn and stops at the first failure. It checks
the number of sides before it asks for a die, so no die without sides is ever asked for.
-/
namespace DiceCalculator

namespace Draws

variable {α β : Type}

/-- Wherever the rolls lead, each die that is asked for has a number of sides with this property. -/
def AllSides (p : Int → Prop) : Draws α → Prop
  | .done _ => True
  | .die sides next => p sides ∧ ∀ face, (next face).AllSides p

theorem AllSides.andThen {p : Int → Prop} {t : Draws α} {f : α → Draws β} (ht : t.AllSides p)
    (hf : ∀ a, (f a).AllSides p) : (t.andThen f).AllSides p := by
  induction t with
  | done a => exact hf a
  | die sides next ih => exact ⟨ht.1, fun face => ih face (ht.2 face)⟩

private theorem allSides_total {p : Int → Prop} {sides : Int} (h : p sides) (count : Nat)
    (sum : Int) : (total sides count sum).AllSides p := by
  induction count generalizing sum with
  | zero => trivial
  | succ count ih => exact ⟨h, fun face => ih (sum + face)⟩

end Draws

namespace RollM

variable {β γ : Type}

theorem run_bind (x : RollM β) (g : β → RollM γ) :
    (x >>= g).run = x.run.andThen fun outcome =>
      match outcome with
      | .ok b => (g b).run
      | .error failure => .done (.error failure) := by
  rw [ExceptT.run_bind]
  change x.run.andThen _ = _
  congr 1
  funext outcome
  cases outcome <;> rfl

theorem allSides_bind {p : Int → Prop} {x : RollM β} {g : β → RollM γ} (hx : x.run.AllSides p)
    (hg : ∀ b, (g b).run.AllSides p) : (x >>= g).run.AllSides p := by
  rw [run_bind]
  refine hx.andThen fun outcome => ?_
  cases outcome with
  | ok b => exact hg b
  | error failure => trivial

private theorem allSides_check {p : Int → Prop} {check : Except EvalFailure Unit}
    {g : Unit → RollM γ} (hg : check = .ok () → (g ()).run.AllSides p) :
    (ofExcept check >>= g).run.AllSides p := by
  rw [run_bind]
  cases check with
  | ok => exact hg rfl
  | error failure => trivial

private theorem allSides_lift {p : Int → Prop} {t : Draws β} (ht : t.AllSides p) :
    (ExceptT.lift t : RollM β).run.AllSides p :=
  ht.andThen fun _ => trivial

end RollM

/-- No roll of an expression asks for a die without sides. -/
theorem Expr.allSides_roll (e : Expr) : e.roll.run.AllSides (1 ≤ ·) := by
  induction e with
  | literal value => trivial
  | dice count sides ihcount ihsides =>
      rw [roll]
      refine RollM.allSides_bind ihsides fun s => RollM.allSides_bind ihcount fun n => ?_
      refine RollM.allSides_check fun hs => RollM.allSides_check fun _ => ?_
      exact RollM.allSides_lift (Draws.allSides_total (checkSides_eq_ok_iff.mp hs) _ _)
  | arith op lhs rhs ihlhs ihrhs =>
      rw [roll]
      refine RollM.allSides_bind ihlhs fun a => RollM.allSides_bind ihrhs fun b => ?_
      exact RollM.allSides_check fun _ => trivial
  | signed sign operand ih =>
      rw [roll]
      exact RollM.allSides_bind ih fun a => trivial

end DiceCalculator
