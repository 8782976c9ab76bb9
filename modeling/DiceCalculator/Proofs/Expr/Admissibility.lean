import DiceCalculator.Proofs.Expr.Sampling
import DiceCalculator.Proofs.Expr.SharedMemory
import DiceCalculator.Proofs.Expr.Watching

/-!
# Admissible steps

Evaluation takes each of its steps with arguments that the step is meant for. The checks of the
operands come first, and the bounds of the sums keep within the triangle, so nothing is divided by
zero and a failure is always one of the errors that name an operand.
-/
namespace DiceCalculator

open Binomials

variable {α S σ : Type} [Weight α] {q : α → Prop}

/-- The step is admissible, and if it finds a probability from a mass, then that one has the given
property. -/
def Step.Fits (q : α → Prop) : Step α → Prop
  | .normalization mass total => Weight.isZero total = false ∧ q (Weight.div mass total)
  | step => step.Admissible

private theorem Step.Fits.admissible {step : Step α} (h : step.Fits q) : step.Admissible := by
  cases step with
  | normalization mass total => exact h.1
  | _ => exact h

/-! ## Counting -/

omit [Weight α] in
private theorem run_walk_succ (n r : Nat) (steps : List (Step α)) (memory : Binomials) :
    (Watched.walk n (r + 1)).run (steps, memory) =
      match memory.kept[cantorNumber n (r + 1)]? with
      | some value => (value, (steps, { memory with hits := memory.hits + 1 }))
      | none =>
        let (before, (steps, memory)) := (Watched.walk (n - 1) r).run (steps, memory)
        let value := n * before / (r + 1)
        (value, (steps ++ [.diagonal (n * before) (r + 1)], memory.keep n (r + 1) value)) := by
  have hget : StateT.run (Watched.quiet get) (steps, memory) =
      (pure (memory, (steps, memory)) : Id _) := rfl
  rw [Watched.walk, StateT.run_bind, hget, pure_bind]
  cases memory.kept[cantorNumber n (r + 1)]? <;> rfl

private theorem watches_walk (n r : Nat) :
    Watches Sound (Step.Fits q) (Watched.walk n r) fun memory => memory.walk n r := by
  intro memory hsound
  refine ⟨(walk_spec hsound n r).2, fun steps => ?_⟩
  change ∃ more, (Watched.walk n r).run (steps, memory) =
    ((memory.walk n r).1, (steps ++ more, (memory.walk n r).2)) ∧ _
  induction r generalizing n with
  | zero => exact ⟨[], by rw [List.append_nil]; rfl, by simp⟩
  | succ r ih =>
      rw [run_walk_succ, walk]
      cases memory.kept[cantorNumber n (r + 1)]? with
      | some value => exact ⟨[], by rw [List.append_nil], by simp⟩
      | none =>
          obtain ⟨more, hrun, hfits⟩ := ih (n - 1)
          simp only [hrun]
          refine ⟨more ++ [.diagonal (n * (memory.walk (n - 1) r).1) (r + 1)], ?_, ?_⟩
          · rw [List.append_assoc]
          · rw [List.forall_mem_append, List.forall_mem_singleton]
            exact ⟨hfits, r.succ_ne_zero⟩

private theorem watches_choose {n r : Int} (hlow : 0 ≤ r) (hhigh : r ≤ n) :
    Watches Sound (Step.Fits q) (Watched.choose n r) (choose n r) := by
  have hplain : choose n r = fun memory => memory.walk n.toNat (nearerColumn n r).toNat := by
    funext memory
    exact if_neg (by omega)
  rw [Watched.choose, hplain]
  refine Watches.note (show 0 ≤ r ∧ r ≤ n from ⟨hlow, hhigh⟩) ?_
  rw [if_neg (by omega)]
  exact watches_walk _ _

namespace DiceSum

private theorem watches_terms {total n sides : Int} {indices : List Int} (hn : 1 ≤ n)
    (hsides : 1 ≤ sides) (hhigh : total ≤ n * sides)
    (h : ∀ i ∈ indices, 0 ≤ i ∧ i ≤ bound total n sides) :
    Watches Sound (Step.Fits q) (Watched.terms total n sides indices)
      (terms total n sides indices) := by
  refine watches_foldlM (fun sum i hi => ?_) 0
  obtain ⟨hi, hbound⟩ := h i hi
  rw [bound, Int.fdiv_eq_ediv_of_nonneg _ (by omega), Int.le_ediv_iff_mul_le (by omega)] at hbound
  have hlt : i < n := lt_of_mul_lt_mul_right (by omega) (show 0 ≤ sides by omega)
  refine Watches.bind ?_ fun _ _ => watches_pure _
  refine (watches_choose hi hlt.le).bind fun _ _ => ?_
  exact (watches_choose (by omega) (by omega)).bind fun _ _ => watches_pure _

private theorem watches_count {total n sides : Int} (hsides : 1 ≤ sides) (hlow : n ≤ total)
    (hhigh : total ≤ n * sides) (hn : 0 ≤ n) :
    Watches Sound (Step.Fits q) (Watched.count total n sides) (count total n sides) := by
  rw [Watched.count, count]
  by_cases hnone : n = 0 ∨ sides = 0
  · rw [if_pos hnone, if_pos hnone]
    exact watches_pure 1
  rw [if_neg hnone, if_neg hnone, if_neg (by omega), if_neg (by omega)]
  have hterms {indices : List Int} (h : ∀ i ∈ indices, 0 ≤ i ∧ i ≤ bound total n sides) :
      Watches Sound (Step.Fits q) (Watched.terms total n sides indices)
        (terms total n sides indices) :=
    watches_terms (by omega) hsides hhigh h
  refine Watches.note (show sides ≠ 0 by omega) ?_
  refine (hterms fun _ hi => mem_evens hi).bind fun _ _ => ?_
  exact (hterms fun _ hi => mem_odds hi).bind fun _ _ => watches_pure _

private theorem watches_probability {total n sides : Int} (hn : 0 ≤ n) (hsides : 1 ≤ sides)
    (htotal : total ∈ diceTotals n sides) :
    Watches Sound (Step.Fits q) (Watched.probability total n sides)
      (probability total n sides : ExceptT Fault (StateM Binomials) α).run := by
  have hrange := mem_diceTotals.mp htotal
  refine Watches.note (show 0 ≤ n ∧ 1 ≤ sides ∧ _ from ⟨hn, hsides, hrange⟩) ?_
  refine (watches_count hsides hrange.1 hrange.2 hn).bind fun memory hsound => ?_
  rw [((yields_count_of_mem hn hsides htotal) memory hsound).1]
  have hpow : 0 < sides ^ n.toNat := pow_pos (by omega) _
  have hways : (throws sides n.toNat total : Int) ≤ sides ^ n.toNat := throws_le (by omega) _ _
  exact Watches.note ⟨hn, hpow, Int.natCast_nonneg _, hways⟩ (watches_pure _)

end DiceSum

/-! ## Distributions -/

section Tables

variable {inv : S → Prop}

private theorem watches_ofTally {tally : Tally α}
    (hq : ∀ o ∈ (Distribution.ofTally tally).outcomes, q o.probability) :
    Watches inv (Step.Fits q) (Watched.ofTally tally) (pure (Distribution.ofTally tally)) := by
  rw [Watched.ofTally]
  rw [Distribution.ofTally] at hq ⊢
  cases hzero : Weight.isZero tally.total with
  | true => exact watches_pure _
  | false =>
      rw [hzero] at hq
      have houtcome (entry : Int × α) (hentry : entry ∈ tally.toList) :
          Watches inv (Step.Fits q)
            (Watched.note (.normalization entry.2 tally.total) >>= fun _ =>
              pure ⟨entry.1, Weight.div entry.2 tally.total⟩)
            (pure (⟨entry.1, Weight.div entry.2 tally.total⟩ : Outcome α)) := by
        have hshare := hq _ (List.mem_map_of_mem hentry)
        exact Watches.note ⟨hzero, hshare⟩ (watches_pure _)
      exact (watches_mapM houtcome).map Distribution.mk

private theorem guarded_apply {op : ArithOp} {rhs : Expr} {b : Int}
    (h : op.checkRight rhs b = .ok ()) (a : Int) :
    Guarded inv (Step.Fits q) (Watched.apply op a b) (pure (op.apply a b)) := by
  rw [Watched.apply, ArithOp.tryApply_eq_ok h]
  exact Guarded.note (ArithOp.checkRight_eq_ok_iff.mp h) (guarded_pure _)

private theorem guarded_product {op : ArithOp} {rhs : Expr} {d e : Distribution α}
    (he : ∀ b ∈ e.values, op.checkRight rhs b = .ok ())
    (hq : ∀ o ∈ (d.product op.apply e).outcomes, q o.probability) :
    Guarded inv (Step.Fits q) (Watched.product op d e) (pure (d.product op.apply e)) := by
  let enter (l r : Outcome α) (tally : Tally α) (value : Int) : Tally α :=
    tally.add value (Weight.mul l.probability r.probability)
  have hpair (l r : Outcome α) (hr : r ∈ e.outcomes) (tally : Tally α) :
      Guarded inv (Step.Fits q)
        (Watched.apply op l.value r.value >>= fun value => pure (enter l r tally value))
        (pure (op.apply l.value r.value) >>= fun value => pure (enter l r tally value)) := by
    refine Guarded.bind ?_ fun _ _ _ _ => guarded_pure _
    exact guarded_apply (he r.value (List.mem_map_of_mem hr)) l.value
  have hfold := guarded_foldlM (fun tally l (_ : l ∈ d.outcomes) =>
    guarded_foldlM (fun tally r hr => hpair l r hr tally) tally) Tally.empty
  simp only [pure_bind, List.foldlM_pure] at hfold
  rw [show d.product op.apply e = Distribution.ofTally _ from rfl] at hq ⊢
  refine Guarded.bind (g := fun tally => pure (Distribution.ofTally tally)) hfold
    fun _ _ tally htally => ?_
  cases htally
  exact (watches_ofTally hq).lift

end Tables

private theorem guarded_checkAll {d : Distribution α} {check : Int → Except EvalFailure Unit}
    (h : ∀ value failure, check value = .error failure → ∃ error, failure = .rejected error) :
    Guarded Sound (Step.Fits q) (Watched.check (d.checkAll check))
      (TableM.ofExcept (d.checkAll check)) := by
  refine guarded_check fun failure hfailure => ?_
  obtain ⟨value, _, hvalue⟩ := Distribution.checkAll_eq_error hfailure
  exact h value failure hvalue

theorem guarded_diceTable {counts sides : Distribution α} (hcounts : ∀ n ∈ counts.values, 0 ≤ n)
    (hsides : ∀ s ∈ sides.values, 1 ≤ s)
    (hq : ∀ o ∈ (Distribution.ofMasses (diceMasses counts sides)).outcomes, q o.probability) :
    Guarded Sound (Step.Fits q) (Watched.diceTable counts sides) (diceTable counts sides) := by
  have hshare (n : Outcome α) (hn : n ∈ counts.outcomes) (s : Outcome α) (hs : s ∈ sides.outcomes)
      (total : Int) (htotal : total ∈ diceTotals n.value s.value) :
      Guarded Sound (Step.Fits q)
        (ExceptT.mk (Except.mapError EvalFailure.fault <$>
          Watched.probability total n.value s.value))
        (TableM.ofFault (DiceSum.probability total n.value s.value) : TableM α) := by
    have hn' : 0 ≤ n.value := hcounts n.value (List.mem_map_of_mem hn)
    have hs' : 1 ≤ s.value := hsides s.value (List.mem_map_of_mem hs)
    refine ⟨(DiceSum.watches_probability hn' hs' htotal).map _, ?_⟩
    intro memory hsound failure hfailure
    have hyields := (yields_probability (α := α) hn' hs' htotal).map
      (Except.mapError EvalFailure.fault)
    cases (hyields memory hsound).1.symm.trans hfailure
  have hyields := yields_diceTable hcounts hsides
  rw [diceTable, ← bind_pure_comp] at hyields ⊢
  refine Guarded.bind ?_ fun memory hsound tally htally => (watches_ofTally ?_).lift
  · refine guarded_foldlM (fun tally n hn => guarded_foldlM (fun tally s hs => ?_) tally)
      Tally.empty
    refine guarded_foldlM (fun tally total htotal => ?_) tally
    exact (hshare n hn s hs total htotal).bind fun _ _ _ _ => guarded_pure _
  · have hfound := (hyields memory hsound).1
    rw [run_bind_ok htally] at hfound
    rw [show Distribution.ofTally tally = _ from Except.ok.inj hfound]
    exact hq

/-- The table of an expression is found by steps that are all admissible, provided that each
probability in the law of an expression has the property. -/
theorem Expr.guarded_table
    (hq : ∀ (e : Expr) (d : Distribution α), e.law = .ok d → ∀ o ∈ d.outcomes, q o.probability)
    (e : Expr) :
    Guarded Sound (Step.Fits q) e.watchedTable (e.table : TableM (Distribution α)) := by
  have hlaw {e : Expr} {d : Distribution α} {memory : Binomials} (hsound : memory.Sound)
      (h : ((e.table : TableM (Distribution α)).run.run memory).1 = .ok d) : e.law = .ok d :=
    (e.yields_table memory hsound).1.symm.trans h
  induction e with
  | literal value => exact guarded_pure _
  | dice count sides ihcount ihsides =>
      rw [watchedTable, table]
      refine ihsides.bind fun memory hmemory s hs => ihcount.bind fun memory' hmemory' n hn => ?_
      refine Guarded.bind (guarded_checkAll fun _ _ => EvalError.unless_eq_error)
        fun _ _ _ hsides => ?_
      refine Guarded.bind (guarded_checkAll fun _ _ => EvalError.unless_eq_error)
        fun _ _ _ hcount => ?_
      change s.checkAll sides.checkSides = .ok () at hsides
      change n.checkAll count.checkCount = .ok () at hcount
      have hfound : (Expr.dice count sides).law = .ok (.ofMasses (diceMasses n s)) := by
        simp only [law, hlaw hmemory hs, hlaw hmemory' hn, hsides, hcount, bind, Except.bind]
      rw [Distribution.checkAll_eq_ok_iff] at hsides hcount
      exact guarded_diceTable (fun v hv => checkCount_eq_ok_iff.mp (hcount v hv))
        (fun v hv => checkSides_eq_ok_iff.mp (hsides v hv)) (hq _ _ hfound)
  | arith op lhs rhs ihlhs ihrhs =>
      rw [watchedTable, table]
      refine ihlhs.bind fun memory hmemory l hl => ihrhs.bind fun memory' hmemory' r hr => ?_
      refine Guarded.bind (guarded_checkAll fun _ _ => ArithOp.checkRight_eq_error)
        fun _ _ _ hcheck => ?_
      change r.checkAll (op.checkRight rhs) = .ok () at hcheck
      have hfound : (Expr.arith op lhs rhs).law = .ok (l.product op.apply r) := by
        simp only [law, hlaw hmemory hl, hlaw hmemory' hr, hcheck, bind, Except.bind,
          Distribution.product_eq_ofMasses]
      rw [Distribution.checkAll_eq_ok_iff] at hcheck
      rw [Distribution.product?_eq_ok (g := op.apply) fun a b hb => by
        rw [ArithOp.tryApply_eq_ok (hcheck b hb)]; rfl, ← Distribution.product_eq_ofMasses]
      exact guarded_product hcheck (hq _ _ hfound)
  | signed sign operand ih =>
      rw [watchedTable, table]
      refine ih.bind fun memory hmemory d hd => ?_
      have hfound : (Expr.signed sign operand).law = .ok (d.map sign.apply) := by
        simp only [law, hlaw hmemory hd, bind, Except.bind]
      exact (watches_ofTally (hq _ _ hfound)).lift

/-! ## Rolls -/

section Rolls

variable {β γ : Type} (draw : σ → Int → Int × σ)

/-- A computation that asks for dice, with whatever answers the requests, on the state that a run
leaves behind. -/
def Draws.stateful (t : Draws β) : StateM (σ × Ledger) β := fun (source, ledger) =>
  let run := Draws.run draw t source ledger
  (run.result, (run.source, run.ledger))

def RollM.stateful (x : RollM β) : ExceptT EvalFailure (StateM (σ × Ledger)) β :=
  ExceptT.mk (x.run.stateful draw)

private theorem Draws.stateful_andThen (t : Draws β) (f : β → Draws γ) :
    (t.andThen f).stateful draw = t.stateful draw >>= fun b => (f b).stateful draw := by
  funext ⟨source, ledger⟩
  induction t generalizing source ledger with
  | done b => rfl
  | die sides next ih => exact ih _ _ _

private theorem RollM.stateful_bind (x : RollM β) (g : β → RollM γ) :
    (x >>= g).stateful draw = x.stateful draw >>= fun b => (g b).stateful draw := by
  refine ExceptT.ext ?_
  rw [stateful, run_bind, ExceptT.run_mk, Draws.stateful_andThen, ExceptT.run_bind]
  refine congrArg (x.run.stateful draw >>= ·) (funext fun outcome => ?_)
  cases outcome <;> rfl

private theorem RollM.stateful_lift (t : Draws β) :
    RollM.stateful draw (ExceptT.lift t) = ExceptT.lift (t.stateful draw) :=
  Draws.stateful_andThen draw t _

private theorem watches_total {sides : Int} (h : 1 ≤ sides) (count : Nat) (sum : Int) :
    Watches (fun _ => True) (Step.Fits q) (Watched.total draw sides count sum)
      ((Draws.total sides count sum).stateful draw) := by
  induction count generalizing sum with
  | zero => exact watches_pure sum
  | succ count ih =>
      let face : StateM (σ × Ledger) Int := (Draws.die sides .done).stateful draw
      change Watches _ _ (Watched.die draw sides >>= _)
        (face >>= fun face => (Draws.total sides count (sum + face)).stateful draw)
      refine Watches.bind ?_ fun _ _ => ih _
      exact Watches.note h (watches_quiet fun _ _ => trivial)

/-- A roll takes only admissible steps, whatever answers its requests. -/
theorem Expr.guarded_roll (e : Expr) :
    Guarded (fun _ => True) (Step.Fits q) (e.watchedRoll draw) (e.roll.stateful draw) := by
  induction e with
  | literal value => exact guarded_pure value
  | dice count sides ihcount ihsides =>
      rw [watchedRoll, roll]
      simp only [RollM.stateful_bind]
      refine ihsides.bind fun _ _ s _ => ihcount.bind fun _ _ n _ => ?_
      refine Guarded.bind (guarded_check fun _ => EvalError.unless_eq_error) fun _ _ _ hs => ?_
      refine Guarded.bind (guarded_check fun _ => EvalError.unless_eq_error) fun _ _ _ _ => ?_
      rw [RollM.stateful_lift]
      exact (watches_total draw (checkSides_eq_ok_iff.mp hs) _ _).lift
  | arith op lhs rhs ihlhs ihrhs =>
      rw [watchedRoll, roll]
      simp only [RollM.stateful_bind]
      refine ihlhs.bind fun _ _ a _ => ihrhs.bind fun _ _ b _ => ?_
      refine Guarded.bind (guarded_check fun _ => ArithOp.checkRight_eq_error) fun _ _ _ hb => ?_
      change op.checkRight rhs b = .ok () at hb
      rw [ArithOp.tryApply_eq_ok hb]
      exact guarded_apply hb a
  | signed sign operand ih =>
      rw [watchedRoll, roll, RollM.stateful_bind]
      exact ih.bind fun _ _ a _ => guarded_pure _

end Rolls

/-! ## Any expression -/

/-- Evaluation of any expression takes only admissible steps and fails only with errors that name
an operand: a roll, whatever answers its requests for dice, and the analysis, whatever its memory
has been asked before. With exact weights, each probability that is found by a division lies between
zero and one. -/
theorem Expr.steps_admissible (e : Expr) :
    (∀ (α σ : Type) [Weight α] (draw : σ → Int → Int × σ) (source : σ) (ledger : Ledger),
      let rolled := Draws.run draw e.roll.run source ledger
      ∃ steps : List (Step α),
        (e.watchedRoll draw).run.run ([], (source, ledger)) =
          (rolled.result, (steps, (rolled.source, rolled.ledger))) ∧
        (∀ step ∈ steps, step.Admissible) ∧
        ∀ failure, rolled.result = .error failure → ∃ error, failure = .rejected error) ∧
    (∀ (α : Type) [Weight α] (questions : List Question),
      let found := e.distributionWith (Question.memoryAfter α questions)
      ∃ steps : List (Step α),
        e.watchedTable.run.run ([], Question.memoryAfter α questions) =
          (found.1, (steps, found.2)) ∧
        (∀ step ∈ steps, step.Admissible) ∧
        ∀ failure, found.1 = .error failure → ∃ error, failure = .rejected error) ∧
    ∀ (questions : List Question) (mass total : Rat),
      .normalization mass total ∈
        (e.watchedTable.run.run ([], Question.memoryAfter Rat questions)).2.1 →
      0 ≤ mass / total ∧ mass / total ≤ 1 := by
  refine ⟨?_, ?_, ?_⟩
  · intro α σ _ draw source ledger rolled
    have hguarded := e.guarded_roll (α := α) (q := fun _ => True) draw
    obtain ⟨steps, hrun, hfits⟩ := (hguarded.watches (source, ledger) trivial).2 []
    refine ⟨steps, hrun, fun step hstep => (hfits step hstep).admissible, ?_⟩
    exact hguarded.rejects (source, ledger) trivial
  · intro α _ questions found
    have hsound := Question.sound_memoryAfter α questions
    have hguarded := Expr.guarded_table (α := α) (q := fun _ => True)
      (fun _ _ _ _ _ => trivial) e
    obtain ⟨steps, hrun, hfits⟩ := (hguarded.watches _ hsound).2 []
    refine ⟨steps, hrun, fun step hstep => (hfits step hstep).admissible, ?_⟩
    exact hguarded.rejects _ hsound
  · intro questions mass total hmem
    have hsound := Question.sound_memoryAfter Rat questions
    have hguarded := Expr.guarded_table (q := fun p : Rat => 0 ≤ p ∧ p ≤ 1) (fun e d hlaw o ho =>
      ⟨((isProper_of_law hlaw).positive o ho).le, (isProper_of_law hlaw).probability_le_one ho⟩) e
    obtain ⟨steps, hrun, hfits⟩ := (hguarded.watches _ hsound).2 []
    rw [hrun] at hmem
    exact (hfits _ hmem).2

theorem steps_admissible_of_random_divisor :
    let e : Expr := .arith .quotient (.literal 7) (.dice (.literal 1) (.literal 2))
    let questions : List Question := [.coefficient 5 2]
    let noted : List (Step Rat) :=
      (e.watchedTable.run.run ([], Question.memoryAfter Rat questions)).2.1
    let one : List (Step Rat) := [.probability 1 1 2, .bound 0 2, .coefficient 1 0,
      .coefficient 0 0, .share 1 1 2]
    let two : List (Step Rat) := [.probability 2 1 2, .bound 1 2, .coefficient 1 0,
      .coefficient 1 0, .share 1 1 2]
    let shares : List (Step Rat) := [.normalization (1 / 2) 1, .normalization (1 / 2) 1]
    noted = one ++ two ++ shares ++ [.operation .quotient 7 1, .operation .quotient 7 2] ++ shares ∧
      (∀ step ∈ noted, step.Admissible) ∧ 0 ≤ (1 / 2 : Rat) / 1 ∧ (1 / 2 : Rat) / 1 ≤ 1 := by
  intro e questions noted one two shares
  have hnoted : noted =
      one ++ two ++ shares ++ [.operation .quotient 7 1, .operation .quotient 7 2] ++ shares := by
    decide +kernel
  obtain ⟨_, htable, hunit⟩ := Expr.steps_admissible e
  obtain ⟨steps, hrun, hadmissible, _⟩ := htable Rat questions
  refine ⟨hnoted, ?_, hunit questions (1 / 2) 1 ?_⟩
  · rw [show noted = steps from congrArg (·.2.1) hrun]
    exact hadmissible
  · change _ ∈ noted
    rw [hnoted]
    decide +kernel

end DiceCalculator
