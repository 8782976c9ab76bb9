import DiceCalculator.Expr.Roll
import DiceCalculator.Proofs.Expr.Law
import DiceCalculator.Proofs.Expr.Requests

/-!
# Sampling agrees with analysis

The distribution of an expression lists exactly the values that rolling it can give, each with the
probability of that value when the dice are fair and independent. If there is no distribution, the
error that says why is one that some roll fails with; no roll of an expression with a distribution
fails.
-/
namespace DiceCalculator

namespace RollM

variable {β γ : Type}

/-- Some die rolls within range lead to this outcome. -/
def Reaches (x : RollM β) (outcome : Except EvalFailure β) : Prop :=
  ∃ rolls, x.run.Shows rolls outcome

/-- The mean of a quantity of the value; a failure has no value and adds nothing. -/
def expect (x : RollM β) (f : β → Rat) : Rat :=
  x.run.expect fun outcome =>
    match outcome with
    | .ok b => f b
    | .error _ => 0

theorem Reaches.bind {x : RollM β} {g : β → RollM γ} {b : β} {outcome : Except EvalFailure γ}
    (hx : x.Reaches (.ok b)) (hg : (g b).Reaches outcome) : (x >>= g).Reaches outcome := by
  obtain ⟨first, hfirst⟩ := hx
  obtain ⟨second, hsecond⟩ := hg
  refine ⟨first ++ second, ?_⟩
  rw [run_bind]
  exact (Draws.shows_andThen_iff _ _ _ _).mpr ⟨.ok b, first, second, rfl, hfirst, hsecond⟩

private theorem Reaches.bind_error {x : RollM β} {failure : EvalFailure}
    (hx : x.Reaches (.error failure)) (g : β → RollM γ) : (x >>= g).Reaches (.error failure) := by
  obtain ⟨rolls, hshows⟩ := hx
  refine ⟨rolls, ?_⟩
  rw [run_bind]
  exact (Draws.shows_andThen_iff _ _ _ _).mpr
    ⟨.error failure, rolls, [], (List.append_nil rolls).symm, hshows, .done _⟩

private theorem reaches_ofExcept (check : Except EvalFailure β) : (ofExcept check).Reaches check :=
  ⟨[], .done check⟩

theorem expect_bind (x : RollM β) (g : β → RollM γ) (f : γ → Rat) :
    (x >>= g).expect f = x.expect fun b => (g b).expect f := by
  rw [expect, run_bind, Draws.expect_andThen, expect]
  congr 1
  funext outcome
  cases outcome <;> rfl

private theorem expect_ofExcept_ok {check : Except EvalFailure β} {b : β} (h : check = .ok b)
    (f : β → Rat) : (ofExcept check).expect f = f b := by
  subst h
  rfl

private theorem expect_lift (t : Draws β) (f : β → Rat) :
    RollM.expect (ExceptT.lift t) f = t.expect f := by
  change (t.andThen fun b => .done (Except.ok b)).expect _ = _
  rw [Draws.expect_andThen]
  rfl

end RollM

namespace Distribution

/-- A proper distribution whose expectations are the means of a computation. -/
structure IsLawOf (d : Distribution Rat) (x : RollM Int) : Prop where
  proper : d.IsProper
  expect_eq : ∀ f, d.expect f = x.expect f

variable {d : Distribution Rat} {x : RollM Int}

theorem IsLawOf.probabilityOf_eq (h : d.IsLawOf x) (value : Int) :
    d.probabilityOf value = x.run.chance (· = .ok value) := by
  rw [h.proper.probabilityOf_eq, h.expect_eq, RollM.expect, Draws.chance]
  congr 1
  funext outcome
  cases outcome <;> simp

theorem IsLawOf.mem_values_iff (h : d.IsLawOf x) (value : Int) :
    value ∈ d.values ↔ x.Reaches (.ok value) := by
  rw [h.proper.mem_values_iff, h.probabilityOf_eq, Draws.chance_pos_iff]
  simp [RollM.Reaches]

private theorem IsLawOf.not_reaches_error (h : d.IsLawOf x) (failure : EvalFailure) :
    ¬ x.Reaches (.error failure) := by
  rintro ⟨rolls, hshows⟩
  have hone : x.run.chance (fun outcome => outcome.toBool = true) = 1 := by
    rw [← h.proper.mass, h.expect_eq, RollM.expect, Draws.chance]
    congr 1
    funext outcome
    cases outcome <;> rfl
  exact Bool.false_ne_true (Draws.Shows.of_chance_eq_one hone hshows)

private theorem IsLawOf.exists_reaches (h : d.IsLawOf x) : ∃ value, x.Reaches (.ok value) := by
  obtain ⟨o, ho⟩ : ∃ o, o ∈ d.outcomes := by
    refine List.exists_mem_of_ne_nil _ fun hnil => ?_
    have hmass := h.proper.mass
    rw [expect, hnil] at hmass
    exact zero_ne_one hmass
  exact ⟨o.value, (h.mem_values_iff o.value).mp (List.mem_map_of_mem ho)⟩

end Distribution

private theorem sum_diceTotals (n sides : Int) (h : Int → Rat) :
    ((diceTotals n sides).map h).sum = ∑ total ∈ Finset.Icc n (n * sides), h total := by
  have hnodup : (diceTotals n sides).Nodup :=
    List.nodup_range.map fun i j hij => by omega
  rw [← List.sum_toFinset h hnodup]
  congr 1
  ext total
  rw [List.mem_toFinset, mem_diceTotals, Finset.mem_Icc]

section Dice

variable {counts sides : Distribution Rat}

/-- The masses of random dice weigh a function like its mean over all throws. -/
private theorem sum_diceMasses (sides : Distribution Rat) (hcounts : ∀ n ∈ counts.values, 0 ≤ n)
    (f : Int → Rat) :
    ((diceMasses counts sides).map fun entry => entry.2 * f entry.1).sum =
      sides.expect fun s => counts.expect fun n => (Draws.total s n.toNat 0).expect f := by
  have hthrow (n : Outcome Rat) (hn : n ∈ counts.outcomes) (s : Outcome Rat) :
      (((diceTotals n.value s.value).map fun total =>
          (total, Weight.mul (Weight.mul n.probability s.probability) (Weight.ratio
            (DiceSum.throws s.value n.value.toNat total) (s.value ^ n.value.toNat)))).map
        fun entry => entry.2 * f entry.1).sum =
      n.probability * (s.probability * (Draws.total s.value n.value.toNat 0).expect f) := by
    have hnonneg := hcounts n.value (List.mem_map_of_mem hn)
    rw [List.map_map, sum_diceTotals, DiceSum.expect_total, Int.toNat_of_nonneg hnonneg,
      Finset.mul_sum, Finset.mul_sum]
    refine Finset.sum_congr rfl fun total _ => ?_
    simp only [Function.comp_apply, Weight.mul_rat, Weight.ratio_rat, zero_add]
    push_cast
    ring
  rw [Distribution.expect_comm, diceMasses, Distribution.sum_map_flatMap, Distribution.expect]
  congr 1
  refine List.map_congr_left fun n hn => ?_
  rw [Distribution.sum_map_flatMap, Distribution.expect, ← List.sum_map_mul_left]
  congr 1
  exact List.map_congr_left fun s _ => hthrow n hn s

theorem isProper_diceMasses (hproper : counts.IsProper) (hproper' : sides.IsProper)
    (hcounts : ∀ n ∈ counts.values, 0 ≤ n) (hsides : ∀ s ∈ sides.values, 1 ≤ s) :
    (Distribution.ofMasses (diceMasses counts sides)).IsProper ∧
      ∀ f, (Distribution.ofMasses (diceMasses counts sides)).expect f =
        sides.expect fun s => counts.expect fun n => (Draws.total s n.toNat 0).expect f := by
  have hmass : ((diceMasses counts sides).map Prod.snd).sum = 1 := by
    have hone := sum_diceMasses sides hcounts fun _ => 1
    simp only [mul_one] at hone
    have hcongr : (sides.expect fun s => counts.expect fun n =>
        (Draws.total s n.toNat 0).expect fun _ => 1) = sides.expect fun _ => 1 :=
      Distribution.expect_congr fun s hs => Eq.trans
        (Distribution.expect_congr fun n _ => DiceSum.expect_total_one (hsides s hs) _ _)
        hproper.mass
    exact hone.trans (hcongr.trans hproper'.mass)
  refine ⟨Distribution.isProper_ofMasses ?_ hmass, fun f => ?_⟩
  · intro entry hentry
    obtain ⟨n, hn, hentry⟩ := List.mem_flatMap.mp hentry
    obtain ⟨s, hs, hentry⟩ := List.mem_flatMap.mp hentry
    obtain ⟨total, htotal, rfl⟩ := List.mem_map.mp hentry
    have hn' := hcounts n.value (List.mem_map_of_mem hn)
    have hs' := hsides s.value (List.mem_map_of_mem hs)
    rw [mem_diceTotals] at htotal
    have hthrows : 0 < DiceSum.throws s.value n.value.toNat total :=
      DiceSum.throws_pos hs' (by omega) (by rw [Int.toNat_of_nonneg hn']; omega)
    have hpow : (0 : Int) < s.value ^ n.value.toNat := pow_pos (by omega) _
    simp only [Weight.mul_rat, Weight.ratio_rat]
    refine mul_pos (mul_pos (hproper.positive n hn) (hproper'.positive s hs)) (div_pos ?_ ?_)
    · exact_mod_cast hthrows
    · exact_mod_cast hpow
  · rw [Distribution.expect_ofMasses_of_sum_eq_one hmass, sum_diceMasses sides hcounts]

end Dice

/-- What an analysis reports agrees with a computation: either its distribution is the law of the
computation, or the computation can fail with the very error. -/
def Accounts (report : Except EvalFailure (Distribution Rat)) (x : RollM Int) : Prop :=
  match report with
  | .ok d => d.IsLawOf x
  | .error failure => (∃ error, failure = .rejected error) ∧ x.Reaches (.error failure)

private theorem accounts_literal (value : Int) :
    Accounts (Expr.law (.literal value)) (Expr.literal value).roll :=
  ⟨Distribution.isProper_constant value, fun f => Distribution.expect_constant value f⟩

private theorem accounts_signed (sign : Sign) {operand : Expr}
    (ih : Accounts operand.law operand.roll) :
    Accounts (Expr.law (.signed sign operand)) (Expr.signed sign operand).roll := by
  rw [Expr.law, Expr.roll]
  cases hlaw : (operand.law : Except EvalFailure (Distribution Rat)) with
  | error failure =>
      rw [hlaw] at ih
      exact ⟨ih.1, ih.2.bind_error _⟩
  | ok d =>
      rw [hlaw] at ih
      have hmass := (Distribution.sum_map_masses sign.apply d).trans ih.proper.mass
      have hlawof : (d.map sign.apply).IsLawOf (operand.roll >>= fun a => pure (sign.apply a)) := by
        refine ⟨?_, fun f => ?_⟩
        · rw [Distribution.map_eq_ofMasses]
          refine Distribution.isProper_ofMasses ?_ hmass
          intro entry hentry
          obtain ⟨o, ho, rfl⟩ := List.mem_map.mp hentry
          exact ih.proper.positive o ho
        · rw [Distribution.expect_map sign.apply ih.proper.mass, RollM.expect_bind]
          exact ih.expect_eq fun a => f (sign.apply a)
      exact hlawof

/-- The operands are analysed and rolled one after the other, and the first failure counts. -/
private theorem Accounts.both {first second : Except EvalFailure (Distribution Rat)}
    {x y : RollM Int}
    {k : Distribution Rat → Distribution Rat → Except EvalFailure (Distribution Rat)}
    {g : Int → Int → RollM Int} (hx : Accounts first x) (hy : Accounts second y)
    (hk : ∀ d e : Distribution Rat, d.IsLawOf x → e.IsLawOf y →
      Accounts (k d e) (x >>= fun a => y >>= fun b => g a b)) :
    Accounts (first >>= fun d => second >>= fun e => k d e)
      (x >>= fun a => y >>= fun b => g a b) := by
  cases first with
  | error failure => exact ⟨hx.1, hx.2.bind_error _⟩
  | ok d =>
      obtain ⟨a, ha⟩ := hx.exists_reaches
      cases second with
      | error failure => exact ⟨hy.1, ha.bind (hy.2.bind_error _)⟩
      | ok e => exact hk d e hx hy

private theorem accounts_arith (op : ArithOp) {lhs rhs : Expr}
    (ihlhs : Accounts lhs.law lhs.roll) (ihrhs : Accounts rhs.law rhs.roll) :
    Accounts (Expr.law (.arith op lhs rhs)) (Expr.arith op lhs rhs).roll := by
  rw [Expr.law, Expr.roll]
  refine ihlhs.both ihrhs fun l r hl hr => ?_
  cases hcheck : r.checkAll (op.checkRight rhs) with
  | error failure =>
      obtain ⟨a, ha⟩ := hl.exists_reaches
      obtain ⟨b, hb, hfail⟩ := Distribution.checkAll_eq_error hcheck
      refine ⟨ArithOp.checkRight_eq_error hfail,
        ha.bind (((hr.mem_values_iff b).mp hb).bind (RollM.Reaches.bind_error ?_ _))⟩
      rw [← hfail]
      exact RollM.reaches_ofExcept _
  | ok =>
      rw [Distribution.checkAll_eq_ok_iff] at hcheck
      have hmass := Distribution.sum_pairMasses_eq_one op.apply hl.proper.mass hr.proper.mass
      refine ⟨Distribution.isProper_ofMasses ?_ hmass, fun f => ?_⟩
      · intro entry hentry
        obtain ⟨o, ho, hentry⟩ := List.mem_flatMap.mp hentry
        obtain ⟨p, hp, rfl⟩ := List.mem_map.mp hentry
        exact mul_pos (hl.proper.positive o ho) (hr.proper.positive p hp)
      · rw [Distribution.expect_pairMasses op.apply hl.proper.mass hr.proper.mass,
          RollM.expect_bind, hl.expect_eq]
        congr 1
        funext a
        rw [RollM.expect_bind, ← hr.expect_eq]
        refine Distribution.expect_congr fun b hb => ?_
        rw [RollM.expect_bind, RollM.expect_ofExcept_ok (hcheck b hb), RollM.expect_ofExcept_ok]
        rw [ArithOp.tryApply_eq_ok (hcheck b hb)]
        rfl

private theorem accounts_dice {count sides : Expr} (ihcount : Accounts count.law count.roll)
    (ihsides : Accounts sides.law sides.roll) :
    Accounts (Expr.law (.dice count sides)) (Expr.dice count sides).roll := by
  rw [Expr.law, Expr.roll]
  refine ihsides.both ihcount fun s n hs hn => ?_
  cases hsides : s.checkAll sides.checkSides with
  | error failure =>
      obtain ⟨v, hv, hfail⟩ := Distribution.checkAll_eq_error hsides
      obtain ⟨w, hw⟩ := hn.exists_reaches
      refine ⟨EvalError.unless_eq_error hfail,
        ((hs.mem_values_iff v).mp hv).bind (hw.bind (RollM.Reaches.bind_error ?_ _))⟩
      rw [← hfail]
      exact RollM.reaches_ofExcept _
  | ok =>
      rw [Distribution.checkAll_eq_ok_iff] at hsides
      cases hcount : n.checkAll count.checkCount with
      | error failure =>
          obtain ⟨v, hv⟩ := hs.exists_reaches
          obtain ⟨w, hw, hfail⟩ := Distribution.checkAll_eq_error hcount
          have hpass : (RollM.ofExcept (sides.checkSides v)).Reaches (.ok ()) := by
            rw [← hsides v ((hs.mem_values_iff v).mpr hv)]
            exact RollM.reaches_ofExcept _
          refine ⟨EvalError.unless_eq_error hfail, hv.bind (((hn.mem_values_iff w).mp hw).bind
            (hpass.bind (RollM.Reaches.bind_error ?_ _)))⟩
          rw [← hfail]
          exact RollM.reaches_ofExcept _
      | ok =>
          rw [Distribution.checkAll_eq_ok_iff] at hcount
          obtain ⟨hproper, hexpect⟩ := isProper_diceMasses hn.proper hs.proper
            (fun w hw => Expr.checkCount_eq_ok_iff.mp (hcount w hw))
            (fun v hv => Expr.checkSides_eq_ok_iff.mp (hsides v hv))
          refine ⟨hproper, fun f => (hexpect f).trans ?_⟩
          rw [RollM.expect_bind, ← hs.expect_eq]
          refine Distribution.expect_congr fun v hv => ?_
          rw [RollM.expect_bind, ← hn.expect_eq]
          refine Distribution.expect_congr fun w hw => ?_
          rw [RollM.expect_bind, RollM.expect_ofExcept_ok (hsides v hv), RollM.expect_bind,
            RollM.expect_ofExcept_ok (hcount w hw), RollM.expect_lift]

/-- The analysis of every expression agrees with rolling it. -/
theorem Expr.accounts (e : Expr) : Accounts e.distribution e.roll := by
  rw [distribution_eq_law]
  induction e with
  | literal value => exact accounts_literal value
  | dice count sides ihcount ihsides => exact accounts_dice ihcount ihsides
  | arith op lhs rhs ihlhs ihrhs => exact accounts_arith op ihlhs ihrhs
  | signed sign operand ih => exact accounts_signed sign ih

theorem Expr.isProper_of_law {e : Expr} {d : Distribution Rat} (h : e.law = .ok d) :
    d.IsProper := by
  have haccounts := e.accounts
  rw [distribution_eq_law, h] at haccounts
  exact haccounts.proper

/-- If an expression has a distribution, then each value has in it the probability with which a roll
gives that value. It lists the values that some roll gives, and no others, and the probabilities
add up to one. -/
theorem Expr.distribution_eq_sampling_law {e : Expr} {d : Distribution Rat}
    (h : e.distribution = .ok d) :
    (∀ value, d.probabilityOf value = e.roll.run.chance (· = .ok value)) ∧
      (∀ value, value ∈ d.values ↔ ∃ rolls, e.roll.run.Shows rolls (.ok value)) ∧
      (d.outcomes.map (·.probability)).sum = 1 := by
  have hlaw : d.IsLawOf e.roll := by
    have haccounts := e.accounts
    rwa [h] at haccounts
  refine ⟨hlaw.probabilityOf_eq, hlaw.mem_values_iff, ?_⟩
  have hmass := hlaw.proper.mass
  simp only [Distribution.expect, mul_one] at hmass
  exact hmass

theorem distribution_eq_sampling_law_of_random_count :
    let e : Expr := .dice (.dice (.literal 1) (.literal 2)) (.literal 2)
    let d : Distribution Rat := ⟨[⟨1, 1 / 4⟩, ⟨2, 3 / 8⟩, ⟨3, 1 / 4⟩, ⟨4, 1 / 8⟩]⟩
    e.distribution = .ok d ∧
      (∀ value, d.probabilityOf value = e.roll.run.chance (· = .ok value)) ∧
      (∀ value, value ∈ d.values ↔ ∃ rolls, e.roll.run.Shows rolls (.ok value)) ∧
      (d.outcomes.map (·.probability)).sum = 1 :=
  ⟨by decide +kernel, Expr.distribution_eq_sampling_law (by decide +kernel)⟩

/-- An expression has no distribution if and only if some roll of it fails, and the error of the
analysis is then one that a roll fails with. -/
theorem Expr.rejected_iff_roll_fails (e : Expr) :
    ((∃ error,
        (e.distribution : Except EvalFailure (Distribution Rat)) = .error (.rejected error)) ↔
      ∃ rolls error, e.roll.run.Shows rolls (.error (.rejected error))) ∧
    ∀ error, (e.distribution : Except EvalFailure (Distribution Rat)) = .error (.rejected error) →
      ∃ rolls, e.roll.run.Shows rolls (.error (.rejected error)) := by
  have haccounts := e.accounts
  cases hdist : (e.distribution : Except EvalFailure (Distribution Rat)) with
  | ok d =>
      rw [hdist] at haccounts
      refine ⟨⟨?_, ?_⟩, ?_⟩
      · rintro ⟨error, herror⟩
        cases herror
      · rintro ⟨rolls, error, hshows⟩
        exact absurd ⟨rolls, hshows⟩ (haccounts.not_reaches_error (.rejected error))
      · intro error herror
        cases herror
  | error failure =>
      rw [hdist] at haccounts
      obtain ⟨⟨error, rfl⟩, rolls, hshows⟩ := haccounts
      refine ⟨⟨fun _ => ⟨rolls, error, hshows⟩, fun _ => ⟨error, rfl⟩⟩, ?_⟩
      intro error' herror
      cases herror
      exact ⟨rolls, hshows⟩

theorem roll_fails_of_random_divisor :
    let divisor : Expr := .arith .difference (.dice (.literal 1) (.literal 2)) (.literal 1)
    let e : Expr := .arith .quotient (.literal 7) divisor
    let error : EvalError := ⟨.divisionByZero, divisor, 0⟩
    (e.distribution : Except EvalFailure (Distribution Rat)) = .error (.rejected error) ∧
      ∃ rolls, e.roll.run.Shows rolls (.error (.rejected error)) :=
  ⟨by decide +kernel, (Expr.rejected_iff_roll_fails _).2 _ (by decide +kernel)⟩

end DiceCalculator
