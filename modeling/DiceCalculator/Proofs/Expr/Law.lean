import DiceCalculator.Expr.Table
import DiceCalculator.Proofs.Combinatorics.DiceSum
import DiceCalculator.Proofs.Distribution.Expectation
import DiceCalculator.Proofs.Expr.Checks

/-!
# Laws of expressions

The law of an expression is its distribution as it would be found without a memory and without a
second check of what has been checked before. The table of an expression yields its law from every
sound memory, so what has been remembered never shows, and arithmetic has no faults.
-/
namespace DiceCalculator

open Binomials

namespace Distribution

variable {α : Type}

private theorem forM_cons {β : Type} (f : β → Except EvalFailure Unit) (b : β) (items : List β) :
    (b :: items).forM f = (do f b; items.forM f) := rfl

private theorem forM_eq_ok_iff {β : Type} {f : β → Except EvalFailure Unit} {items : List β} :
    items.forM f = .ok () ↔ ∀ b ∈ items, f b = .ok () := by
  induction items with
  | nil => simp [pure, Except.pure]
  | cons b items ih =>
      rw [forM_cons, List.forall_mem_cons, ← ih]
      cases f b <;> simp [bind, Except.bind]

private theorem forM_eq_error {β : Type} {f : β → Except EvalFailure Unit} {items : List β}
    {failure : EvalFailure} (h : items.forM f = .error failure) :
    ∃ b ∈ items, f b = .error failure := by
  induction items with
  | nil => simp [pure, Except.pure] at h
  | cons b items ih =>
      rw [forM_cons] at h
      cases hb : f b with
      | error failure' =>
          rw [hb] at h
          exact ⟨b, List.mem_cons_self, hb.trans h⟩
      | ok =>
          rw [hb] at h
          obtain ⟨c, hc, hfail⟩ := ih h
          exact ⟨c, List.mem_cons_of_mem b hc, hfail⟩

theorem checkAll_eq_ok_iff {d : Distribution α} {check : Int → Except EvalFailure Unit} :
    d.checkAll check = .ok () ↔ ∀ value ∈ d.values, check value = .ok () := by
  rw [checkAll, forM_eq_ok_iff, values, List.forall_mem_map]

theorem checkAll_eq_error {d : Distribution α} {check : Int → Except EvalFailure Unit}
    {failure : EvalFailure} (h : d.checkAll check = .error failure) :
    ∃ value ∈ d.values, check value = .error failure := by
  obtain ⟨o, ho, hfail⟩ := forM_eq_error h
  exact ⟨o.value, List.mem_map_of_mem ho, hfail⟩

end Distribution

section Law

variable {α : Type} [Weight α]

/-- The masses of the total of some dice, where both their number and their number of sides are
random. -/
def diceMasses (counts sides : Distribution α) : List (Int × α) :=
  counts.outcomes.flatMap fun n =>
    sides.outcomes.flatMap fun s =>
      (diceTotals n.value s.value).map fun total =>
        (total, Weight.mul (Weight.mul n.probability s.probability)
          (Weight.ratio (DiceSum.throws s.value n.value.toNat total) (s.value ^ n.value.toNat)))

/-- The distribution of an expression, computed without a memory. -/
def Expr.law : Expr → Except EvalFailure (Distribution α)
  | .literal value => .ok (.constant value)
  | .dice count sides => do
    let s ← sides.law
    let n ← count.law
    s.checkAll sides.checkSides
    n.checkAll count.checkCount
    .ok (.ofMasses (diceMasses n s))
  | .arith op lhs rhs => do
    let l ← lhs.law
    let r ← rhs.law
    r.checkAll (op.checkRight rhs)
    .ok (.ofMasses (Distribution.pairMasses op.apply l r))
  | .signed sign operand => do
    let d ← operand.law
    .ok (d.map sign.apply)

namespace TableM

variable {β γ : Type}

theorem yields_bind {x : TableM β} {f : β → TableM γ} {r : Except EvalFailure β}
    {g : β → Except EvalFailure γ} (hx : Yields x.run r)
    (hf : ∀ b, r = .ok b → Yields (f b).run (g b)) : Yields (x >>= f).run (r >>= g) := by
  rw [ExceptT.run_bind]
  cases r with
  | ok b => exact hx.bind (hf b rfl)
  | error failure => exact hx.bind (yields_pure _)

theorem yields_ofExcept (check : Except EvalFailure β) : Yields (ofExcept check).run check :=
  yields_pure check

private theorem yields_bind_ok {x : TableM β} {f : β → TableM γ} {b : β} {r : Except EvalFailure γ}
    (hx : Yields x.run (.ok b)) (hf : Yields (f b).run r) : Yields (x >>= f).run r := by
  rw [ExceptT.run_bind]
  exact hx.bind hf

private theorem yields_foldlM {f : β → γ → TableM β} {g : β → γ → β} {items : List γ}
    (h : ∀ b, ∀ c ∈ items, Yields (f b c).run (.ok (g b c))) (start : β) :
    Yields (items.foldlM f start).run (.ok (items.foldl g start)) := by
  induction items generalizing start with
  | nil => exact yields_pure _
  | cons c items ih =>
      rw [List.foldlM_cons, List.foldl_cons]
      have hrest := ih (fun b d hd => h b d (List.mem_cons_of_mem c hd)) (g start c)
      exact yields_bind_ok (h start c List.mem_cons_self) hrest

end TableM

omit [Weight α] in
theorem mem_diceTotals {n sides total : Int} :
    total ∈ diceTotals n sides ↔ n ≤ total ∧ total ≤ n * sides := by
  rw [diceTotals, List.mem_map]
  constructor
  · rintro ⟨i, hi, rfl⟩
    have := List.mem_range.mp hi
    omega
  · rintro ⟨hlow, hhigh⟩
    exact ⟨(total - n).toNat, List.mem_range.mpr (by omega), by omega⟩

omit [Weight α] in
theorem yields_count_of_mem {n sides total : Int} (hn : 0 ≤ n) (hsides : 1 ≤ sides)
    (htotal : total ∈ diceTotals n sides) :
    Yields (DiceSum.count total n sides) (DiceSum.throws sides n.toNat total : Int) := by
  obtain ⟨n, rfl⟩ := Int.eq_ofNat_of_zero_le hn
  rcases Nat.eq_zero_or_pos n with rfl | hpos
  · rw [mem_diceTotals] at htotal
    rw [DiceSum.count, if_pos (Or.inl (by simp)), Int.toNat_natCast, DiceSum.throws,
      if_pos (by omega)]
    exact yields_pure 1
  · exact DiceSum.yields_count hpos hsides total

theorem yields_probability {n sides total : Int} (hn : 0 ≤ n) (hsides : 1 ≤ sides)
    (htotal : total ∈ diceTotals n sides) :
    Yields (DiceSum.probability total n sides : ExceptT Fault (StateM Binomials) α).run
      (.ok (Weight.ratio (DiceSum.throws sides n.toNat total) (sides ^ n.toNat))) := by
  have hcount := yields_count_of_mem hn hsides htotal
  obtain ⟨n, rfl⟩ := Int.eq_ofNat_of_zero_le hn
  have hne : Int.pow sides n ≠ 0 := pow_ne_zero n (by omega)
  have hshare : (DiceSum.share (DiceSum.throws sides n total) n sides : Except Fault α) =
      .ok (Weight.ratio (DiceSum.throws sides n total) (sides ^ n)) := by
    change (if Int.pow sides n = 0 then Except.error Fault.zeroDenominator
      else .ok (Weight.ratio (DiceSum.throws sides n total) (Int.pow sides n))) = _
    exact if_neg hne
  rw [DiceSum.probability, Int.toNat_natCast, ← hshare]
  exact hcount.bind (yields_pure _)

theorem yields_diceTable {counts sides : Distribution α} (hcounts : ∀ n ∈ counts.values, 0 ≤ n)
    (hsides : ∀ s ∈ sides.values, 1 ≤ s) :
    Yields (diceTable counts sides).run (.ok (.ofMasses (diceMasses counts sides))) := by
  have htotal (n : Outcome α) (hn : n ∈ counts.outcomes) (s : Outcome α)
      (hs : s ∈ sides.outcomes) (tally : Tally α) (total : Int)
      (hmem : total ∈ diceTotals n.value s.value) :
      Yields (TableM.ofFault (DiceSum.probability total n.value s.value) >>= fun p =>
        pure (tally.add total (Weight.mul (Weight.mul n.probability s.probability) p)) :
          TableM (Tally α)).run
        (.ok (tally.add total (Weight.mul (Weight.mul n.probability s.probability)
          (Weight.ratio (DiceSum.throws s.value n.value.toNat total)
            (s.value ^ n.value.toNat))))) := by
    have hp := yields_probability (α := α) (hcounts _ (List.mem_map_of_mem hn))
      (hsides _ (List.mem_map_of_mem hs)) hmem
    exact TableM.yields_bind_ok (hp.map _) (yields_pure _)
  rw [diceTable, ← bind_pure_comp]
  refine TableM.yields_bind_ok (TableM.yields_foldlM (fun tally n hn =>
    TableM.yields_foldlM (fun tally s hs =>
      TableM.yields_foldlM (htotal n hn s hs) tally) tally) Tally.empty) ?_
  rw [Distribution.ofMasses, diceMasses]
  simp only [List.foldl_flatMap, List.foldl_map]
  exact yields_pure _

/-- The table of an expression is its law, whatever has been remembered. -/
theorem Expr.yields_table (e : Expr) : Yields (e.table : TableM (Distribution α)).run e.law := by
  induction e with
  | literal value => exact yields_pure _
  | dice count sides ihcount ihsides =>
      rw [table, law]
      refine TableM.yields_bind ihsides fun s _ => TableM.yields_bind ihcount fun n _ => ?_
      refine TableM.yields_bind (TableM.yields_ofExcept _) fun _ hs => ?_
      refine TableM.yields_bind (TableM.yields_ofExcept _) fun _ hn => ?_
      rw [Distribution.checkAll_eq_ok_iff] at hs hn
      exact yields_diceTable (fun v hv => checkCount_eq_ok_iff.mp (hn v hv))
        (fun v hv => checkSides_eq_ok_iff.mp (hs v hv))
  | arith op lhs rhs ihlhs ihrhs =>
      rw [table, law]
      refine TableM.yields_bind ihlhs fun l _ => TableM.yields_bind ihrhs fun r _ => ?_
      refine TableM.yields_bind (TableM.yields_ofExcept _) fun _ hr => ?_
      rw [Distribution.checkAll_eq_ok_iff] at hr
      rw [Distribution.product?_eq_ok (g := op.apply) fun a b hb => by
        rw [ArithOp.tryApply_eq_ok (hr b hb)]; rfl]
      exact TableM.yields_ofExcept _
  | signed sign operand ih =>
      rw [table, law]
      exact TableM.yields_bind ih fun d _ => yields_pure _

/-- What is computed with a memory is the law. -/
theorem Expr.distribution_eq_law (e : Expr) :
    (e.distribution : Except EvalFailure (Distribution α)) = e.law :=
  (e.yields_table _ sound_empty).1

/-! ## What a law is made of -/

private theorem bind_eq_ok {β γ : Type} {x : Except EvalFailure β} {f : β → Except EvalFailure γ}
    {c : γ} (h : (x >>= f) = .ok c) : ∃ b, x = .ok b ∧ f b = .ok c := by
  cases x with
  | ok b => exact ⟨b, rfl, h⟩
  | error failure => cases h

namespace Expr

variable {d : Distribution α}

theorem law_dice_eq_ok {count sides : Expr} (h : (Expr.dice count sides).law = .ok d) :
    ∃ s n, sides.law = .ok s ∧ count.law = .ok n ∧ (∀ v ∈ s.values, 1 ≤ v) ∧
      (∀ v ∈ n.values, 0 ≤ v) ∧ d = .ofMasses (diceMasses n s) := by
  obtain ⟨s, hs, h⟩ := bind_eq_ok h
  obtain ⟨n, hn, h⟩ := bind_eq_ok h
  obtain ⟨_, hsides, h⟩ := bind_eq_ok h
  obtain ⟨_, hcount, h⟩ := bind_eq_ok h
  rw [Distribution.checkAll_eq_ok_iff] at hsides hcount
  exact ⟨s, n, hs, hn, fun v hv => checkSides_eq_ok_iff.mp (hsides v hv),
    fun v hv => checkCount_eq_ok_iff.mp (hcount v hv), (Except.ok.inj h).symm⟩

theorem law_arith_eq_ok {op : ArithOp} {lhs rhs : Expr} (h : (Expr.arith op lhs rhs).law = .ok d) :
    ∃ l r, lhs.law = .ok l ∧ rhs.law = .ok r ∧
      d = .ofMasses (Distribution.pairMasses op.apply l r) := by
  obtain ⟨l, hl, h⟩ := bind_eq_ok h
  obtain ⟨r, hr, h⟩ := bind_eq_ok h
  obtain ⟨_, _, h⟩ := bind_eq_ok h
  exact ⟨l, r, hl, hr, (Except.ok.inj h).symm⟩

theorem law_signed_eq_ok {sign : Sign} {operand : Expr}
    (h : (Expr.signed sign operand).law = .ok d) :
    ∃ c, operand.law = .ok c ∧ d = c.map sign.apply := by
  obtain ⟨c, hc, h⟩ := bind_eq_ok h
  exact ⟨c, hc, (Except.ok.inj h).symm⟩

end Expr

end Law

end DiceCalculator
