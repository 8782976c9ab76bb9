import DiceCalculator.Proofs.Distribution.Normalization
import DiceCalculator.Proofs.Expr.SharedMemory

/-!
# Distributions that operations build

Distributions are built from certain values, from lists of masses, as functions of one or two
independent values, and as tables of expressions. However many of these operations are strung
together, each distribution is sorted, and it normalizes the masses that its last operation adds up.
-/
namespace DiceCalculator

section Masses

variable {α : Type} [Weight α]

namespace Distribution

def mapMasses (f : Int → Int) (d : Distribution α) : List (Int × α) :=
  d.outcomes.map fun o => (f o.value, o.probability)

end Distribution

/-- The distribution of an operand; one that has none adds nothing. -/
def Expr.operandTable (e : Expr) : Distribution α :=
  match (e.distribution : Except EvalFailure (Distribution α)) with
  | .ok d => d
  | .error _ => .empty

private theorem Expr.operandTable_eq {e : Expr} {d : Distribution α} (h : e.law = .ok d) :
    e.operandTable = d := by
  rw [operandTable, distribution_eq_law, h]

/-- The masses that the outermost operation of an expression adds up. -/
def Expr.masses : Expr → List (Int × α)
  | .literal value => [(value, Weight.one)]
  | .dice count sides => diceMasses count.operandTable sides.operandTable
  | .arith op lhs rhs => Distribution.pairMasses op.apply lhs.operandTable rhs.operandTable
  | .signed sign operand => Distribution.mapMasses sign.apply operand.operandTable

end Masses

namespace Distribution

/-- The distribution is the outcome of a finite sequence of operations, the last of which adds up
these masses. The tables of expressions are found with a memory that has answered any questions. -/
inductive Built {α : Type} [Weight α] : List (Int × α) → Distribution α → Prop
  | constant (value : Int) : Built [(value, Weight.one)] (constant value)
  | ofMasses (masses : List (Int × α)) : Built masses (ofMasses masses)
  | map (f : Int → Int) {masses : List (Int × α)} {d : Distribution α} :
      Built masses d → Built (mapMasses f d) (d.map f)
  | product (f : Int → Int → Int) {masses others : List (Int × α)} {d e : Distribution α} :
      Built masses d → Built others e → Built (pairMasses f d e) (d.product f e)
  | table (e : Expr) (questions : List Question) {d : Distribution α} :
      (e.distributionWith (Question.memoryAfter α questions)).1 = .ok d → Built e.masses d

end Distribution

theorem Expr.distribution_eq_ofMasses {α : Type} [Weight α] {e : Expr} {d : Distribution α}
    (h : e.distribution = .ok d) :
    (∃ value, d = .constant value ∧ e.masses = [(value, (Weight.one : α))]) ∨
      d = .ofMasses e.masses := by
  rw [distribution_eq_law] at h
  cases e with
  | literal value => exact .inl ⟨value, (Except.ok.inj h).symm, rfl⟩
  | dice count sides =>
      right
      obtain ⟨s, n, hs, hn, _, _, rfl⟩ := law_dice_eq_ok h
      rw [masses, operandTable_eq hs, operandTable_eq hn]
  | arith op lhs rhs =>
      right
      obtain ⟨l, r, hl, hr, rfl⟩ := law_arith_eq_ok h
      rw [masses, operandTable_eq hl, operandTable_eq hr]
  | signed sign operand =>
      right
      obtain ⟨c, hc, rfl⟩ := law_signed_eq_ok h
      rw [masses, operandTable_eq hc]
      exact Distribution.map_eq_ofMasses sign.apply c

namespace Distribution

/-- What operations build is a certain value, or it comes from its masses. -/
theorem Built.eq_ofMasses {α : Type} [Weight α] {masses : List (Int × α)} {d : Distribution α}
    (h : Built masses d) :
    (∃ value, d = .constant value ∧ masses = [(value, Weight.one)]) ∨ d = .ofMasses masses := by
  cases h with
  | constant value => exact .inl ⟨value, rfl, rfl⟩
  | ofMasses => exact .inr rfl
  | map f => exact .inr (map_eq_ofMasses f _)
  | product f => exact .inr (product_eq_ofMasses f _ _)
  | table e questions h =>
      have hfresh := (e.yields_table (α := α)).steady.eq_fresh
        (Question.sound_memoryAfter α questions)
      exact Expr.distribution_eq_ofMasses (hfresh.symm.trans h)

/-- Whatever the weights are, all that operations build is sorted by value. With exact weights it
lists nothing if and only if the masses add up to zero. Otherwise it lists each value that a mass
stands with, also one of mass zero, with its share of all mass, and the shares add up to one. The
order of the masses does not matter. -/
theorem built_normalizes :
    (∀ (α : Type) [Weight α] (masses : List (Int × α)) (d : Distribution α),
        Built masses d → d.values.Pairwise (· < ·)) ∧
      ∀ (masses : List (Int × Rat)) (d : Distribution Rat), Built masses d →
        d.Normalizes masses ∧
          ∀ others : List (Int × Rat), masses.Perm others → ofMasses others = d := by
  refine ⟨fun α _ masses d h => ?_, fun masses d h => ?_⟩
  · obtain ⟨value, rfl, _⟩ | rfl := h.eq_ofMasses
    · exact List.pairwise_singleton _ _
    · exact sorted_ofTally _
  · have hd : d = ofMasses masses := by
      obtain ⟨value, rfl, rfl⟩ | rfl := h.eq_ofMasses
      · exact (ofMasses_singleton value).symm
      · rfl
    rw [hd]
    exact ⟨normalizes_ofMasses masses, fun others hperm => (ofMasses_perm hperm).symm⟩

theorem built_normalizes_of_cancelled_mass :
    let coin : Expr := .dice (.literal 1) (.literal 2)
    let questions : List Question := [.coefficient 5 2, .distribution coin]
    let cancelled : Distribution Rat := .ofMasses [(3, 1), (-2, 1), (3, -1), (-2, 1)]
    let faces : Distribution Rat := ⟨[⟨1, 1 / 2⟩, ⟨2, 1 / 2⟩]⟩
    let masses := pairMasses (· * ·) cancelled faces
    let d := cancelled.product (· * ·) faces
    (coin.distributionWith (Question.memoryAfter Rat questions)).1 = .ok faces ∧
      Built masses d ∧ d = ⟨[⟨-4, 1 / 2⟩, ⟨-2, 1 / 2⟩, ⟨3, 0⟩, ⟨6, 0⟩]⟩ ∧
      d.values.Pairwise (· < ·) ∧ d.Normalizes masses ∧
      masses.Perm masses.reverse ∧ ofMasses masses.reverse = d := by
  intro coin questions cancelled faces masses d
  have hcoin : (coin.distributionWith (Question.memoryAfter Rat questions)).1 = .ok faces := by
    decide +kernel
  have hbuilt : Built masses d :=
    .product (· * ·) (.ofMasses _) (.table coin questions hcoin)
  have hreverse : masses.Perm masses.reverse := masses.reverse_perm.symm
  obtain ⟨hnormalizes, hperm⟩ := built_normalizes.2 masses d hbuilt
  exact ⟨hcoin, hbuilt, by decide +kernel, built_normalizes.1 Rat masses d hbuilt, hnormalizes,
    hreverse, hperm masses.reverse hreverse⟩

end Distribution

end DiceCalculator
