import DiceCalculator.Proofs.Expr.Law

/-!
# One memory for many questions

One memory of coefficients may serve any number of questions: coefficients, numbers of throws,
probabilities and distributions, for any arguments, and also such as have no answer. Each answer is
the one that an empty memory gives, so it depends neither on the other questions nor on their order.
-/
namespace DiceCalculator

open Binomials

/-- What can be asked of a memory. -/
inductive Question where
  | coefficient (n r : Int)
  | throws (total n sides : Int)
  | probability (total n sides : Int)
  | distribution (e : Expr)

/-- What a question is answered with. -/
inductive Answer (α : Type) where
  | coefficient (value : Nat)
  | throws (ways : Int)
  | probability (share : Except Fault α)
  | distribution (result : Except EvalFailure (Distribution α))

section Questions

variable (α : Type) [Weight α]

namespace Question

/-- Answers a question from a memory, which may come to hold more by it. -/
def answer : Question → StateM Binomials (Answer α)
  | .coefficient n r => .coefficient <$> choose n r
  | .throws total n sides => .throws <$> DiceSum.count total n sides
  | .probability total n sides =>
    .probability <$> (DiceSum.probability total n sides : ExceptT Fault (StateM Binomials) α).run
  | .distribution e => .distribution <$> (e.table : TableM (Distribution α)).run

/-- Answers questions one after the other from the same memory. -/
def answerAll (questions : List Question) : StateM Binomials (List (Answer α)) :=
  questions.mapM (answer α)

/-- The memory that questions leave when it was empty before. -/
def memoryAfter (questions : List Question) : Binomials :=
  ((answerAll α questions).run Binomials.empty).2

private theorem steady_answer (question : Question) : Steady (question.answer α) := by
  cases question with
  | coefficient n r => exact (steady_choose n r).map _
  | throws total n sides => exact (DiceSum.steady_count total n sides).map _
  | probability total n sides => exact (DiceSum.steady_probability total n sides).map _
  | distribution e => exact e.yields_table.steady.map _

/-- A sound memory answers each question as an empty one does, and it stays sound. -/
theorem yields_answerAll (questions : List Question) :
    Yields (answerAll α questions)
      (questions.map fun question => ((question.answer α).run Binomials.empty).1) := by
  induction questions with
  | nil => exact yields_pure []
  | cons question questions ih =>
      obtain ⟨a, ha⟩ := question.steady_answer α
      rw [answerAll, List.mapM_cons, List.map_cons, (ha _ sound_empty).1]
      exact ha.bind (ih.bind (yields_pure _))

theorem sound_memoryAfter (questions : List Question) : (memoryAfter α questions).Sound :=
  (yields_answerAll α questions _ sound_empty).2

end Question

open Question

/-- Whatever was asked before, a memory finds the binomial coefficient, as an empty memory does. -/
theorem Binomials.choose_memoryAfter (questions : List Question) (n r : Nat) :
    ((choose n r).run (memoryAfter α questions)).1 = n.choose r ∧
      ((choose n r).run Binomials.empty).1 = n.choose r :=
  ⟨(yields_choose n r _ (sound_memoryAfter α questions)).1, (yields_choose n r _ sound_empty).1⟩

/-- Whatever was asked before, the number found is that of the throws with the total. The negative
terms never outweigh the positive ones, and a total out of reach has no throws. -/
theorem DiceSum.count_memoryAfter (questions : List Question) {n : Nat} {sides : Int} (hn : 0 < n)
    (hsides : 1 ≤ sides) (total : Int) :
    let memory := memoryAfter α questions
    let ways := ((count total n sides).run memory).1
    let positive := (terms total n sides (evens (bound total n sides))).run memory
    let negative := (terms total n sides (odds (bound total n sides))).run positive.2
    ways = (throwsTo n sides total).card ∧
      (n ≤ total → total ≤ n * sides →
        negative.1 ≤ positive.1 ∧ ways = (positive.1 - negative.1 : Nat)) ∧
      (total < n ∨ n * sides < total → ways = 0) := by
  intro memory ways positive negative
  have hsound : memory.Sound := sound_memoryAfter α questions
  have hways : ways = throws sides n total := (yields_count hn hsides total memory hsound).1
  refine ⟨hways.trans (by rw [card_throwsTo]), fun hlow _ => ?_, fun hout => ?_⟩
  · obtain ⟨p, q, hp, hq, hthrows⟩ := exists_yields_terms hn hsides hlow
    have hpositive : positive.1 = p := (hp memory hsound).1
    have hnegative : negative.1 = q := (hq positive.2 (hp memory hsound).2).1
    omega
  · rw [hways, throws_eq_zero hout]
    rfl

theorem DiceSum.count_after_failures :
    let divisor : Expr := .arith .difference (.dice (.literal 1) (.literal 2)) (.literal 1)
    let questions : List Question := [.coefficient (-3) 2, .probability 5 (-1) 0,
      .distribution (.arith .quotient (.dice (.literal 5) (.literal 4)) divisor)]
    let n : Nat := 3
    let sides : Int := 6
    let ways := ((count 10 n sides).run (memoryAfter Rat questions)).1
    let positive := (terms 10 n sides (evens (bound 10 n sides))).run (memoryAfter Rat questions)
    let negative := (terms 10 n sides (odds (bound 10 n sides))).run positive.2
    0 < n ∧ 1 ≤ sides ∧ ways = 27 ∧ negative.1 ≤ positive.1 ∧
      ways = (positive.1 - negative.1 : Nat) ∧
      ((count 19 n sides).run (memoryAfter Rat questions)).1 = 0 := by
  intro divisor questions n sides ways positive negative
  have hn : 0 < n := by decide
  have hsides : 1 ≤ sides := by decide
  obtain ⟨hcard, hparts, _⟩ := DiceSum.count_memoryAfter Rat questions hn hsides 10
  obtain ⟨_, _, hout⟩ := DiceSum.count_memoryAfter Rat questions hn hsides 19
  obtain ⟨hle, hdiff⟩ := hparts (by decide) (by decide)
  have hthrows : (throwsTo n sides 10).card = 27 := by
    rw [card_throwsTo]
    decide +kernel
  exact ⟨hn, hsides, hcard.trans (by rw [hthrows]; rfl), hle, hdiff, hout (.inr (by decide))⟩

/-- The distribution of an expression, or its failure, does not depend on what was asked of the
memory before. Nor do the distributions of many expressions that use one memory in turn. -/
theorem Expr.distribution_memoryAfter (questions : List Question) :
    (∀ e : Expr, (e.distributionWith (memoryAfter α questions)).1 =
        (e.distribution : Except EvalFailure (Distribution α))) ∧
      ∀ es : List Expr, ((answerAll α (es.map .distribution)).run (memoryAfter α questions)).1 =
        es.map fun e => .distribution e.distribution := by
  have hsound : (memoryAfter α questions).Sound := sound_memoryAfter α questions
  refine ⟨fun e => e.yields_table.steady.eq_fresh hsound, fun es => ?_⟩
  rw [(yields_answerAll α (es.map .distribution) _ hsound).1, List.map_map]
  rfl

end Questions

end DiceCalculator
