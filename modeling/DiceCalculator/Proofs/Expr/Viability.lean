import DiceCalculator.Proofs.Expr.Reader
/-!
# Beginnings of sentences

Tokens are viable when some sentence begins with them. Wherever the reader stands it can be led to a
whole expression: a number supplies the operand that is missing, and closing parentheses complete
all frames. So the reader takes tokens exactly as long as they are viable.
-/
namespace DiceCalculator

namespace Token

/-- The tokens are those of an expression. -/
def IsSentence (tokens : List Token) : Prop := ∃ e, Derives .sum tokens e

/-- Some sentence begins with these tokens. -/
def Viable (tokens : List Token) : Prop := ∃ rest, IsSentence (tokens ++ rest)

theorem isSentence_iff {tokens : List Token} :
    IsSentence tokens ↔ ∃ e, (Reader.start.feed tokens).bind Reader.finish? = some e := by
  simp only [IsSentence, Reader.feed_finish_iff]

end Token

open DiceCalculator.Frame

private theorem Frame.eq_paren_or_precedence_le (frame : Frame) :
    frame = .paren ∨ frame.precedence ≤ Operator.loosest := by
  cases frame with
  | paren => exact .inl rfl
  | dice => exact .inr (by decide : Operator.dice.precedence ≤ Operator.loosest)
  | sidesSign => exact .inr (by decide : Operator.dice.precedence ≤ Operator.loosest)
  | sign sign => exact .inr (Operator.sign_le_loosest sign)
  | arith op => exact .inr (Operator.arith_le_loosest op)

namespace Reader

private theorem feed_closeParens_congr {frames frames' : List Frame} {e e' : Expr}
    (h : reduce Operator.loosest frames e = reduce Operator.loosest frames' e') (k : Nat) :
    (feed (.holding frames e) (List.replicate k .closeParen)).bind finish? =
      (feed (.holding frames' e') (List.replicate k .closeParen)).bind finish? := by
  cases k with
  | zero => simp [feed, finish?, h]
  | succ k => simp [List.replicate_succ, feed, step, stepHolding, h]

private theorem exists_closeParens (frames : List Frame) (e : Expr) : ∃ k e',
    (feed (.holding frames e) (List.replicate k .closeParen)).bind finish? = some e' := by
  induction frames generalizing e with
  | nil => exact ⟨0, e, rfl⟩
  | cons frame frames ih =>
    obtain rfl | hf := frame.eq_paren_or_precedence_le
    · obtain ⟨k, e', hfinish⟩ := ih e
      have hblocks : Blocks Operator.loosest (.paren :: frames) := blocks_cons.mpr (by decide)
      have hstep : step (.holding (.paren :: frames) e) .closeParen = some (.holding frames e) := by
        simp [step, stepHolding, reduce_of_blocks hblocks]
      refine ⟨k + 1, e', ?_⟩
      rwa [List.replicate_succ, feed, hstep, Option.bind_some]
    · obtain ⟨k, e', hfinish⟩ := ih (frame.complete e)
      exact ⟨k, e', (feed_closeParens_congr (reduce_cons_of_le hf) k).trans hfinish⟩

theorem exists_feed_finish (reader : Reader) : ∃ rest e,
    (reader.feed rest).bind finish? = some e := by
  cases reader with
  | wanting frames =>
    obtain ⟨k, e, hfinish⟩ := exists_closeParens frames (.literal 0)
    exact ⟨.number 0 :: List.replicate k .closeParen, e, hfinish⟩
  | holding frames operand =>
    obtain ⟨k, e, hfinish⟩ := exists_closeParens frames operand
    exact ⟨List.replicate k .closeParen, e, hfinish⟩

end Reader

namespace Token

open Reader

variable {tokens : List Token} {token : Token} {reader : Reader}

/-- The reader takes tokens exactly if some sentence begins with them. -/
theorem viable_iff : Viable tokens ↔ ∃ reader, start.feed tokens = some reader := by
  constructor
  · rintro ⟨rest, hsentence⟩
    obtain ⟨e, he⟩ := isSentence_iff.mp hsentence
    obtain ⟨last, hlast, _⟩ := Option.bind_eq_some_iff.mp he
    rw [feed_append] at hlast
    obtain ⟨reader, hreader, _⟩ := Option.bind_eq_some_iff.mp hlast
    exact ⟨reader, hreader⟩
  · rintro ⟨reader, hreader⟩
    obtain ⟨rest, e, he⟩ := reader.exists_feed_finish
    refine ⟨rest, isSentence_iff.mpr ⟨e, ?_⟩⟩
    rwa [feed_append, hreader]

/-- Behind viable tokens the reader refuses a token exactly if no sentence goes on with it. -/
theorem step_eq_none_iff (h : start.feed tokens = some reader) :
    reader.step token = none ↔ ¬ Viable (tokens ++ [token]) := by
  rw [viable_iff, feed_append, h, Option.bind_some, feed]
  cases hstep : reader.step token with
  | none => simp
  | some next => simp [feed]

theorem exists_step {rest : List Token} (h : start.feed tokens = some reader)
    (hviable : Viable (tokens ++ token :: rest)) :
    ∃ next, reader.step token = some next ∧ start.feed (tokens ++ [token]) = some next := by
  obtain ⟨last, hlast⟩ := viable_iff.mp hviable
  rw [feed_append, h, Option.bind_some] at hlast
  obtain ⟨next, hstep, _⟩ := Option.bind_eq_some_iff.mp hlast
  exact ⟨next, hstep, by simp [feed_append, h, feed, hstep]⟩

end Token

end DiceCalculator
