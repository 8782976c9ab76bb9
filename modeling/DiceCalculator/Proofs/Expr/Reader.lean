import DiceCalculator.Proofs.Expr.Grammar
/-!
# The reader against the grammar

A phrase of the grammar takes the reader from wanting an operand to holding one, and what it then
holds completes to the same frames as the phrase itself would. Conversely the frames and the operand
account for all tokens read so far: each frame is the beginning of a production, and its operand may
stand where the frame below it has its gap. Together the reader accepts exactly the sums.
-/
namespace DiceCalculator

namespace Frame

variable {limit : Nat} {frame : Frame} {frames : List Frame} {e : Expr}

def Blocks (limit : Nat) (frames : List Frame) : Prop :=
  ∀ frame ∈ frames.head?, limit < frame.precedence

@[simp] theorem blocks_cons : Blocks limit (frame :: frames) ↔ limit < frame.precedence := by
  simp [Blocks]

theorem reduce_cons_of_le (h : frame.precedence ≤ limit) :
    reduce limit (frame :: frames) e = reduce limit frames (frame.complete e) :=
  if_pos h

theorem reduce_of_blocks (h : Blocks limit frames) : reduce limit frames e = (frames, e) := by
  cases frames with
  | nil => rfl
  | cons frame frames => exact if_neg (Nat.not_le.mpr (blocks_cons.mp h))

private theorem blocks_reduce (limit : Nat) (frames : List Frame) (e : Expr) :
    Blocks limit (reduce limit frames e).1 := by
  induction frames generalizing e with
  | nil => simp [reduce, Blocks]
  | cons frame frames ih =>
    by_cases h : frame.precedence ≤ limit
    · rw [reduce_cons_of_le h]
      exact ih _
    · simp only [reduce, if_neg h]
      exact blocks_cons.mpr (Nat.not_le.mp h)

private theorem Blocks.mono {limit' : Nat} (h : Blocks limit frames) (hl : limit' ≤ limit) :
    Blocks limit' frames :=
  fun frame hframe => Nat.lt_of_le_of_lt hl (h frame hframe)

private theorem Blocks.wantsSides_eq_false (h : Blocks Operator.dice.leftLimit frames) :
    wantsSides frames = false := by
  cases frames with
  | nil => rfl
  | cons frame frames =>
    cases frame with
    | dice => exact absurd (blocks_cons.mp h) (Nat.lt_irrefl _)
    | sidesSign => exact absurd (blocks_cons.mp h) (Nat.lt_irrefl _)
    | _ => rfl

end Frame

namespace Reader

/-- Takes all tokens in turn, as long as each can stand in its place. -/
def feed : Reader → List Token → Option Reader
  | reader, [] => some reader
  | reader, token :: tokens => (reader.step token).bind (feed · tokens)

theorem feed_append (reader : Reader) (ts us : List Token) :
    reader.feed (ts ++ us) = (reader.feed ts).bind (feed · us) := by
  induction ts generalizing reader with
  | nil => rfl
  | cons token ts ih =>
    simp only [List.cons_append, feed]
    cases reader.step token with
    | none => rfl
    | some next => exact ih next

theorem read_eq_ok_iff {illegal : Option Nat} {reader : Reader} {lexemes : List Lexeme} {e : Expr} :
    reader.read illegal lexemes = .ok e ↔
      illegal = none ∧ (reader.feed (lexemes.map (·.token))).bind finish? = some e := by
  induction lexemes generalizing reader with
  | nil =>
    cases illegal with
    | some place => simp [read]
    | none => cases h : reader.finish? <;> simp [read, feed, h]
  | cons lexeme lexemes ih =>
    cases h : reader.step lexeme.token with
    | none => simp [read, feed, h]
    | some next => simp [read, feed, h, ih]

end Reader

open DiceCalculator.Frame DiceCalculator.Reader

/-! ## Phrases take the reader to an operand -/

/-- The frames before a phrase are not completed by an operator within it. -/
def Category.Opens : Category → List Frame → Prop
  | .sum, frames => Blocks (Operator.arith .sum).leftLimit frames
  | .product, frames => Blocks (Operator.arith .product).leftLimit frames
  | .power, frames => Blocks (Operator.arith .power).leftLimit frames
  | .unary, frames => Blocks Operator.dice.leftLimit frames
  | .roll, frames => Blocks Operator.dice.leftLimit frames
  | .sides, frames => wantsSides frames
  | .atom, _ => True

/-- From wherever such a phrase may begin, these tokens take the reader to an operand. From the
limit of the category on, completing frames with it gives what it gives with the expression. -/
def Reads (c : Category) (ts : List Token) (e : Expr) : Prop :=
  ∀ frames, c.Opens frames → ∃ frames' e',
    feed (.wanting frames) ts = some (.holding frames' e') ∧
      ∀ limit, c.limit ≤ limit → reduce limit frames' e' = reduce limit frames e

namespace Reads

variable {c c' : Category} {ts us : List Token} {a b e : Expr} {frame : Frame}
  {frames : List Frame}

private theorem number (value : Nat) : Reads .atom [.number value] (.literal value) :=
  fun frames _ => ⟨frames, .literal value, rfl, fun _ _ => rfl⟩

private theorem pass (h : Reads c.tighter ts e) : Reads c ts e := by
  intro frames ho
  have hopens : c.tighter.Opens frames := by
    cases c with
    | sum => exact Blocks.mono ho (by decide)
    | product => exact Blocks.mono ho (by decide)
    | power => exact Blocks.mono ho (by decide)
    | unary => exact ho
    | roll => trivial
    | sides => trivial
    | atom => trivial
  have hlimit : c.tighter.limit ≤ c.limit := by cases c <;> decide
  obtain ⟨frames', e', hfeed, hreduce⟩ := h frames hopens
  exact ⟨frames', e', hfeed, fun limit hl => hreduce limit (Nat.le_trans hlimit hl)⟩

private theorem paren (h : Reads .sum ts e) :
    Reads .atom (.openParen :: (ts ++ [.closeParen])) e := by
  intro frames _
  obtain ⟨frames', e', hfeed, hreduce⟩ := h (.paren :: frames) (blocks_cons.mpr (by decide))
  have hparen : reduce Operator.loosest frames' e' = (.paren :: frames, e) := by
    rw [hreduce _ (by decide), reduce_of_blocks (blocks_cons.mpr (by decide))]
  refine ⟨frames, e, ?_, fun _ _ => rfl⟩
  rw [feed, show step (.wanting frames) .openParen = some (.wanting (.paren :: frames)) from rfl,
    Option.bind_some, feed_append, hfeed]
  simp [feed, step, stepHolding, hparen]

/-- A frame and the phrase that is its operand are read as the completed frame. -/
private theorem complete (h : Reads c' us e) (ho : c'.Opens (frame :: frames))
    (hc : c'.limit ≤ c.limit) (hf : frame.precedence ≤ c.limit) :
    ∃ frames' e', feed (.wanting (frame :: frames)) us = some (.holding frames' e') ∧
      ∀ limit, c.limit ≤ limit →
        reduce limit frames' e' = reduce limit frames (frame.complete e) := by
  obtain ⟨frames', e', hfeed, hreduce⟩ := h _ ho
  refine ⟨frames', e', hfeed, ?_⟩
  intro limit hl
  rw [hreduce limit (Nat.le_trans hc hl), reduce_cons_of_le (Nat.le_trans hf hl)]

private theorem signed (sign : Sign) (h : Reads .unary ts e) :
    Reads .unary (sign.token :: ts) (.signed sign e) := by
  intro frames ho
  have hsides : wantsSides frames = false := ho.wantsSides_eq_false
  have hstep : step (.wanting frames) sign.token = some (.wanting (.sign sign :: frames)) := by
    cases sign <;> simp [step, stepWanting, Sign.token, ofSign, hsides]
  rw [feed, hstep]
  exact h.complete (blocks_cons.mpr (by cases sign <;> decide)) (by decide)
    (by cases sign <;> decide)

private theorem sidesSigned (sign : Sign) (h : Reads .sides ts e) :
    Reads .sides (sign.token :: ts) (.signed sign e) := by
  intro frames ho
  have hsides : wantsSides frames = true := ho
  have hstep : step (.wanting frames) sign.token = some (.wanting (.sidesSign sign :: frames)) := by
    cases sign <;> simp [step, stepWanting, Sign.token, ofSign, hsides]
  rw [feed, hstep]
  exact h.complete rfl (by decide) (Nat.le_refl _)

private theorem die (h : Reads .sides ts e) (hc : c = .roll ∨ c = .sides) :
    Reads c (.die :: ts) (.dice (.literal 1) e) := by
  intro frames _
  rw [feed, show step (.wanting frames) .die = some (.wanting (.dice (.literal 1) :: frames))
    from rfl]
  rcases hc with rfl | rfl <;> exact h.complete rfl (by decide) (by decide)

private theorem dice (ha : Reads .roll ts a) (hb : Reads .sides us b) :
    Reads .roll (ts ++ .die :: us) (.dice a b) := by
  intro frames ho
  obtain ⟨frames', a', hfeed, hreduce⟩ := ha frames ho
  have hleft : reduce Operator.dice.leftLimit frames' a' = (frames, a) := by
    rw [hreduce _ (by decide), reduce_of_blocks ho]
  have hstep : step (.holding frames' a') .die = some (.wanting (.dice a :: frames)) := by
    simp [step, stepHolding, hleft]
  rw [feed_append, hfeed, Option.bind_some, feed, hstep]
  exact hb.complete rfl (by decide) (Nat.le_refl _)

private theorem step_arith {op : ArithOp} {frames' : List Frame} {a' : Expr}
    (h : reduce (Operator.arith op).leftLimit frames' a' = (frames, a)) :
    step (.holding frames' a') op.token = some (.wanting (.arith op a :: frames)) := by
  cases op <;> simp [step, stepHolding, arithOp?, ArithOp.token, h]

private theorem arith (op : ArithOp) (ha : Reads op.leftCategory ts a)
    (hb : Reads op.rightCategory us b) :
    Reads op.category (ts ++ op.token :: us) (.arith op a b) := by
  intro frames ho
  have hblocks : Blocks (Operator.arith op).leftLimit frames := by cases op <;> exact ho
  have hopens : op.leftCategory.Opens frames := by
    cases op with
    | power => exact Blocks.mono ho (by decide)
    | _ => exact ho
  obtain ⟨frames', a', hfeed, hreduce⟩ := ha frames hopens
  have hleft : reduce (Operator.arith op).leftLimit frames' a' = (frames, a) := by
    rw [hreduce _ (Nat.le_of_eq op.limit_leftCategory), reduce_of_blocks hblocks]
  rw [feed_append, hfeed, Option.bind_some, feed, step_arith hleft]
  have hright : op.rightCategory.Opens (.arith op a :: frames) := by
    cases op <;> simp [ArithOp.rightCategory, Category.Opens, precedence, Operator.arith,
      Operator.leftLimit]
  exact hb.complete hright (by cases op <;> decide) (Nat.le_of_eq op.limit_category.symm)

end Reads

theorem Derivation.reads {c : Category} (d : Derivation c) : Reads c d.tokens d.denote := by
  induction d with
  | ofProduct _ ih => exact Reads.pass ih
  | ofPower _ ih => exact Reads.pass ih
  | ofUnary _ ih => exact Reads.pass ih
  | ofRoll _ ih => exact Reads.pass ih
  | ofAtom _ ih => exact Reads.pass ih
  | sidesOfAtom _ ih => exact Reads.pass ih
  | add _ _ ihs ihp => exact Reads.arith .sum ihs ihp
  | sub _ _ ihs ihp => exact Reads.arith .difference ihs ihp
  | mul _ _ ihp ihq => exact Reads.arith .product ihp ihq
  | div _ _ ihp ihq => exact Reads.arith .quotient ihp ihq
  | pow _ _ ihu ihp => exact Reads.arith .power ihu ihp
  | signed sign _ ih => exact Reads.signed sign ih
  | sidesSigned sign _ ih => exact Reads.sidesSigned sign ih
  | dice _ _ ihr ihs => exact Reads.dice ihr ihs
  | die _ ih => exact Reads.die ih (.inl rfl)
  | sidesDie _ ih => exact Reads.die ih (.inr rfl)
  | number value => exact Reads.number value
  | paren _ ih => exact Reads.paren ih

theorem Derives.feed_finish {ts : List Token} {e : Expr} (h : Derives .sum ts e) :
    (start.feed ts).bind finish? = some e := by
  obtain ⟨d, rfl, rfl⟩ := h
  obtain ⟨frames, e, hfeed, hreduce⟩ := d.reads [] (by simp [Category.Opens, Blocks])
  have hend : reduce Operator.loosest frames e = ([], d.denote) := hreduce _ (by decide)
  rw [start, hfeed]
  simp [finish?, hend]

/-! ## What the reader holds is a phrase -/

def Frame.operand : Frame → Category
  | .paren => .sum
  | .dice _ => .sides
  | .sidesSign _ => .sides
  | .sign _ => .unary
  | .arith op _ => op.rightCategory

/-- The category of the phrase that has to follow the frames. -/
def Frame.gap : List Frame → Category
  | [] => .sum
  | frame :: _ => frame.operand

/-- The tokens that the frames were made of. Each frame begins a phrase that fits into the gap of
the frames below it. -/
inductive Spells : List Frame → List Token → Prop
  | nil : Spells [] []
  | paren {frames : List Frame} {ts : List Token} (below : Spells frames ts) :
      Spells (.paren :: frames) (ts ++ [.openParen])
  | sign {frames : List Frame} {ts : List Token} (sign : Sign) (below : Spells frames ts)
      (fits : Category.unary.Within (gap frames)) :
      Spells (.sign sign :: frames) (ts ++ [sign.token])
  | sidesSign {frames : List Frame} {ts : List Token} (sign : Sign) (below : Spells frames ts)
      (fits : gap frames = .sides) :
      Spells (.sidesSign sign :: frames) (ts ++ [sign.token])
  | die {frames : List Frame} {ts : List Token} (below : Spells frames ts) :
      Spells (.dice (.literal 1) :: frames) (ts ++ [.die])
  | dice {frames : List Frame} {ts us : List Token} {count : Expr} (below : Spells frames ts)
      (fits : Category.roll.Within (gap frames)) (left : Derives .roll us count) :
      Spells (.dice count :: frames) (ts ++ (us ++ [.die]))
  | arith {frames : List Frame} {ts us : List Token} {lhs : Expr} (op : ArithOp)
      (below : Spells frames ts) (fits : op.category.Within (gap frames))
      (left : Derives op.leftCategory us lhs) :
      Spells (.arith op lhs :: frames) (ts ++ (us ++ [op.token]))

/-- The tokens are those of the frames and then those of a phrase that denotes the operand, fits
into the gap of the frames, and has no operator beyond the limit at its root. -/
def Holds (limit : Nat) (frames : List Frame) (operand : Expr) (tokens : List Token) : Prop :=
  ∃ c ts us, Spells frames ts ∧ Derives c us operand ∧ tokens = ts ++ us ∧
    c.Within (gap frames) ∧ c.limit ≤ limit

private theorem wantsSides_iff {frames : List Frame} : wantsSides frames ↔ gap frames = .sides := by
  cases frames with
  | nil => decide
  | cons frame frames =>
    cases frame with
    | arith op lhs => cases op <;> simp [wantsSides, gap, operand, ArithOp.rightCategory]
    | _ => simp [wantsSides, gap, operand]

private theorem within_gap {c : Category} {frames : List Frame} (h : gap frames ≠ .sides)
    (hc : c ≠ .sides) (hl : c.limit ≤ Category.unary.limit) : c.Within (gap frames) := by
  have hgap : Category.unary.limit ≤ (gap frames).limit := by
    cases frames with
    | nil => decide
    | cons frame frames =>
      change Category.unary.limit ≤ frame.operand.limit
      cases frame with
      | paren => decide
      | sign => exact Nat.le_refl _
      | arith op lhs =>
        change Category.unary.limit ≤ op.rightCategory.limit
        cases op <;> decide
      | dice => exact absurd rfl h
      | sidesSign => exact absurd rfl h
  exact (Category.within_iff h).mpr ⟨hc, Nat.le_trans hl hgap⟩

private theorem Frame.Blocks.gap_ne_sides {frames : List Frame}
    (h : Blocks Operator.dice.leftLimit frames) : gap frames ≠ .sides := by
  intro hgap
  exact Bool.false_ne_true (h.wantsSides_eq_false.symm.trans (wantsSides_iff.mpr hgap))

private theorem dice_le_leftLimit (op : ArithOp) :
    Operator.dice.leftLimit ≤ (Operator.arith op).leftLimit := by
  cases op <;> decide

private theorem within_rightCategory (op op' : ArithOp) :
    (Operator.arith op).leftLimit < (Operator.arith op').precedence →
      op.category.Within op'.rightCategory := by
  cases op <;> cases op' <;> decide

private theorem Frame.Blocks.within_gap {frames : List Frame} {op : ArithOp}
    (h : Blocks (Operator.arith op).leftLimit frames) : op.category.Within (gap frames) := by
  have hsum : op.category.Within .sum := by cases op <;> decide
  cases frames with
  | nil => exact hsum
  | cons frame frames =>
    have hf : (Operator.arith op).leftLimit < frame.precedence := blocks_cons.mp h
    cases frame with
    | paren => exact hsum
    | arith op' lhs => exact within_rightCategory op op' hf
    | sign sign =>
      have hsign : (Operator.sign sign).precedence ≤ (Operator.arith op).leftLimit := by
        cases op <;> cases sign <;> decide
      exact absurd hf (Nat.not_lt.mpr hsign)
    | dice => exact absurd hf (Nat.not_lt.mpr (dice_le_leftLimit op))
    | sidesSign => exact absurd hf (Nat.not_lt.mpr (dice_le_leftLimit op))

namespace Holds

variable {limit : Nat} {frames : List Frame} {frame : Frame} {ts us tokens : List Token} {e : Expr}

theorem complete (h : Spells (frame :: frames) ts) (hf : frame.precedence ≤ Operator.loosest)
    (he : Derives frame.operand us e) :
    Holds frame.precedence frames (frame.complete e) (ts ++ us) := by
  cases h with
  | paren => exact absurd hf (by decide)
  | sign sign below fits =>
    exact ⟨_, _, _, below, he.signed sign, by simp, fits, by cases sign <;> decide⟩
  | sidesSign sign below fits =>
    exact ⟨_, _, _, below, he.sidesSigned sign, by simp, fits ▸ Category.within_refl _,
      Nat.le_refl _⟩
  | die below =>
    by_cases hsides : gap frames = .sides
    · exact ⟨_, _, _, below, he.sidesDie, by simp, hsides ▸ Category.within_refl _, Nat.le_refl _⟩
    · have hfits : Category.roll.Within (gap frames) :=
        within_gap hsides (by decide) (by decide)
      exact ⟨_, _, _, below, he.die, by simp, hfits, Nat.le_refl _⟩
  | dice below fits left =>
    exact ⟨_, _, _, below, left.dice he, by simp, fits, Nat.le_refl _⟩
  | arith op below fits left =>
    exact ⟨_, _, _, below, left.arith op he, by simp, fits, Nat.le_of_eq op.limit_category⟩

private theorem mono {limit' : Nat} (h : Holds limit frames e tokens) (hl : limit ≤ limit') :
    Holds limit' frames e tokens := by
  obtain ⟨c, ts, us, hspells, hderives, htokens, hc, hlimit⟩ := h
  exact ⟨c, ts, us, hspells, hderives, htokens, hc, Nat.le_trans hlimit hl⟩

/-- Completing frames leaves the tokens as they are. -/
theorem reduce (h : Holds limit frames e tokens) (hl : limit ≤ Operator.loosest) :
    Holds limit (reduce limit frames e).1 (reduce limit frames e).2 tokens := by
  induction frames generalizing e with
  | nil => exact h
  | cons frame frames ih =>
    by_cases hf : frame.precedence ≤ limit
    · rw [reduce_cons_of_le hf]
      obtain ⟨c, ts, us, hspells, hderives, rfl, hc, _⟩ := h
      obtain ⟨c', ts', us', hspells', hderives', htokens, hc', hlimit⟩ :=
        complete hspells (Nat.le_trans hf hl) (hderives.widen hc)
      exact ih ⟨c', ts', us', hspells', hderives', htokens, hc', Nat.le_trans hlimit hf⟩
    · simpa only [Frame.reduce, if_neg hf] using h

/-- Where the frames are left alone within a limit, the operand is a phrase of that limit. -/
theorem exists_derives {c : Category} (h : Holds limit frames e tokens)
    (hblocks : Blocks limit frames) (hdice : Operator.dice.leftLimit ≤ limit) (hc : c ≠ .sides)
    (hlimit : limit = c.limit) :
    ∃ ts us, Spells frames ts ∧ Derives c us e ∧ tokens = ts ++ us := by
  obtain ⟨c', ts, us, hspells, hderives, htokens, hwithin, hc'⟩ := h
  obtain ⟨hsides, _⟩ := (Category.within_iff (hblocks.mono hdice).gap_ne_sides).mp hwithin
  have hwiden : c'.Within c := (Category.within_iff hc).mpr ⟨hsides, hlimit ▸ hc'⟩
  exact ⟨ts, us, hspells, hderives.widen hwiden, htokens⟩

end Holds

/-- The reader's state accounts for the tokens; an operand that was just read is an atom. -/
def Reader.AccountsFor : Reader → List Token → Prop
  | .wanting frames, tokens => Spells frames tokens
  | .holding frames e, tokens => Holds Category.atom.limit frames e tokens

namespace Reader

variable {frames : List Frame} {e : Expr} {reader next : Reader} {token : Token}
  {tokens : List Token}

private theorem accountsFor_stepWanting (h : Spells frames tokens)
    (hstep : stepWanting frames token = some next) : next.AccountsFor (tokens ++ [token]) := by
  have hsign (sign : Sign) : Spells (ofSign frames sign :: frames) (tokens ++ [sign.token]) := by
    by_cases hsides : wantsSides frames
    · rw [ofSign, if_pos hsides]
      exact .sidesSign sign h (wantsSides_iff.mp hsides)
    · rw [ofSign, if_neg hsides]
      exact .sign sign h (within_gap (mt wantsSides_iff.mpr hsides) (by decide) (by decide))
  cases token <;> simp only [stepWanting, Option.some.injEq, reduceCtorEq] at hstep <;>
    subst hstep
  case number value =>
    exact ⟨_, _, _, h, .number value, rfl, Category.atom_within _, Nat.le_refl _⟩
  case plus => exact hsign .plus
  case minus => exact hsign .minus
  case die => exact .die h
  case openParen => exact .paren h

private theorem exists_left (limit : Nat) (c : Category)
    (h : Holds Category.atom.limit frames e tokens) (hc : c ≠ .sides) (hlimit : limit = c.limit)
    (hdice : Operator.dice.leftLimit ≤ limit) (hl : limit ≤ Operator.loosest) :
    ∃ ts us, Spells (reduce limit frames e).1 ts ∧ Derives c us (reduce limit frames e).2 ∧
      tokens = ts ++ us :=
  ((h.mono (Nat.zero_le limit)).reduce hl).exists_derives (blocks_reduce limit frames e) hdice hc
    hlimit

private theorem accountsFor_arith (op : ArithOp) (h : Holds Category.atom.limit frames e tokens) :
    (wanting (.arith op (reduce (Operator.arith op).leftLimit frames e).2 ::
      (reduce (Operator.arith op).leftLimit frames e).1)).AccountsFor (tokens ++ [op.token]) := by
  have hsides : op.leftCategory ≠ .sides := by cases op <;> decide
  have hloosest : (Operator.arith op).leftLimit ≤ Operator.loosest := by cases op <;> decide
  obtain ⟨ts, us, hspells, hleft, rfl⟩ := exists_left (Operator.arith op).leftLimit
    op.leftCategory h hsides op.limit_leftCategory.symm (dice_le_leftLimit op) hloosest
  rw [List.append_assoc]
  exact .arith op hspells (blocks_reduce _ frames e).within_gap hleft

private theorem accountsFor_dice (h : Holds Category.atom.limit frames e tokens) :
    (wanting (.dice (reduce Operator.dice.leftLimit frames e).2 ::
      (reduce Operator.dice.leftLimit frames e).1)).AccountsFor (tokens ++ [.die]) := by
  obtain ⟨ts, us, hspells, hleft, rfl⟩ := exists_left Operator.dice.leftLimit .roll h
    (by decide) rfl (by decide) (by decide)
  have hfits : Category.roll.Within (gap (reduce Operator.dice.leftLimit frames e).1) :=
    within_gap (blocks_reduce _ frames e).gap_ne_sides (by decide) (by decide)
  rw [List.append_assoc]
  exact .dice hspells hfits hleft

private theorem accountsFor_closeParen (h : Holds Category.atom.limit frames e tokens)
    {frames' : List Frame} {e' : Expr}
    (hreduce : reduce Operator.loosest frames e = (.paren :: frames', e')) :
    (holding frames' e').AccountsFor (tokens ++ [.closeParen]) := by
  obtain ⟨ts, us, hspells, hsum, rfl⟩ := exists_left Operator.loosest .sum h
    (by decide) rfl (by decide) (Nat.le_refl _)
  rw [hreduce] at hspells hsum
  cases hspells with
  | paren below =>
    exact ⟨_, _, _, below, hsum.paren, by simp, Category.atom_within _, Nat.le_refl _⟩

private theorem accountsFor_stepHolding (h : Holds Category.atom.limit frames e tokens)
    (hstep : stepHolding frames e token = some next) : next.AccountsFor (tokens ++ [token]) := by
  cases token <;> simp only [stepHolding, arithOp?, Option.some.injEq, reduceCtorEq] at hstep
  case plus => exact hstep ▸ accountsFor_arith .sum h
  case minus => exact hstep ▸ accountsFor_arith .difference h
  case times => exact hstep ▸ accountsFor_arith .product h
  case divide => exact hstep ▸ accountsFor_arith .quotient h
  case power => exact hstep ▸ accountsFor_arith .power h
  case die => exact hstep ▸ accountsFor_dice h
  case closeParen =>
    split at hstep
    · next hreduce =>
      obtain rfl := Option.some.inj hstep
      exact accountsFor_closeParen h hreduce
    · simp at hstep

theorem accountsFor_step (h : reader.AccountsFor tokens) (hstep : reader.step token = some next) :
    next.AccountsFor (tokens ++ [token]) := by
  cases reader with
  | wanting frames => exact accountsFor_stepWanting h hstep
  | holding frames e => exact accountsFor_stepHolding h hstep

theorem accountsFor_feed {ts : List Token} (h : reader.AccountsFor tokens)
    (hfeed : reader.feed ts = some next) : next.AccountsFor (tokens ++ ts) := by
  induction ts generalizing reader tokens with
  | nil =>
    simp only [feed, Option.some.injEq] at hfeed
    simpa [← hfeed] using h
  | cons token ts ih =>
    obtain ⟨mid, hstep, hfeed⟩ := Option.bind_eq_some_iff.mp hfeed
    simpa using ih (accountsFor_step h hstep) hfeed

/-- The reader takes the tokens to an expression exactly when they derive it from a sum. -/
theorem feed_finish_iff {ts : List Token} :
    (start.feed ts).bind finish? = some e ↔ Derives .sum ts e := by
  constructor
  · intro h
    obtain ⟨reader, hfeed, hfinish⟩ := Option.bind_eq_some_iff.mp h
    have hstart : start.AccountsFor [] := Spells.nil
    have haccounts : reader.AccountsFor ts := accountsFor_feed hstart hfeed
    cases reader with
    | wanting => simp [finish?] at hfinish
    | holding frames operand =>
      obtain ⟨ts', us, hspells, hsum, rfl⟩ := exists_left Operator.loosest .sum haccounts
        (by decide) rfl (by decide) (Nat.le_refl _)
      rw [finish?] at hfinish
      split at hfinish
      · next e' hreduce =>
        rw [hreduce] at hspells hsum
        cases hspells
        obtain rfl := Option.some.inj hfinish
        exact hsum
      · simp at hfinish
  · exact Derives.feed_finish

end Reader

end DiceCalculator
