import DiceCalculator.Diagnostic
import DiceCalculator.Proofs.Expr.Reading
import DiceCalculator.Proofs.Expr.Viability
/-!
# Where a text stops making sense

A text that is no expression either ends too early, so that more tokens would make it one, or it
stops at a place: the tokens before it begin some sentence, and what stands there is a token with
which no sentence goes on, or a character that begins no token. The reader tells the two apart and
finds the place.
-/
namespace DiceCalculator

namespace Token

/-- These tokens are cut off the front of a text, each the longest at its place, and so are the
blanks between them. The rest is left. -/
inductive Cuts : List Char → List Token → List Char → Prop
  | nil (rest : List Char) : Cuts rest [] rest
  | blank {c : Char} {text rest : List Char} {tokens : List Token}
      (blank : c ∈ [' ', '\t', '\x0c', '\r', '\n']) (later : Cuts text tokens rest) :
      Cuts (c :: text) tokens rest
  | token {token : Token} {word text rest : List Char} {tokens : List Token}
      (spelled : Spelled token word) (longest : Longest word text) (later : Cuts text tokens rest) :
      Cuts (word ++ text) (token :: tokens) rest

/-- What stands in front cannot follow these tokens: the longest word there belongs to a token with
which no sentence goes on, whatever comes later, or the first character begins no token. -/
inductive Misfit (tokens : List Token) : List Char → Nat → Prop
  | token {token : Token} {word rest : List Char} (spelled : Spelled token word)
      (longest : Longest word rest) (unviable : ¬ Viable (tokens ++ [token])) :
      Misfit tokens (word ++ rest) word.length
  | character {c : Char} {rest : List Char} (blank : c ∉ [' ', '\t', '\x0c', '\r', '\n'])
      (begins : ∀ token word, Spelled token word → word.head? ≠ some c) :
      Misfit tokens (c :: rest) 1

private theorem Misfit.length_le {tokens : List Token} {rest : List Char} {length : Nat}
    (h : Misfit tokens rest length) : length ≤ rest.length := by
  cases h with
  | token => simp
  | character => simp

private theorem Spelled.exists_singleton {token : Token} {word : List Char} {c : Char}
    (h : Spelled token word) (hhead : word.head? = some c) : ∃ token', Spelled token' [c] := by
  have hword := h
  cases h with
  | number _ _ decimal =>
    have hc : ∀ d ∈ [c], d.isDigit := by simpa using decimal c (List.mem_of_mem_head? hhead)
    exact ⟨_, .number [c] (by simp) hc⟩
  | power =>
    obtain rfl := Option.some.inj hhead
    exact ⟨_, .times⟩
  | _ =>
    obtain rfl := Option.some.inj hhead
    exact ⟨_, hword⟩

/-- Whether the scanner finds a token is decided by the first character alone. -/
theorem first?_eq_none_iff {c : Char} {rest : List Char} :
    first? (c :: rest) = none ↔ ∀ token word, Spelled token word → word.head? ≠ some c := by
  constructor
  · intro hnone token word hs hhead
    obtain ⟨single, hsingle⟩ := hs.exists_singleton hhead
    obtain ⟨found, n, hfirst, _⟩ := hsingle.exists_first? (List.prefix_append [c] rest)
    rw [List.singleton_append, hnone] at hfirst
    exact absurd hfirst (by simp)
  · intro hbegins
    cases hfirst : first? (c :: rest) with
    | none => rfl
    | some found =>
      obtain ⟨_, hs⟩ := spelled_of_first? hfirst
      obtain ⟨d, tail, hword, _⟩ := hs.exists_cons
      have hd : d = c := (List.cons_prefix_cons.mp (hword ▸ List.take_prefix _ _)).1
      exact absurd (by rw [hword, hd]; rfl) (hbegins _ _ hs)

variable {start length : Nat} {text rest : List Char} {before tokens : List Token}
  {reader : Reader}

/-! ## Each text is a sentence, ends early or stops at a misfit -/

theorem exists_cuts (text : List Char) : ∃ tokens rest, Cuts text tokens rest ∧
    (rest = [] ∨ ∀ before, Misfit before rest 1) := by
  -- on the length of the text, as a word may take off several characters at once
  induction hn : text.length using Nat.strong_induction_on generalizing text with
  | _ n ih =>
    cases text with
    | nil => exact ⟨[], [], .nil [], .inl rfl⟩
    | cons c text =>
      by_cases hb : c ∈ [' ', '\t', '\x0c', '\r', '\n']
      · obtain ⟨tokens, rest, hcuts, hrest⟩ := ih text.length (by simp [← hn]) text rfl
        exact ⟨tokens, rest, .blank hb hcuts, hrest⟩
      · cases hfirst : first? (c :: text) with
        | none =>
          exact ⟨[], c :: text, .nil _,
            .inr fun _ => .character hb (first?_eq_none_iff.mp hfirst)⟩
        | some found =>
          obtain ⟨word, later, htext, hs, hl⟩ := exists_word_of_first? hfirst
          obtain ⟨d, tail, rfl, _⟩ := hs.exists_cons
          have hlater : later.length < n := by
            rw [← hn, htext, List.length_append, List.length_cons]
            omega
          obtain ⟨tokens, rest, hcuts, hrest⟩ := ih later.length hlater later rfl
          exact ⟨found.1 :: tokens, rest, htext ▸ .token hs hl hcuts, hrest⟩

private theorem Cuts.viable_or_misfit (h : Cuts text tokens rest) (hbefore : Viable before) :
    Viable (before ++ tokens) ∨ ∃ tokens rest length, Cuts text tokens rest ∧
      Viable (before ++ tokens) ∧ Misfit (before ++ tokens) rest length := by
  induction h generalizing before with
  | nil rest => exact .inl (by simpa using hbefore)
  | blank hb _ ih =>
    obtain htokens | ⟨us, left, length, hcuts, hus, hmisfit⟩ := ih hbefore
    · exact .inl htokens
    · exact .inr ⟨us, left, length, .blank hb hcuts, hus, hmisfit⟩
  | @token token word text rest tokens hs hl _ ih =>
    by_cases hviable : Viable (before ++ [token])
    · rw [List.append_cons]
      obtain htokens | ⟨us, left, length, hcuts, hus, hmisfit⟩ := ih hviable
      · exact .inl htokens
      · rw [← List.append_cons] at hus hmisfit
        exact .inr ⟨token :: us, left, length, .token hs hl hcuts, hus, hmisfit⟩
    · refine .inr ⟨[], word ++ text, word.length, .nil _, by simpa using hbefore, ?_⟩
      exact .token hs hl (by simpa using hviable)

theorem Cuts.splits (h : Cuts text tokens []) : Splits text tokens := by
  generalize hrest : ([] : List Char) = rest at h
  induction h with
  | nil => exact hrest ▸ .nil
  | blank hb _ ih => exact .blank hb (ih hrest)
  | token hs hl _ ih => exact .token hs hl (ih hrest)

private theorem Cuts.length_le (h : Cuts text tokens rest) : rest.length ≤ text.length := by
  induction h with
  | nil => exact Nat.le_refl _
  | blank _ _ ih => exact Nat.le_trans ih (by simp)
  | token _ _ _ ih => exact Nat.le_trans ih (by simp)

/-! ## The reader finds the end and the misfit -/

theorem Misfit.read (h : Misfit before rest length) (hfeed : Reader.start.feed before = some reader)
    (place : Nat) : reader.read (scanFrom place rest).illegal (scanFrom place rest).lexemes =
      .error (.unexpectedToken place length) := by
  cases h with
  | token hs hl hunviable =>
    rw [scanFrom_append hs hl]
    simp [Reader.read, (step_eq_none_iff hfeed).mpr hunviable]
  | @character c rest hb hbegins =>
    have hscan : scanFrom place (c :: rest) = ⟨[], some place⟩ := by
      rw [scanFrom, if_neg (mt isBlank_iff.mp hb)]
      simp only [first?_eq_none_iff.mpr hbegins]
    rw [hscan, Reader.read]

/-- The reader gets through the tokens before a misfit, as some sentence begins with them. -/
theorem Cuts.read (h : Cuts text tokens rest) (hfeed : Reader.start.feed before = some reader)
    (hviable : Viable (before ++ tokens)) (hmisfit : Misfit (before ++ tokens) rest length)
    {place : Nat} (hplace : start + rest.length = place + text.length) :
    reader.read (scanFrom place text).illegal (scanFrom place text).lexemes =
      .error (.unexpectedToken start length) := by
  induction h generalizing before reader place with
  | nil =>
    obtain rfl : start = place := by omega
    rw [List.append_nil] at hmisfit
    exact hmisfit.read hfeed start
  | blank hb _ ih =>
    rw [scanFrom_blank hb]
    rw [List.length_cons] at hplace
    exact ih hfeed hviable hmisfit (by omega)
  | @token token word text rest tokens hs hl _ ih =>
    obtain ⟨next, hstep, hnext⟩ := exists_step hfeed hviable
    rw [List.append_cons] at hviable hmisfit
    rw [List.length_append] at hplace
    rw [scanFrom_append hs hl]
    simp only [Reader.read, hstep]
    exact ih hnext hviable hmisfit (by omega)

end Token

open Token (Cuts Misfit Splits IsSentence Viable)

/-- The text splits into tokens that are no sentence, although some sentence begins with them. -/
def EndsEarly (text : String) : Prop :=
  ∃ tokens, Splits text.toList tokens ∧ ¬ IsSentence tokens ∧ Viable tokens

/-- At this place stands a misfit of this length. The tokens before it are the beginning of a
sentence; what comes behind it does not matter. -/
def StopsAt (text : String) (start length : Nat) : Prop :=
  ∃ tokens rest, Cuts text.toList tokens rest ∧ Viable tokens ∧
    start + rest.length = text.length ∧ Misfit tokens rest length

theorem StopsAt.le_length {text : String} {start length : Nat} (h : StopsAt text start length) :
    start + length ≤ text.length := by
  obtain ⟨_, rest, _, _, hplace, hmisfit⟩ := h
  have hlength := hmisfit.length_le
  omega

private theorem Reader.read_eq_unexpectedEnd {reader last : Reader} {lexemes : List Lexeme}
    (hfeed : reader.feed (lexemes.map (·.token)) = some last) (hfinish : last.finish? = none) :
    reader.read none lexemes = .error .unexpectedEnd := by
  induction lexemes generalizing reader with
  | nil =>
    obtain rfl := Option.some.inj hfeed
    simp [read, hfinish]
  | cons lexeme lexemes ih =>
    obtain ⟨next, hstep, hfeed⟩ := Option.bind_eq_some_iff.mp hfeed
    simpa only [read, hstep] using ih hfeed

namespace Expr

variable {text : String} {start length : Nat}

theorem parse_of_endsEarly (h : EndsEarly text) : Expr.parse text = .error .unexpectedEnd := by
  obtain ⟨tokens, hsplits, hsentence, hviable⟩ := h
  obtain ⟨hillegal, rfl⟩ := Token.splits_iff.mp hsplits
  obtain ⟨last, hfeed⟩ := Token.viable_iff.mp hviable
  have hfinish : last.finish? = none := by
    rw [Token.isSentence_iff, hfeed] at hsentence
    simpa [Option.eq_none_iff_forall_ne_some] using hsentence
  rw [Expr.parse, hillegal]
  exact Reader.read_eq_unexpectedEnd hfeed hfinish

theorem parse_of_stopsAt (h : StopsAt text start length) :
    Expr.parse text = .error (.unexpectedToken start length) := by
  obtain ⟨tokens, rest, hcuts, hviable, hplace, hmisfit⟩ := h
  have hstart : Reader.start.feed [] = some Reader.start := rfl
  exact hcuts.read hstart hviable hmisfit (by rw [String.length_toList]; omega)

/-- A text that is no expression ends early or stops somewhere. -/
theorem endsEarly_or_stopsAt (h : ∀ e, Expr.parse text ≠ .ok e) :
    EndsEarly text ∨ ∃ start length, StopsAt text start length := by
  have stops {tokens : List Token} {rest : List Char} {length : Nat}
      (hcuts : Cuts text.toList tokens rest) (hviable : Viable tokens)
      (hmisfit : Misfit tokens rest length) : ∃ start length, StopsAt text start length := by
    have hrest := hcuts.length_le
    rw [String.length_toList] at hrest
    exact ⟨text.length - rest.length, length, tokens, rest, hcuts, hviable, by omega, hmisfit⟩
  have hnil : Viable [] := Token.viable_iff.mpr ⟨Reader.start, rfl⟩
  obtain ⟨tokens, rest, hcuts, hrest⟩ := Token.exists_cuts text.toList
  obtain hviable | ⟨us, left, length, hcuts, hviable, hmisfit⟩ := hcuts.viable_or_misfit hnil
  · obtain rfl | hrest := hrest
    · refine .inl ⟨tokens, hcuts.splits, ?_, hviable⟩
      rintro ⟨e, he⟩
      exact h e (Expr.parse_eq_ok_iff.mpr ⟨tokens, hcuts.splits, he⟩)
    · exact .inr (stops hcuts hviable (hrest tokens))
  · exact .inr (stops hcuts hviable hmisfit)

/-- A text that is rejected either ends early or stops at a place, and it is said which. At the end
no token is named. At a place the part that does not fit is named, even if characters that begin no
token come later, and it lies within the text. -/
theorem parse_error_locates_misfit {error : ParseError} (h : Expr.parse text = .error error) :
    let diagnostic := Diagnostic.ofParseError text error
    Xor (EndsEarly text) (∃ start length, StopsAt text start length) ∧
      (EndsEarly text →
        diagnostic.message = "Unexpected end of input." ∧ diagnostic.token = none) ∧
      ∀ start length : Nat, StopsAt text start length →
        diagnostic.token = some ⟨start, length⟩ ∧ diagnostic.position = some (start + 1) ∧
          start + length ≤ text.length := by
  have hends (hearly : EndsEarly text) : error = .unexpectedEnd :=
    Except.error.inj (h.symm.trans (parse_of_endsEarly hearly))
  have hstops {start length : Nat} (hstop : StopsAt text start length) :
      error = .unexpectedToken start length :=
    Except.error.inj (h.symm.trans (parse_of_stopsAt hstop))
  have hexclusive (hearly : EndsEarly text) : ¬ ∃ start length, StopsAt text start length := by
    rintro ⟨start, length, hstop⟩
    exact absurd ((hends hearly).symm.trans (hstops hstop)) (by simp)
  have hrejected (e : Expr) : Expr.parse text ≠ .ok e := by simp [h]
  refine ⟨?_, fun hearly => ?_, fun start length hstop => ?_⟩
  · obtain hearly | hstop := endsEarly_or_stopsAt hrejected
    · exact .inl ⟨hearly, hexclusive hearly⟩
    · exact .inr ⟨hstop, fun hearly => hexclusive hearly hstop⟩
  · obtain rfl := hends hearly
    exact ⟨rfl, rfl⟩
  · obtain rfl := hstops hstop
    exact ⟨rfl, rfl, hstop.le_length⟩

theorem parse_error_of_second_operator :
    let text := "2 + (d6 ** ** 3 %"
    let diagnostic := Diagnostic.ofParseError text (.unexpectedToken 11 2)
    Expr.parse text = .error (.unexpectedToken 11 2) ∧ ¬ EndsEarly text ∧ StopsAt text 11 2 ∧
      diagnostic.token = some ⟨11, 2⟩ ∧ diagnostic.position = some 12 := by
  intro text diagnostic
  have hparse : Expr.parse text = .error (.unexpectedToken 11 2) := by decide +kernel
  obtain ⟨hcases, hends, hstops⟩ := parse_error_locates_misfit hparse
  have hnotEnds : ¬ EndsEarly text := by
    intro hearly
    obtain ⟨_, htoken⟩ := hends hearly
    cases htoken
  obtain ⟨hearly, _⟩ | ⟨⟨start, length, hstop⟩, _⟩ := hcases
  · exact absurd hearly hnotEnds
  · obtain ⟨htoken, hposition, _⟩ := hstops start length hstop
    obtain ⟨rfl, rfl⟩ : start = 11 ∧ length = 2 := by
      have hspan := Option.some.inj htoken
      simp only [Span.mk.injEq] at hspan
      omega
    exact ⟨hparse, hnotEnds, hstop, htoken, hposition⟩

end Expr

end DiceCalculator
