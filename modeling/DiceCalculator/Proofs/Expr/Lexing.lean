import DiceCalculator.Token
import Mathlib.Data.List.TakeWhile
/-!
# Cutting a text into tokens

A text splits into tokens when it is a sequence of words and blanks, and every word is the longest
that stands at its place. The scanner finds such a splitting exactly when there is one, and so there
is at most one.
-/
namespace DiceCalculator.Token

/-- The words of a token. A number is spelled in decimal digits, with or without leading zeros. -/
inductive Spelled : Token → List Char → Prop
  | number (digits : List Char) (nonempty : digits ≠ []) (decimal : ∀ c ∈ digits, c.isDigit) :
      Spelled (.number (Nat.ofDigitChars 10 digits 0)) digits
  | plus : Spelled .plus ['+']
  | minus : Spelled .minus ['-']
  | times : Spelled .times ['*']
  | divide : Spelled .divide ['/']
  | power : Spelled .power ['*', '*']
  | die : Spelled .die ['d']
  | openParen : Spelled .openParen ['(']
  | closeParen : Spelled .closeParen [')']

/-- No word of any token that starts at the same place is longer. -/
def Longest (word rest : List Char) : Prop :=
  ∀ token longer, Spelled token longer → longer <+: word ++ rest → longer.length ≤ word.length

/-- The text does not continue a number. -/
def NoDigitAhead (rest : List Char) : Prop :=
  ∀ c ∈ rest.head?, c.isDigit = false

/-- The text is made of the words of these tokens, each the longest at its place, and of blanks. -/
inductive Splits : List Char → List Token → Prop
  | nil : Splits [] []
  | blank {c : Char} {rest : List Char} {tokens : List Token}
      (blank : c ∈ [' ', '\t', '\x0c', '\r', '\n']) (later : Splits rest tokens) :
      Splits (c :: rest) tokens
  | token {token : Token} {word rest : List Char} {tokens : List Token}
      (spelled : Spelled token word) (longest : Longest word rest) (later : Splits rest tokens) :
      Splits (word ++ rest) (token :: tokens)

theorem isBlank_iff {c : Char} : isBlank c ↔ c ∈ [' ', '\t', '\x0c', '\r', '\n'] := by
  simp [isBlank, or_assoc]

namespace Spelled

variable {token token' : Token} {word text : List Char}

theorem zero_cons {value : Nat} (h : Spelled (.number value) word) :
    Spelled (.number value) ('0' :: word) := by
  cases h with
  | number _ nonempty decimal =>
    have hzero : ∀ c ∈ '0' :: word, c.isDigit := by
      intro c hc
      cases hc with
      | head => rfl
      | tail _ hc => exact decimal c hc
    exact .number ('0' :: word) (by simp) hzero

theorem unique (h : Spelled token word) (h' : Spelled token' word) : token = token' := by
  cases h <;> cases h' <;> simp_all

theorem exists_cons (h : Spelled token word) :
    ∃ c tail, word = c :: tail ∧ isBlank c = false := by
  cases h with
  | number _ nonempty decimal =>
    obtain ⟨c, tail, rfl⟩ := List.exists_cons_of_ne_nil nonempty
    have hc : c.isDigit := decimal c (by simp)
    refine ⟨c, tail, rfl, Bool.eq_false_iff.mpr ?_⟩
    intro hb
    have hmem := isBlank_iff.mp hb
    simp only [List.mem_cons, List.not_mem_nil, or_false] at hmem
    rcases hmem with rfl | rfl | rfl | rfl | rfl <;> exact absurd hc (by decide)
  | _ => exact ⟨_, _, rfl, rfl⟩

end Spelled

private theorem first?_of_isDigit {c : Char} {rest : List Char} (hc : c.isDigit) :
    first? (c :: rest) = some (.number (decimal (c :: rest.takeWhile Char.isDigit)),
      (rest.takeWhile Char.isDigit).length + 1) := by
  rw [first?]
  · simp [hc]
  all_goals
    intros
    subst_vars
    exact absurd hc (by decide)

theorem spelled_of_first? {text : List Char} {token : Token} {n : Nat}
    (h : first? text = some (token, n)) : n ≤ text.length ∧ Spelled token (text.take n) := by
  revert h
  fun_cases first? text <;> intro h
  case case11 c rest _ _ _ _ _ _ _ _ digits hne =>
    obtain ⟨rfl, rfl⟩ : Token.number (decimal digits) = token ∧ digits.length = n := by
      simpa using h
    have hfront : digits <+: c :: rest := List.takeWhile_prefix _
    rw [← List.prefix_iff_eq_take.mp hfront]
    exact ⟨hfront.length_le, .number digits (by simpa using hne) fun _ => List.mem_takeWhile_imp⟩
  all_goals simp at h
  all_goals
    obtain ⟨rfl, rfl⟩ := h
    exact ⟨by simp, by constructor⟩

theorem Spelled.exists_first? {text word : List Char} {token : Token} (h : Spelled token word)
    (hw : word <+: text) : ∃ found n, first? text = some (found, n) ∧ word.length ≤ n := by
  obtain ⟨rest, rfl⟩ := hw
  cases h with
  | number _ nonempty decimal =>
    obtain ⟨c, tail, rfl⟩ := List.exists_cons_of_ne_nil nonempty
    have htail : ∀ c ∈ tail, c.isDigit := fun c hc => decimal c (by simp [hc])
    refine ⟨_, _, first?_of_isDigit (decimal c (by simp)), ?_⟩
    have hlong : (tail ++ rest).takeWhile Char.isDigit = tail ++ rest.takeWhile Char.isDigit :=
      List.takeWhile_append_of_pos htail
    simp [hlong]
  | times =>
    cases rest with
    | nil => exact ⟨_, _, rfl, by simp⟩
    | cons c rest =>
      by_cases hc : c = '*'
      · subst hc
        exact ⟨_, _, rfl, by simp⟩
      · exact ⟨.times, 1, by simp [first?, hc], by simp⟩
  | _ => exact ⟨_, _, rfl, by simp⟩

/-- The scanner finds exactly the longest word at the front of a text. -/
theorem first?_append {token : Token} {word rest : List Char} (hs : Spelled token word)
    (hl : Longest word rest) : first? (word ++ rest) = some (token, word.length) := by
  obtain ⟨found, n, hfirst, hn⟩ := hs.exists_first? (List.prefix_append word rest)
  obtain ⟨hle, hfound⟩ := spelled_of_first? hfirst
  have hlength := hl found _ hfound (List.take_prefix n _)
  rw [List.length_take_of_le hle] at hlength
  obtain rfl : n = word.length := by omega
  rw [List.take_left] at hfound
  rw [hfirst, hs.unique hfound]

theorem longest_of_first? {text : List Char} {token : Token} {n : Nat}
    (h : first? text = some (token, n)) : Longest (text.take n) (text.drop n) := by
  intro other longer hs hfront
  rw [List.take_append_drop] at hfront
  obtain ⟨found, m, hfirst, hm⟩ := hs.exists_first? hfront
  obtain ⟨rfl, rfl⟩ : found = token ∧ m = n := by simpa [h, eq_comm] using hfirst
  simpa [(spelled_of_first? h).1] using hm

theorem scanFrom_blank {c : Char} {rest : List Char} {place : Nat}
    (hb : c ∈ [' ', '\t', '\x0c', '\r', '\n']) :
    scanFrom place (c :: rest) = scanFrom (place + 1) rest := by
  rw [scanFrom, if_pos (isBlank_iff.mpr hb)]

theorem scanFrom_append {token : Token} {word rest : List Char} {place : Nat}
    (hs : Spelled token word) (hl : Longest word rest) :
    scanFrom place (word ++ rest) =
      ⟨⟨token, place, word.length⟩ :: (scanFrom (place + word.length) rest).lexemes,
        (scanFrom (place + word.length) rest).illegal⟩ := by
  obtain ⟨c, tail, rfl, hc⟩ := hs.exists_cons
  have hfirst := first?_append hs hl
  have hdrop : (tail ++ rest).drop ((c :: tail).length - 1) = rest := by simp
  rw [List.cons_append] at hfirst ⊢
  rw [scanFrom, if_neg (by simp [hc])]
  simp only [hfirst, hdrop]

theorem exists_word_of_first? {text : List Char} {token : Token} {n : Nat}
    (h : first? text = some (token, n)) :
    ∃ word rest, text = word ++ rest ∧ Spelled token word ∧ Longest word rest :=
  ⟨text.take n, text.drop n, (List.take_append_drop n text).symm, (spelled_of_first? h).2,
    longest_of_first? h⟩

namespace Splits

variable {text rest : List Char} {tokens tokens' : List Token} {token : Token}

theorem of_first? {n : Nat} (h : first? text = some (token, n))
    (later : Splits (text.drop n) tokens) : Splits text (token :: tokens) := by
  have hsplits := Splits.token (spelled_of_first? h).2 (longest_of_first? h) later
  rwa [List.take_append_drop] at hsplits

theorem number (value : Nat) (hrest : NoDigitAhead rest) (later : Splits rest tokens) :
    Splits (Nat.toDigits 10 value ++ rest) (.number value :: tokens) := by
  have hdigits : ∀ c ∈ Nat.toDigits 10 value, c.isDigit :=
    fun c hc => Nat.isDigit_of_mem_toDigits (by decide) (by decide) hc
  have hnil : Nat.toDigits 10 value ≠ [] := Nat.toDigits_ne_nil
  have hspelled := Spelled.number _ hnil hdigits
  rw [Nat.ofDigitChars_ten_toDigits] at hspelled
  refine .token hspelled ?_ later
  have hstop : rest.takeWhile Char.isDigit = [] := by
    cases rest with
    | nil => rfl
    | cons c rest => simp [hrest c (by simp)]
  obtain ⟨c, tail, hcons⟩ := List.exists_cons_of_ne_nil hnil
  rw [hcons] at hdigits ⊢
  intro other longer hs hfront
  obtain ⟨found, n, hfirst, hn⟩ := hs.exists_first? hfront
  have htail : (tail ++ rest).takeWhile Char.isDigit = tail := by
    rw [List.takeWhile_append_of_pos fun d hd => hdigits d (by simp [hd]), hstop, List.append_nil]
  rw [List.cons_append, first?_of_isDigit (hdigits c (by simp)), htail] at hfirst
  obtain ⟨_, rfl⟩ := Prod.mk.inj (Option.some.inj hfirst)
  simpa using hn

private theorem scanFrom (h : Splits text tokens) (place : Nat) :
    (scanFrom place text).illegal = none ∧
      (scanFrom place text).lexemes.map (·.token) = tokens := by
  induction h generalizing place with
  | nil => simp [Token.scanFrom]
  | blank hb _ ih =>
    rw [scanFrom_blank hb]
    exact ih (place + 1)
  | @token token word rest tokens hs hl _ ih =>
    rw [scanFrom_append hs hl]
    obtain ⟨hillegal, htokens⟩ := ih (place + word.length)
    exact ⟨hillegal, congrArg (token :: ·) htokens⟩

private theorem of_scanFrom (place : Nat) (text : List Char)
    (h : (Token.scanFrom place text).illegal = none) :
    Splits text ((Token.scanFrom place text).lexemes.map (·.token)) := by
  fun_induction Token.scanFrom place text with
  | case1 => exact .nil
  | case2 place c rest hb ih => exact .blank (isBlank_iff.mp hb) (ih h)
  | case3 => simp at h
  | case4 place c rest hb token n hfirst later ih =>
    obtain ⟨_, _, hword, _⟩ := (spelled_of_first? hfirst).2.exists_cons
    cases n with
    | zero => simp at hword
    | succ n => exact of_first? hfirst (ih h)

end Splits

/-- A text splits exactly into the tokens that the scanner finds in it. -/
theorem splits_iff {text : String} {tokens : List Token} :
    Splits text.toList tokens ↔
      (scan text).illegal = none ∧ (scan text).lexemes.map (·.token) = tokens := by
  constructor
  · intro h
    exact h.scanFrom 0
  · rintro ⟨hillegal, rfl⟩
    exact Splits.of_scanFrom 0 text.toList hillegal

end DiceCalculator.Token
