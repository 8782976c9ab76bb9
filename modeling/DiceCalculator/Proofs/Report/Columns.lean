import DiceCalculator.Proofs.Expr.Construction
import DiceCalculator.Proofs.Expr.Sampling
import DiceCalculator.Proofs.Number.Decimal
import DiceCalculator.Proofs.Terminal.Lines
import DiceCalculator.Report.Law
import Mathlib.Tactic.Linarith
/-!
# Columns of a report without colours

A line of the report of a distribution has a column for the value and one for the percentage. What
keeps them apart are the blanks that fill up the second one, so that white space separates them
exactly as long as the percentage does not need all of its six characters.
-/
namespace DiceCalculator.Report

/-- The fields of a line are what white space separates. -/
def fields (line : List Char) : List (List Char) :=
  (line.splitOnP Char.isWhitespace).filter (!·.isEmpty)

private theorem isWhitespace_eq_false {c : Char} (h : ' ' < c) : c.isWhitespace = false := by
  rw [Char.isWhitespace, Bool.or_eq_false_iff, Bool.or_eq_false_iff, Bool.or_eq_false_iff]
  simp only [decide_eq_false_iff_not]
  refine ⟨⟨⟨?_, ?_⟩, ?_⟩, ?_⟩
  all_goals
    rintro rfl
    exact absurd h (by decide)

section Fields

variable {word : List Char}

private theorem fields_blank (rest : List Char) : fields (' ' :: rest) = fields rest := by
  simp [fields, List.splitOnP_cons_eq_if_modifyHead]

private theorem fields_blanks (n : Nat) (rest : List Char) :
    fields (List.replicate n ' ' ++ rest) = fields rest := by
  induction n with
  | zero => rfl
  | succ n ih => rw [List.replicate_succ, List.cons_append, fields_blank, ih]

private theorem fields_word (hne : word ≠ []) (h : ∀ c ∈ word, ' ' < c) : fields word = [word] := by
  rw [fields, List.splitOnP_eq_singleton fun c hc => isWhitespace_eq_false (h c hc)]
  simp [hne]

private theorem fields_word_blank (hne : word ≠ []) (h : ∀ c ∈ word, ' ' < c) (rest : List Char) :
    fields (word ++ ' ' :: rest) = word :: fields rest := by
  rw [fields, List.splitOnP_append_cons_of_forall_mem
    (fun c hc => isWhitespace_eq_false (h c hc)) ' ' rfl]
  simp [hne, fields]

end Fields

theorem toList_padLeft (width : Nat) (text : String) :
    (padLeft width text).toList = List.replicate (width - text.length) ' ' ++ text.toList := by
  simp [padLeft]

variable {α : Type} [Weight α]

def percent (probability : α) : Quantity :=
  Weight.quantity (Weight.mul probability (Weight.ofInt 100))

def percentField (probability : α) : List Char :=
  (Decimal.fixed 2 (percent probability)).toList ++ ['%']

theorem toList_percentage (p : α) : (percentage p).toList =
    List.replicate (6 - (Decimal.fixed 2 (percent p)).length) ' ' ++ percentField p := by
  simp [percentage, toList_padLeft, percentField, percent]

private theorem blank_lt_of_mem_percentField {p : α} {c : Char} (h : c ∈ percentField p) :
    ' ' < c := by
  rw [percentField, List.mem_append] at h
  obtain hfixed | hsign := h
  · exact Decimal.blank_lt_of_mem_fixed hfixed
  · exact List.mem_singleton.mp hsign ▸ by decide

theorem isPrintable_padLeft_toString (width : Nat) (n : Int) :
    ∀ c ∈ (padLeft width (toString n)).toList, Terminal.IsPrintable c := by
  rw [toList_padLeft, List.forall_mem_append]
  exact ⟨Terminal.isPrintable_replicate (by decide) _,
    fun c hc => Terminal.isPrintable_of_blank_lt (blank_lt_of_mem_toString hc)⟩

theorem isPrintable_percentage (p : α) :
    ∀ c ∈ (percentage p).toList, Terminal.IsPrintable c := by
  rw [toList_percentage, List.forall_mem_append]
  exact ⟨Terminal.isPrintable_replicate (by decide) _,
    fun c hc => Terminal.isPrintable_of_blank_lt (blank_lt_of_mem_percentField hc)⟩

/-- The line of an outcome in a report without colours. -/
def plainLine (width : Nat) (o : Outcome α) : StyledText :=
  StyledText.plain "  " ++ StyledText.styled true .blue (padLeft width (toString o.value)) ++
    StyledText.plain (percentage o.probability)

private theorem characters_plainLine (width : Nat) (o : Outcome α) :
    (plainLine width o).characters =
      List.replicate (2 + (width - (toString o.value).length)) ' ' ++ ((toString o.value).toList ++
      (List.replicate (6 - (Decimal.fixed 2 (percent o.probability)).length) ' ' ++
        percentField o.probability)) := by
  simp [plainLine, toList_padLeft, toList_percentage, List.replicate_add]

private theorem isPrintable_plainLine (width : Nat) (o : Outcome α) :
    ∀ c ∈ (plainLine width o).characters, Terminal.IsPrintable c := by
  simp only [plainLine, StyledText.characters_append, StyledText.characters_plain,
    StyledText.characters_styled, List.forall_mem_append]
  exact ⟨⟨Terminal.isPrintable_of_all rfl, isPrintable_padLeft_toString width o.value⟩,
    isPrintable_percentage o.probability⟩

/-- White space separates the two columns if and only if the percentage leaves a blank. -/
theorem fields_plainLine_iff (width : Nat) (o : Outcome α) :
    fields (plainLine width o).characters =
        [(toString o.value).toList, percentField o.probability] ↔
      (percent o.probability).IsShort := by
  have hvalue := toList_toString_ne_nil o.value
  have hvalueText : ∀ c ∈ (toString o.value).toList, ' ' < c := fun _ => blank_lt_of_mem_toString
  have hpercent : percentField o.probability ≠ [] := by simp [percentField]
  have hpercentText : ∀ c ∈ percentField o.probability, ' ' < c :=
    fun _ => blank_lt_of_mem_percentField
  rw [← Decimal.length_fixed_lt_iff, characters_plainLine, fields_blanks]
  constructor
  · intro hfields
    by_contra hlong
    have hzero : 6 - (Decimal.fixed 2 (percent o.probability)).length = 0 := by omega
    rw [hzero, List.replicate_zero, List.nil_append,
      fields_word (List.append_ne_nil_of_left_ne_nil hvalue _)
        (List.forall_mem_append.mpr ⟨hvalueText, hpercentText⟩)] at hfields
    simpa using congrArg List.length hfields
  · intro hshort
    obtain ⟨blanks, hblanks⟩ : ∃ blanks,
        6 - (Decimal.fixed 2 (percent o.probability)).length = blanks + 1 :=
      Nat.exists_eq_succ_of_ne_zero (by omega)
    rw [hblanks, List.replicate_succ, List.cons_append, fields_word_blank hvalue hvalueText,
      fields_blanks, fields_word hpercent hpercentText]

theorem mapM_eq_ok {β γ ε : Type} {f : β → Except ε γ} {g : β → γ} {items : List β}
    (h : ∀ b ∈ items, f b = .ok (g b)) : items.mapM f = .ok (items.map g) := by
  induction items with
  | nil => rfl
  | cons b items ih =>
    rw [List.forall_mem_cons] at h
    rw [List.mapM_cons, h.1, ih h.2]
    rfl

theorem law_without_colors (e : Expr) (d : Distribution α) (terminalWidth lineWidth : Int) :
    law e d false terminalWidth lineWidth =
      .ok (StyledText.joinLines (d.outcomes.map (plainLine (valueWidth d.values)))) := by
  have hlines : d.outcomes.mapM (outcomeLine (valueWidth d.values) none) =
      .ok (d.outcomes.map (plainLine (valueWidth d.values))) :=
    mapM_eq_ok fun _ _ => rfl
  simp [law, hlines]

/-- The report without colours has one line for each outcome, in their order, and white space splits
it into the value and the percentage. -/
def ReadsByColumn (e : Expr) (d : Distribution α) (terminalWidth lineWidth : Int) : Prop :=
  ∃ text, law e d false terminalWidth lineWidth = .ok text ∧
    List.Forall₂ (fun o line =>
        fields line = [(toString o.value).toList, percentField o.probability])
      d.outcomes (Terminal.lines (text.print false).toList)

theorem readsByColumn_iff (e : Expr) (d : Distribution α) (terminalWidth lineWidth : Int) :
    ReadsByColumn e d terminalWidth lineWidth ↔
      d.outcomes ≠ [] ∧ ∀ o ∈ d.outcomes, (percent o.probability).IsShort := by
  simp only [ReadsByColumn, law_without_colors, Except.ok.injEq, exists_eq_left']
  by_cases hne : d.outcomes = []
  · have hlines : Terminal.lines ((StyledText.joinLines []).print false).toList = [[]] := by decide
    simp [hne, hlines]
  · rw [StyledText.lines_print (by simpa using hne), List.map_map, List.forall₂_map_right_iff,
      List.forall₂_same]
    · simp only [Function.comp_apply, fields_plainLine_iff, ne_eq, hne, not_false_eq_true, true_and]
    · intro line hline c hc
      obtain ⟨o, -, rfl⟩ := List.mem_map.mp hline
      exact isPrintable_plainLine _ o c hc

theorem quantity_rat {r : Rat} (h : 0 ≤ r) :
    Weight.quantity r = .finite false r.num.natAbs r.den := by
  change Quantity.finite (decide (r.num < 0)) _ _ = _
  rw [decide_eq_false (not_lt.mpr (Rat.num_nonneg.mpr h))]

theorem percent_rat {p : Rat} (hp : 0 ≤ p) :
    percent p = .finite false (p * 100).num.natAbs (p * 100).den := by
  have hpercent : 0 ≤ p * 100 := mul_nonneg hp (by norm_num)
  exact quantity_rat hpercent

private theorem isShort_percent_rat {p : Rat} (hp : 0 ≤ p) :
    (percent p).IsShort ↔ p < 19999 / 20000 := by
  rw [percent_rat hp]
  refine (roundHalfEven_rat_lt_iff (mul_nonneg hp (by norm_num)) (by decide)).trans ?_
  push_cast
  constructor
  all_goals
    intro h
    linarith only [h]

/-- The report of an expression lists the values in increasing order. White space separates them
from their percentages if and only if there is an outcome and no percentage needs six characters.
With exact weights that is to say that no percentage is rounded to one hundred: where a value is
certain, or almost certain, value and percentage are run together. -/
theorem law_readsByColumn_iff (e : Expr) (terminalWidth lineWidth : Int) :
    (∀ (α : Type) [Weight α] (d : Distribution α), e.distribution = .ok d →
      d.values.Pairwise (· < ·) ∧
        (ReadsByColumn e d terminalWidth lineWidth ↔
          d.outcomes ≠ [] ∧ ∀ o ∈ d.outcomes, (percent o.probability).IsShort)) ∧
      ∀ d : Distribution Rat, e.distribution = .ok d →
        (ReadsByColumn e d terminalWidth lineWidth ↔
          ∀ o ∈ d.outcomes, o.probability < 19999 / 20000) := by
  refine ⟨fun α _ d h => ⟨?_, readsByColumn_iff ..⟩, fun d h => ?_⟩
  · obtain ⟨value, rfl, -⟩ | rfl := Expr.distribution_eq_ofMasses h
    · exact List.pairwise_singleton _ _
    · exact Distribution.sorted_ofTally _
  · have hproper : d.IsProper := Expr.isProper_of_law ((Expr.distribution_eq_law e).symm.trans h)
    have hne : d.outcomes ≠ [] := by
      intro hempty
      have hmass := hproper.mass
      rw [Distribution.expect, hempty] at hmass
      exact absurd hmass (by decide)
    have hshort (o : Outcome Rat) (ho : o ∈ d.outcomes) :=
      isShort_percent_rat (hproper.positive o ho).le
    rw [readsByColumn_iff]
    exact ⟨fun hread o ho => (hshort o ho).mp (hread.2 o ho),
      fun hbelow => ⟨hne, fun o ho => (hshort o ho).mpr (hbelow o ho)⟩⟩

theorem law_readsByColumn_of_four_faces :
    let e : Expr := .dice (.literal 1) (.literal 4)
    let d : Distribution Float := ⟨[⟨1, 0.25⟩, ⟨2, 0.25⟩, ⟨3, 0.25⟩, ⟨4, 0.25⟩]⟩
    let exact : Distribution Rat := ⟨[⟨1, 1 / 4⟩, ⟨2, 1 / 4⟩, ⟨3, 1 / 4⟩, ⟨4, 1 / 4⟩]⟩
    e.distribution = .ok d ∧ e.distribution = .ok exact ∧ d.values.Pairwise (· < ·) ∧
      ReadsByColumn e d 80 75 ∧ ReadsByColumn e exact 80 75 := by
  intro e d exact
  have hd : e.distribution = .ok d := by decide +kernel
  have hexact : e.distribution = .ok exact := by decide +kernel
  have hlaw := (law_readsByColumn_iff e 80 75).1 Float d hd
  exact ⟨hd, hexact, hlaw.1, hlaw.2.mpr (by decide +kernel),
    ((law_readsByColumn_iff e 80 75).2 exact hexact).mpr (by decide +kernel)⟩

/-- A certain value: its line is one field. -/
theorem law_runs_together_of_literal :
    let e : Expr := .literal 5
    let d : Distribution Float := .constant 5
    e.distribution = .ok d ∧
      (law e d false 80 75).map (StyledText.print false) = .ok "  5100.00%\n" ∧
      ¬ ReadsByColumn e d 80 75 := by
  intro e d
  refine ⟨rfl, by decide +kernel, fun hread => ?_⟩
  exact absurd ((readsByColumn_iff ..).mp hread) (by decide +kernel)

end DiceCalculator.Report
