import DiceCalculator.Proofs.Report.Columns
import DiceCalculator.Proofs.Terminal.Markup
import Mathlib.Algebra.Order.Floor.Semifield
import Mathlib.Data.Rat.Floor
/-!
# The bars of a report in colour

A line of the chart has a fixed part, which ends with the percentage, and a bar in front of that.
The bars of the most probable outcomes fill what the width leaves beside the fixed part, and all
others are in proportion to them, so that the chart is as wide as it may be and never narrower than
the fixed part.
-/
namespace DiceCalculator.Report

/-- A fold by the maximum gives the start value or the greatest image, whichever is greater. -/
private theorem foldl_max {β γ : Type} [LinearOrder γ] (f : β → γ) (items : List β) (start : γ) :
    let top := items.foldl (fun top b => max top (f b)) start
    start ≤ top ∧ (∀ b ∈ items, f b ≤ top) ∧ (top = start ∨ ∃ b ∈ items, f b = top) := by
  induction items generalizing start with
  | nil => simp
  | cons b items ih =>
    obtain ⟨hstart, hitems, hattained⟩ := ih (max start (f b))
    rw [List.foldl_cons]
    refine ⟨(le_max_left _ _).trans hstart,
      List.forall_mem_cons.mpr ⟨(le_max_right _ _).trans hstart, hitems⟩, ?_⟩
    obtain htop | ⟨b', hb', htop⟩ := hattained
    · obtain hle | hle := le_total (f b) start
      · exact .inl (htop.trans (max_eq_left hle))
      · exact .inr ⟨b, List.mem_cons_self, (htop.trans (max_eq_right hle)).symm⟩
    · exact .inr ⟨b', List.mem_cons_of_mem b hb', htop⟩

private theorem length_le_valueWidth {values : List Int} {value : Int} (h : value ∈ values) :
    (toString value).length ≤ valueWidth values :=
  (foldl_max (fun value : Int => (toString value).length) values 0).2.1 value h

private theorem exists_length_eq_valueWidth {values : List Int} (h : values ≠ []) :
    ∃ value ∈ values, (toString value).length = valueWidth values := by
  obtain ⟨-, hle, hzero | hattained⟩ :=
    foldl_max (fun value : Int => (toString value).length) values 0
  · obtain ⟨value, hvalue⟩ := List.exists_mem_of_ne_nil values h
    have hwidth : valueWidth values = 0 := hzero
    have hlength := length_le_valueWidth hvalue
    exact ⟨value, hvalue, by omega⟩
  · exact hattained

private theorem peak_eq_foldl_max {first : Outcome Rat} {rest : List (Outcome Rat)} :
    peak ⟨first :: rest⟩ =
      rest.foldl (fun top o => max top o.probability) first.probability := by
  have hstep : (fun (top : Rat) (o : Outcome Rat) =>
      if Weight.less top o.probability then o.probability else top) =
        fun top o => max top o.probability := by
    funext top o
    rw [max_def_lt]
    simp [Weight.less]
  simp only [peak, hstep]

theorem le_peak {d : Distribution Rat} {o : Outcome Rat} (h : o ∈ d.outcomes) :
    o.probability ≤ peak d := by
  obtain ⟨outcomes⟩ := d
  cases outcomes with
  | nil => exact absurd h List.not_mem_nil
  | cons first rest =>
    rw [peak_eq_foldl_max]
    obtain ⟨hfirst, hrest, -⟩ := foldl_max (fun o : Outcome Rat => o.probability) rest
      first.probability
    obtain rfl | ho := List.mem_cons.mp h
    · exact hfirst
    · exact hrest o ho

theorem exists_probability_eq_peak {d : Distribution Rat} (h : d.outcomes ≠ []) :
    ∃ o ∈ d.outcomes, o.probability = peak d := by
  obtain ⟨outcomes⟩ := d
  cases outcomes with
  | nil => exact absurd rfl h
  | cons first rest =>
    rw [peak_eq_foldl_max]
    obtain ⟨-, -, htop | ⟨o, ho, htop⟩⟩ := foldl_max (fun o : Outcome Rat => o.probability) rest
      first.probability
    · exact ⟨first, List.mem_cons_self, htop.symm⟩
    · exact ⟨o, List.mem_cons_of_mem first ho, htop⟩

/-- The length of a bar beside a room: the integer part of the share of the peak. -/
def barCount (top : Rat) (room : Int) (p : Rat) : Nat := ⌊p / top * room⌋₊

private theorem natFloor_eq {r : Rat} (h : 0 ≤ r) : ⌊r⌋₊ = r.num.natAbs / r.den := by
  have hr : r = (r.num.natAbs : Rat) / (r.den : Rat) := by
    rw [← Int.cast_natCast, Int.natAbs_of_nonneg (Rat.num_nonneg.mpr h), Rat.num_div_den]
  conv_lhs => rw [hr]
  exact Nat.floor_div_eq_div _ _

theorem barLength_eq {top p : Rat} {room : Int} (htop : 0 < top) (hroom : 0 ≤ room) (hp : 0 ≤ p) :
    barLength top room p = .ok (barCount top room p : Int) := by
  have hlength : 0 ≤ p / top * room := mul_nonneg (div_nonneg hp htop.le) (by exact_mod_cast hroom)
  have hquantity : Weight.quantity (Weight.mul (Weight.div p top) (Weight.ofInt room)) =
      .finite false (p / top * room).num.natAbs (p / top * room).den := quantity_rat hlength
  simp only [barLength, hquantity, barCount, natFloor_eq hlength]
  rfl

theorem barCount_mono {top : Rat} {room : Int} (htop : 0 < top) (hroom : 0 ≤ room) :
    Monotone (barCount top room) := by
  intro p q hpq
  refine Nat.floor_mono ?_
  have hroom' : (0 : Rat) ≤ room := by exact_mod_cast hroom
  gcongr

theorem barCount_peak {top : Rat} {room : Int} (htop : 0 < top) (hroom : 0 ≤ room) :
    (barCount top room top : Int) = room := by
  obtain ⟨n, rfl⟩ := Int.eq_ofNat_of_zero_le hroom
  simp [barCount, htop.ne']

private theorem barRoom_nonneg (terminalWidth lineWidth : Int) (width : Nat) :
    0 ≤ barRoom terminalWidth lineWidth width :=
  sub_nonneg.mpr (le_max_right _ _)

section Lines

def barLine (width : Nat) (o : Outcome Rat) (length : Nat) : List Char :=
  ' ' :: ' ' :: (padLeft width (toString o.value)).toList ++
    (' ' :: List.replicate length '▬' ++ ' ' :: (percentage o.probability).toList)

private theorem length_padLeft {width : Nat} {text : String} (h : text.length ≤ width) :
    (padLeft width text).length = width := by
  rw [← String.length_toList, toList_padLeft, List.length_append, List.length_replicate,
    String.length_toList]
  omega

private theorem length_percentage {p : Rat} (hzero : 0 ≤ p) (hone : p ≤ 1) :
    (percentage p).length = 7 := by
  have hlength : (Decimal.fixed 2 (percent p)).length ≤ 6 := by
    rw [percent_rat hzero]
    refine Decimal.length_fixed_le
      ((roundHalfEven_rat_lt_iff (mul_nonneg hzero (by norm_num)) (by decide)).mpr ?_)
    push_cast
    linarith only [hone]
  rw [← String.length_toList, toList_percentage, percentField, List.length_append,
    List.length_append, List.length_replicate, String.length_toList, List.length_singleton]
  omega

private theorem length_barLine {width : Nat} {o : Outcome Rat}
    (hvalue : (toString o.value).length ≤ width) (hzero : 0 ≤ o.probability)
    (hone : o.probability ≤ 1) (length : Nat) :
    (barLine width o length).length = 11 + width + length := by
  simp only [barLine, List.length_append, List.length_cons, List.length_replicate,
    String.length_toList, length_padLeft hvalue, length_percentage hzero hone]
  omega

/-- The line of an outcome with a bar of some length. -/
def barText (width : Nat) (o : Outcome Rat) (length : Nat) : StyledText :=
  StyledText.plain "  " ++ StyledText.styled true .blue (padLeft width (toString o.value)) ++
    (StyledText.plain " " ++ StyledText.styled false .blue (bar length) ++ StyledText.plain " ") ++
    StyledText.plain (percentage o.probability)

private theorem characters_barText (width : Nat) (o : Outcome Rat) (length : Nat) :
    (barText width o length).characters = barLine width o length := by
  simp [barText, barLine, bar]

private theorem isPrintable_barText (width : Nat) (o : Outcome Rat) (length : Nat) :
    ∀ c ∈ (barText width o length).characters, Terminal.IsPrintable c := by
  simp only [barText, StyledText.characters_append, StyledText.characters_plain,
    StyledText.characters_styled, List.forall_mem_append, bar, String.toList_ofList]
  exact ⟨⟨⟨Terminal.isPrintable_of_all rfl, isPrintable_padLeft_toString width o.value⟩,
    ⟨Terminal.isPrintable_of_all rfl, Terminal.isPrintable_replicate (by decide) _⟩,
    Terminal.isPrintable_of_all rfl⟩, isPrintable_percentage o.probability⟩

private theorem outcomeLine_eq {width length : Nat} {top : Rat} {room : Int} {o : Outcome Rat}
    (h : barLength top room o.probability = .ok (length : Int)) :
    outcomeLine width (some (top, room)) o = .ok (barText width o length) := by
  simp only [outcomeLine, h]
  rfl

end Lines

section Header

private theorem isPrintable_parenthesizeIf {wrap : Bool} {text : String}
    (h : ∀ c ∈ text.toList, Terminal.IsPrintable c) :
    ∀ c ∈ (parenthesizeIf wrap text).toList, Terminal.IsPrintable c := by
  rw [parenthesizeIf]
  split
  · simp only [String.toList_append, List.forall_mem_append]
    exact ⟨⟨Terminal.isPrintable_of_all rfl, h⟩, Terminal.isPrintable_of_all rfl⟩
  · exact h

private theorem isPrintable_render (e : Expr) : ∀ c ∈ e.render.toList, Terminal.IsPrintable c := by
  induction e with
  | literal value =>
    exact fun c hc => Terminal.isPrintable_of_blank_lt (blank_lt_of_mem_toString hc)
  | dice count sides ihcount ihsides =>
    simp only [Expr.render, String.toList_append, List.forall_mem_append]
    exact ⟨⟨isPrintable_parenthesizeIf ihcount, Terminal.isPrintable_of_all rfl⟩,
      isPrintable_parenthesizeIf ihsides⟩
  | arith op lhs rhs ihlhs ihrhs =>
    simp only [Expr.render, String.toList_append, List.forall_mem_append]
    exact ⟨⟨isPrintable_parenthesizeIf ihlhs,
      Terminal.isPrintable_of_all (by cases op <;> rfl)⟩, isPrintable_parenthesizeIf ihrhs⟩
  | signed sign operand ih =>
    simp only [Expr.render, String.toList_append, List.forall_mem_append]
    exact ⟨Terminal.isPrintable_of_all (by cases sign <;> rfl), isPrintable_parenthesizeIf ih⟩

private theorem isPrintable_lawHeader (e : Expr) (d : Distribution Rat) :
    ∀ line ∈ lawHeader e d, ∀ c ∈ line.characters, Terminal.IsPrintable c := by
  have hshown : ∀ c ∈ (Markup.shown e.render).toList, Terminal.IsPrintable c := by
    intro c hc
    obtain hrender | rfl := Markup.mem_of_mem_shown hc
    · exact isPrintable_render e c hrender
    · decide
  have hmean : ∀ c ∈ (Decimal.fixed 2 (Weight.quantity d.mean)).toList, Terminal.IsPrintable c :=
    fun c hc => Terminal.isPrintable_of_blank_lt (Decimal.blank_lt_of_mem_fixed hc)
  simp only [lawHeader, header, List.forall_mem_cons, StyledText.characters_append,
    StyledText.characters_plain, StyledText.characters_styled, List.forall_mem_append,
    String.toList_append]
  refine ⟨⟨⟨?_, ?_⟩, hshown⟩, ⟨⟨?_, ?_⟩, ?_, hmean⟩, by simp, by simp⟩
  all_goals exact Terminal.isPrintable_of_all rfl

end Header

/-- The rows of a chart in a number of columns, one row for each outcome. The column of values is as
wide as the longest value text, and beside that and the bar a row has eleven columns. Bars grow with
the probability, and the longest row takes all columns, or the fixed part of it does not fit. -/
structure IsChart (d : Distribution Rat) (columns : Int) (width : Nat) (count : Outcome Rat → Nat)
    (rows : List (List Char)) : Prop where
  rows_eq : rows = d.outcomes.map fun o => barLine width o (count o)
  value_le : ∀ o ∈ d.outcomes, (toString o.value).length ≤ width
  exists_value : ∃ o ∈ d.outcomes, (toString o.value).length = width
  length_value : ∀ o ∈ d.outcomes, (padLeft width (toString o.value)).length = width
  length_row : ∀ o ∈ d.outcomes, (barLine width o (count o)).length = 11 + width + count o
  count_le : ∀ o ∈ d.outcomes, ∀ other ∈ d.outcomes, o.probability ≤ other.probability →
    count o ≤ count other
  longest : ∀ o ∈ d.outcomes, (∀ other ∈ d.outcomes, other.probability ≤ o.probability) →
    ∀ other ∈ d.outcomes, count other ≤ count o
  length_le : ∀ row ∈ rows, (row.length : Int) ≤ max columns (11 + width)
  exists_length : ∃ row ∈ rows, (row.length : Int) = max columns (11 + width)

section Chart

variable {d : Distribution Rat}

def barOf (d : Distribution Rat) (terminalWidth lineWidth : Int) (o : Outcome Rat) : Nat :=
  barCount (peak d) (barRoom terminalWidth lineWidth (valueWidth d.values)) o.probability

theorem law_with_colors (e : Expr) (hzero : ∀ o ∈ d.outcomes, 0 ≤ o.probability)
    (hpeak : 0 < peak d) (terminalWidth lineWidth : Int) :
    law e d true terminalWidth lineWidth = .ok (StyledText.joinLines (lawHeader e d ++
      d.outcomes.map fun o =>
        barText (valueWidth d.values) o (barOf d terminalWidth lineWidth o))) := by
  have hlines : d.outcomes.mapM (outcomeLine (valueWidth d.values) (some (peak d,
      barRoom terminalWidth lineWidth (valueWidth d.values)))) = .ok (d.outcomes.map fun o =>
        barText (valueWidth d.values) o (barOf d terminalWidth lineWidth o)) :=
    mapM_eq_ok fun o ho => outcomeLine_eq (barLength_eq hpeak (barRoom_nonneg ..) (hzero o ho))
  have hless : Weight.less Weight.zero (peak d) = true := decide_eq_true hpeak
  simp only [law, Bool.true_and, hless, if_true, hlines]
  rfl

theorem isChart (hprob : ∀ o ∈ d.outcomes, 0 ≤ o.probability ∧ o.probability ≤ 1)
    (hpeak : 0 < peak d) (hne : d.outcomes ≠ []) (terminalWidth lineWidth : Int) :
    IsChart d (min terminalWidth lineWidth) (valueWidth d.values)
      (barOf d terminalWidth lineWidth)
      (d.outcomes.map fun o =>
        barLine (valueWidth d.values) o (barOf d terminalWidth lineWidth o)) := by
  have hroom := barRoom_nonneg terminalWidth lineWidth (valueWidth d.values)
  have hvalue (o : Outcome Rat) (ho : o ∈ d.outcomes) :
      (toString o.value).length ≤ valueWidth d.values :=
    length_le_valueWidth (List.mem_map_of_mem ho)
  have hlength (o : Outcome Rat) (ho : o ∈ d.outcomes) :=
    length_barLine (hvalue o ho) (hprob o ho).1 (hprob o ho).2 (barOf d terminalWidth lineWidth o)
  have hcount (o other : Outcome Rat) (hle : o.probability ≤ other.probability) :
      barOf d terminalWidth lineWidth o ≤ barOf d terminalWidth lineWidth other :=
    barCount_mono hpeak hroom hle
  obtain ⟨top, htop, htoppeak⟩ := exists_probability_eq_peak hne
  have hfull : (11 + valueWidth d.values + barOf d terminalWidth lineWidth top : Int) =
      max (min terminalWidth lineWidth) (11 + valueWidth d.values) := by
    have hpeakbar := barCount_peak hpeak hroom
    rw [barOf, htoppeak, hpeakbar, barRoom, fixedWidth]
    omega
  exact {
    rows_eq := rfl
    value_le := hvalue
    exists_value := by
      have hvalues : d.values ≠ [] := by simpa [Distribution.values] using hne
      obtain ⟨value, hmem, hwidth⟩ := exists_length_eq_valueWidth hvalues
      obtain ⟨o, ho, rfl⟩ := List.mem_map.mp hmem
      exact ⟨o, ho, hwidth⟩
    length_value := fun o ho => length_padLeft (hvalue o ho)
    length_row := hlength
    count_le := fun o _ other _ => hcount o other
    longest := fun o _ hmost other hother => hcount other o (hmost other hother)
    length_le := by
      intro row hrow
      obtain ⟨o, ho, rfl⟩ := List.mem_map.mp hrow
      have hbelow := hcount o top (htoppeak ▸ le_peak ho)
      rw [← hfull, hlength o ho]
      omega
    exists_length := by
      refine ⟨_, List.mem_map_of_mem htop, ?_⟩
      rw [← hfull, hlength top htop]
      push_cast
      rfl }

end Chart

/-- The bar chart fits its width. Behind the three lines of the head, the lines that are printed in
colour form, without the escape sequences, a chart in as many columns as the terminal and the
greatest length allow; no bar has a negative length. -/
theorem law_isChart (e : Expr) (d : Distribution Rat)
    (hprob : ∀ o ∈ d.outcomes, 0 ≤ o.probability ∧ o.probability ≤ 1)
    (hpos : ∃ o ∈ d.outcomes, 0 < o.probability) (terminalWidth lineWidth : Int)
    (consoleColors : Bool) :
    ∃ text head rows width, ∃ count : Outcome Rat → Nat,
      law e d true terminalWidth lineWidth = .ok text ∧
        Terminal.lines (Terminal.withoutEscapes false (text.print consoleColors).toList) =
          head ++ rows ∧
        head.length = 3 ∧
        (∀ o ∈ d.outcomes, barLength (peak d) (barRoom terminalWidth lineWidth width)
          o.probability = .ok (count o : Int)) ∧
        IsChart d (min terminalWidth lineWidth) width count rows := by
  obtain ⟨o, ho, hopos⟩ := hpos
  have hpeak : 0 < peak d := hopos.trans_le (le_peak ho)
  have hzero (o : Outcome Rat) (ho : o ∈ d.outcomes) := (hprob o ho).1
  have hprintable : ∀ line ∈ lawHeader e d ++ d.outcomes.map fun o =>
        barText (valueWidth d.values) o (barOf d terminalWidth lineWidth o),
      ∀ c ∈ line.characters, Terminal.IsPrintable c := by
    rw [List.forall_mem_append, List.forall_mem_map]
    exact ⟨isPrintable_lawHeader e d, fun o _ => isPrintable_barText _ o _⟩
  refine ⟨_, (lawHeader e d).map StyledText.characters, _, valueWidth d.values,
    barOf d terminalWidth lineWidth, law_with_colors e hzero hpeak terminalWidth lineWidth,
    ?_, rfl, fun o ho => barLength_eq hpeak (barRoom_nonneg ..) (hzero o ho),
    isChart hprob hpeak (List.ne_nil_of_mem ho) terminalWidth lineWidth⟩
  have hescape : '\x1b' ∉ (StyledText.joinLines (lawHeader e d ++ d.outcomes.map fun o =>
      barText (valueWidth d.values) o (barOf d terminalWidth lineWidth o))).characters :=
    fun hmem => absurd (StyledText.forall_mem_joinLines hprintable _ hmem) (by decide)
  rw [StyledText.withoutEscapes_print hescape,
    StyledText.lines_print (by simp [lawHeader]) hprintable, List.map_append, List.map_map]
  simp only [Function.comp_def, characters_barText]

theorem law_isChart_of_three_outcomes :
    let e : Expr := .literal 1
    let d : Distribution Rat := ⟨[⟨-1, 1 / 4⟩, ⟨10, 2 / 3⟩, ⟨12, 1 / 12⟩]⟩
    (∀ o ∈ d.outcomes, 0 ≤ o.probability ∧ o.probability ≤ 1) ∧
      (∃ o ∈ d.outcomes, 0 < o.probability) ∧
      ((law e d true 19 75).map fun text => (Terminal.lines
        (Terminal.withoutEscapes false (text.print true).toList)).map String.ofList) =
        .ok ["Expression: 1", "  Mean: 7.42", "", "  -1 ▬▬  25.00%", "  10 ▬▬▬▬▬▬  66.67%",
          "  12    8.33%"] ∧
      ∃ text head rows width, ∃ count : Outcome Rat → Nat,
        law e d true 19 75 = .ok text ∧
          Terminal.lines (Terminal.withoutEscapes false (text.print true).toList) = head ++ rows ∧
          head.length = 3 ∧
          (∀ o ∈ d.outcomes, barLength (peak d) (barRoom 19 75 width) o.probability =
            .ok (count o : Int)) ∧
          IsChart d (min 19 75) width count rows := by
  intro e d
  have hprob : ∀ o ∈ d.outcomes, 0 ≤ o.probability ∧ o.probability ≤ 1 := by decide +kernel
  have hpos : ∃ o ∈ d.outcomes, 0 < o.probability := by decide +kernel
  exact ⟨hprob, hpos, by decide +kernel, law_isChart e d hprob hpos 19 75 true⟩

end DiceCalculator.Report
