import DiceCalculator.Proofs.Expr.Diagnosis
import DiceCalculator.Proofs.Terminal.Lines
import DiceCalculator.Proofs.Terminal.Markup
import DiceCalculator.Proofs.Text.Numerals
import DiceCalculator.Report.Failure
/-!
# Carets below a token

The excerpt of a rejected text has a row of carets below the rows of the text. The carets are as far
from the margin as the token has characters in front of it, whatever is shown of these: they are
below the token if the text in front of it is just as wide and the token stands in the last row.
-/
namespace DiceCalculator

namespace Token

private theorem Cuts.isSuffix {text rest : List Char} {tokens : List Token}
    (h : Cuts text tokens rest) : rest <:+ text := by
  induction h with
  | nil => exact List.suffix_rfl
  | blank _ _ ih => exact ih.trans (List.suffix_cons _ _)
  | token _ _ _ ih => exact ih.trans (List.suffix_append _ _)

private theorem Spelled.isPrintable {token : Token} {word : List Char} (h : Spelled token word) :
    ∀ c ∈ word, Terminal.IsPrintable c := by
  cases h with
  | number _ _ decimal =>
    exact fun c hc => Terminal.isPrintable_of_blank_lt (blank_lt_of_isDigit (decimal c hc))
  | _ => exact Terminal.isPrintable_of_all rfl

/-- What does not fit has no blank in it. It is shown as it is, except that some control characters
are not shown at all. -/
private theorem Misfit.exists_word {tokens : List Token} {rest : List Char} {length : Nat}
    (h : Misfit tokens rest length) : ∃ word later, rest = word ++ later ∧ word.length = length ∧
      word ≠ [] ∧ ((∀ c ∈ word, Layout.IsPlain c) ∨ ∃ c, word = [c] ∧ Layout.isDropped c) := by
  cases h with
  | @token token word later spelled _ _ =>
    obtain ⟨c, tail, rfl, _⟩ := spelled.exists_cons
    exact ⟨_, later, rfl, rfl, List.cons_ne_nil _ _,
      .inl fun c hc => Layout.isPlain_of_isPrintable (spelled.isPrintable c hc)⟩
  | @character c later hblank _ =>
    refine ⟨[c], later, rfl, rfl, List.cons_ne_nil _ _, ?_⟩
    cases hdropped : Layout.isDropped c with
    | true => exact .inr ⟨c, rfl, hdropped⟩
    | false =>
      have hc : Layout.IsPlain c := by
        refine ⟨hdropped, ?_, ?_⟩
        all_goals
          rintro rfl
          exact hblank (by decide)
      exact .inl (List.forall_mem_singleton.mpr hc)

end Token

private theorem Expr.stopsAt_of_parse {text : String} {start length : Nat}
    (h : Expr.parse text = .error (.unexpectedToken start length)) : StopsAt text start length := by
  have hrejected (e : Expr) : Expr.parse text ≠ .ok e := by simp [h]
  obtain hearly | ⟨start', length', hstop⟩ := endsEarly_or_stopsAt hrejected
  · exact absurd (h.symm.trans (parse_of_endsEarly hearly)) (by simp)
  · have herror := h.symm.trans (parse_of_stopsAt hstop)
    simp only [Except.error.injEq, ParseError.unexpectedToken.injEq] at herror
    obtain ⟨rfl, rfl⟩ := herror
    exact hstop

private theorem Expr.exists_word_of_parse {text : String} {start length : Nat}
    (h : Expr.parse text = .error (.unexpectedToken start length)) :
    ∃ word later, text.toList.drop start = word ++ later ∧ word.length = length ∧ word ≠ [] ∧
      ((∀ c ∈ word, Layout.IsPlain c) ∨ ∃ c, word = [c] ∧ Layout.isDropped c) := by
  obtain ⟨tokens, rest, hcuts, _, hplace, hmisfit⟩ := stopsAt_of_parse h
  have hrest := List.suffix_iff_eq_drop.mp hcuts.isSuffix
  have hstart : text.toList.length - rest.length = start := by
    rw [String.length_toList]
    omega
  rw [← hstart, ← hrest]
  exact hmisfit.exists_word

namespace Report

def indentation : List Char := [' ', ' ', ' ', ' ', '|', ' ', ' ', ' ', ' ']

/-- What stands before the text in an excerpt: an empty row, a row with the margin alone, and the
indentation. -/
def lead : List Char := '\n' :: indentation.take 5 ++ '\n' :: indentation

/-- The rows of an excerpt down to the last one with text in it. -/
def sourceRows (text : List Char) : List (List Char) :=
  (Layout.expand 0 (lead ++ text)).1.splitOn '\n'

/-- The column in which the character with this place is shown, if it is shown at all: the one
behind all that is shown before it in its row. -/
def columnOf (text : List Char) (place : Nat) : Nat :=
  (Terminal.lastRow (Layout.expand 0 (lead ++ text.take place)).1).length

def caretRow (span : Span) : List Char :=
  indentation ++ span.indent.toList ++ span.carets.toList

private theorem isPrintable_caretRow (span : Span) :
    ∀ c ∈ caretRow span, Terminal.IsPrintable c := by
  simp only [caretRow, Span.indent, Span.carets, String.toList_ofList, List.forall_mem_append]
  exact ⟨⟨Terminal.isPrintable_of_all rfl, Terminal.isPrintable_replicate (by decide) _⟩,
    Terminal.isPrintable_replicate (by decide) _⟩

private theorem characters_excerpt (text : String) (span : Span) : (excerpt text span).characters =
    lead ++ (Markup.shown text).toList ++ '\n' :: caretRow span := by
  simp [excerpt, StyledText.joinLines, margin, lead, caretRow, indentation]

theorem withoutEscapes_excerpt {text : String} (h : '\x1b' ∉ text.toList) (span : Span)
    (colors : Bool) : Terminal.withoutEscapes false ((excerpt text span).print colors).toList =
      ((excerpt text span).print false).toList := by
  refine StyledText.withoutEscapes_print ?_ colors
  have hshown : '\x1b' ∉ (Markup.shown text).toList := by
    intro hc
    obtain hmem | hbackslash := Markup.mem_of_mem_shown hc
    · exact h hmem
    · cases hbackslash
  have hcarets : '\x1b' ∉ caretRow span :=
    fun hc => absurd (isPrintable_caretRow span _ hc) (by decide)
  simp [characters_excerpt, hshown, hcarets, lead, indentation]

theorem lines_excerpt (text : String) (span : Span) :
    Terminal.lines ((excerpt text span).print false).toList =
      sourceRows (Markup.shown text).toList ++ [caretRow span] := by
  have hprintable := isPrintable_caretRow span
  have hfeed : '\n' ∉ caretRow span := fun h => absurd (hprintable _ h) (by decide)
  have hrow : (Layout.expand 0 (caretRow span)).1 = caretRow span :=
    Layout.expand_eq_self (fun c hc => .inr (hprintable c hc)) 0
  rw [StyledText.toList_print_false, characters_excerpt, Layout.expand_append_feed, hrow,
    Terminal.lines, List.splitOn_append_cons_self, List.splitOn_append_cons_self,
    List.splitOn_eq_singleton hfeed, List.splitOn_nil, List.dropLast_concat, sourceRows]

/-- The carets of a part that is not empty stand as far from the margin as the part has characters
in front of it. -/
theorem getElem?_caretRow {start length : Nat} (h : 0 < length) (column : Nat) :
    (caretRow ⟨start, length⟩)[column]? = some '^' ↔
      9 + start ≤ column ∧ column < 9 + start + length := by
  have hindent : (Span.mk start length).indent.toList = List.replicate start ' ' := by
    simp [Span.indent]
  have hcarets : (Span.mk start length).carets.toList = List.replicate length '^' := by
    have hlength : (max (length : Int) 1).toNat = length := by omega
    simp [Span.carets, hlength]
  have hbefore : '^' ∉ indentation ++ List.replicate start ' ' := by
    rw [List.mem_append, not_or]
    exact ⟨by decide, fun hc => absurd (List.eq_of_mem_replicate hc) (by decide)⟩
  have hwidth : (indentation ++ List.replicate start ' ').length = 9 + start := by
    rw [List.length_append, List.length_replicate]
    rfl
  rw [caretRow, hindent, hcarets, List.getElem?_append, hwidth]
  split
  next hlow =>
    refine iff_of_false (fun hc => hbefore (List.mem_of_getElem? hc)) (by omega)
  next hhigh =>
    rw [List.getElem?_replicate]
    simp
    omega

private theorem length_sourceRows_take_iff (text : List Char) (start : Nat) :
    (sourceRows (text.take start)).length = (sourceRows text).length ↔
      '\n' ∉ text.drop start := by
  have hcount : text.count '\n' = (text.take start).count '\n' + (text.drop start).count '\n' := by
    rw [← List.count_append, List.take_append_drop]
  rw [sourceRows, sourceRows, Terminal.length_splitOn, Terminal.length_splitOn,
    Layout.count_expand (by decide) (by decide) (by decide),
    Layout.count_expand (by decide) (by decide) (by decide), List.count_append, List.count_append,
    hcount, ← List.count_eq_zero]
  omega

section Shown

/-- Characters that are shown, and that no tab is filled up with. -/
def isInk (c : Char) : Bool := !Layout.isDropped c && c != '\t' && c != ' '

private theorem filter_isInk_expand (column : Nat) (text : List Char) :
    (Layout.expand column text).1.filter isInk = text.filter isInk :=
  Layout.filter_expand (fun c hc => by simp [isInk, hc]) rfl rfl column text

private theorem sourceRows_shown_iff (text : String) :
    sourceRows (Markup.shown text).toList = sourceRows text.toList ↔ Markup.shown text = text := by
  refine ⟨fun hrows => ?_, fun htext => by rw [htext]⟩
  have hexpand := congrArg ['\n'].intercalate hrows
  rw [sourceRows, sourceRows, List.intercalate_splitOn, List.intercalate_splitOn] at hexpand
  have hink := congrArg (List.filter isInk) hexpand
  rw [filter_isInk_expand, filter_isInk_expand, List.filter_append, List.filter_append,
    List.append_cancel_left_eq] at hink
  exact Markup.shown_eq_of_filter rfl rfl hink

end Shown

section Columns

variable {text word later : List Char} {start : Nat}

private theorem columnOf_eq (text : List Char) (place : Nat) :
    columnOf text place = (Layout.expand 0 (lead ++ text.take place)).2 :=
  Layout.length_lastRow_expand _

private theorem columnOf_add_of_isPlain (hdrop : text.drop start = word ++ later)
    (hword : ∀ c ∈ word, Layout.IsPlain c) {k : Nat} (hk : k ≤ word.length) :
    columnOf text (start + k) = columnOf text start + k := by
  have htake : (text.drop start).take k = word.take k := by
    rw [hdrop, List.take_append_of_le_length hk]
  have hplain : ∀ c ∈ word.take k, Layout.IsPlain c := fun c hc => hword c (List.mem_of_mem_take hc)
  rw [columnOf_eq, columnOf_eq, List.take_add, htake, ← List.append_assoc, Layout.expand_append,
    Layout.expand_of_isPlain hplain, List.length_take, min_eq_left hk]

private theorem columnOf_succ_of_isDropped {c : Char} (hdrop : text.drop start = c :: later)
    (hc : Layout.isDropped c) : columnOf text (start + 1) = columnOf text start := by
  rw [columnOf_eq, columnOf_eq, List.take_add, hdrop, ← List.append_assoc, Layout.expand_append]
  simp [Layout.expand, hc]

/-- Some character of the part with this place and length is shown in the column. -/
def IsShownIn (text : List Char) (start length column : Nat) : Prop :=
  ∃ place, start ≤ place ∧ place < start + length ∧ columnOf text place ≤ column ∧
    column < columnOf text (place + 1)

private theorem isShownIn_iff_of_isPlain (hdrop : text.drop start = word ++ later)
    (hword : ∀ c ∈ word, Layout.IsPlain c) (column : Nat) :
    IsShownIn text start word.length column ↔
      columnOf text start ≤ column ∧ column < columnOf text start + word.length := by
  constructor
  · rintro ⟨place, hlow, hhigh, hcolumn⟩
    obtain ⟨k, rfl⟩ := Nat.exists_eq_add_of_le hlow
    rw [Nat.add_assoc, columnOf_add_of_isPlain hdrop hword (by omega),
      columnOf_add_of_isPlain hdrop hword (by omega)] at hcolumn
    omega
  · rintro ⟨hlow, hhigh⟩
    refine ⟨start + (column - columnOf text start), by omega, by omega, ?_⟩
    rw [Nat.add_assoc, columnOf_add_of_isPlain hdrop hword (by omega),
      columnOf_add_of_isPlain hdrop hword (by omega)]
    omega

private theorem not_isShownIn_of_isDropped {c : Char} (hdrop : text.drop start = c :: later)
    (hc : Layout.isDropped c) (column : Nat) : ¬ IsShownIn text start 1 column := by
  rintro ⟨place, hlow, hhigh, hcolumn⟩
  obtain rfl : place = start := by omega
  rw [columnOf_succ_of_isDropped hdrop hc] at hcolumn
  omega

end Columns

/-- Without colours the excerpt of a text shows the text, the part with this place and length stands
in the last row of it, and the row below has carets in the columns in which the part is shown, and
in no others. -/
def PointsAt (text : String) (start length : Nat) : Prop :=
  ∃ marks, Terminal.lines ((excerpt text ⟨start, length⟩).print false).toList =
      sourceRows text.toList ++ [marks] ∧
    (sourceRows (text.toList.take start)).length = (sourceRows text.toList).length ∧
    ∀ column, marks[column]? = some '^' ↔ IsShownIn text.toList start length column

private theorem pointsAt_iff_columns {length : Nat} (hlength : 0 < length) (text : String)
    (start : Nat) :
    PointsAt text start length ↔ Markup.shown text = text ∧ '\n' ∉ text.toList.drop start ∧
      ∀ column, 9 + start ≤ column ∧ column < 9 + start + length ↔
        IsShownIn text.toList start length column := by
  simp only [PointsAt, lines_excerpt, length_sourceRows_take_iff]
  constructor
  · rintro ⟨marks, hrows, hlast, hcolumns⟩
    obtain ⟨hsource, hmarks⟩ := List.append_inj' hrows rfl
    obtain rfl := List.singleton_inj.mp hmarks
    exact ⟨(sourceRows_shown_iff text).mp hsource, hlast,
      fun column => (getElem?_caretRow hlength column).symm.trans (hcolumns column)⟩
  · rintro ⟨htext, hlast, hcolumns⟩
    exact ⟨_, by rw [htext], hlast,
      fun column => (getElem?_caretRow hlength column).trans (hcolumns column)⟩

theorem pointsAt_iff {text : String} {start length : Nat}
    (h : Expr.parse text = .error (.unexpectedToken start length)) :
    PointsAt text start length ↔
      Markup.shown text = text ∧ '\n' ∉ text.toList.drop start ∧
        (∀ c ∈ (text.toList.drop start).take length, Layout.isDropped c = false) ∧
        columnOf text.toList start = 9 + start := by
  obtain ⟨word, later, hdrop, rfl, hne, hword⟩ := Expr.exists_word_of_parse h
  have hpos : 0 < word.length := List.length_pos_iff.mpr hne
  rw [pointsAt_iff_columns hpos, hdrop, List.take_left]
  refine and_congr_right fun _ => and_congr_right fun _ => ?_
  obtain hplain | ⟨c, rfl, hc⟩ := hword
  · simp only [isShownIn_iff_of_isPlain hdrop hplain]
    constructor
    · intro hcolumns
      refine ⟨fun c hc => (hplain c hc).1, ?_⟩
      have hfirst := hcolumns (9 + start)
      have hshown := hcolumns (columnOf text.toList start)
      omega
    · rintro ⟨-, hcolumn⟩ column
      rw [hcolumn]
  · refine iff_of_false (fun hcolumns => ?_) fun hshown => ?_
    · exact not_isShownIn_of_isDropped hdrop hc _ ((hcolumns (9 + start)).mp ⟨by omega, by simp⟩)
    · rw [hshown.1 c List.mem_cons_self] at hc
      exact absurd hc (by decide)

private theorem columnOf_of_isPlain {text : List Char} {start : Nat} (hstart : start ≤ text.length)
    (h : ∀ c ∈ text.take start, Layout.IsPlain c) : columnOf text start = 9 + start := by
  have hlead : (Layout.expand 0 lead).2 = 9 := by decide
  rw [columnOf_eq, Layout.expand_append, Layout.expand_of_isPlain h, hlead, List.length_take,
    min_eq_left hstart]

/-- If a text is rejected at a token, the excerpt points at the token if and only if the text comes
out as it is, no line feed follows in it, the token is not a control character that is dropped, and
the text in front of the token has moved the cursor by as many columns as it has characters. So it
is if the text has neither control characters nor backslashes. In colour the same is shown, apart
from escape sequences, unless the text has such sequences itself. -/
theorem excerpt_pointsAt_iff (text : String) (start length : Nat)
    (h : Expr.parse text = .error (.unexpectedToken start length)) :
    (PointsAt text start length ↔
      Markup.shown text = text ∧ '\n' ∉ text.toList.drop start ∧
        (∀ c ∈ (text.toList.drop start).take length, Layout.isDropped c = false) ∧
        columnOf text.toList start = 9 + start) ∧
      ((∀ c ∈ text.toList, Terminal.IsPrintable c ∧ c ≠ '\\') → PointsAt text start length) ∧
      ('\x1b' ∉ text.toList → ∀ colors,
        Terminal.withoutEscapes false ((excerpt text ⟨start, length⟩).print colors).toList =
          ((excerpt text ⟨start, length⟩).print false).toList) := by
  refine ⟨pointsAt_iff h, fun htext => (pointsAt_iff h).mpr ?_,
    fun hescape => withoutEscapes_excerpt hescape _⟩
  have hplain (c : Char) (hc : c ∈ text.toList) : Layout.IsPlain c :=
    Layout.isPlain_of_isPrintable (htext c hc).1
  have hwithin := (Expr.stopsAt_of_parse h).le_length
  rw [← String.length_toList] at hwithin
  refine ⟨Markup.shown_eq_self fun hc => (htext _ hc).2 rfl,
    fun hc => (hplain _ (List.mem_of_mem_drop hc)).2.1 rfl,
    fun c hc => (hplain c (List.mem_of_mem_drop (List.mem_of_mem_take hc))).1,
    columnOf_of_isPlain (by omega) fun c hc => hplain c (List.mem_of_mem_take hc)⟩

theorem excerpt_pointsAt_of_second_power :
    let text := "2 + (d6 ** ** 3 %"
    Expr.parse text = .error (.unexpectedToken 11 2) ∧
      (excerpt text ⟨11, 2⟩).print false =
        "\n    |\n    |    2 + (d6 ** ** 3 %\n    |               ^^\n" ∧
      PointsAt text 11 2 ∧
      Terminal.withoutEscapes false ((excerpt text ⟨11, 2⟩).print true).toList =
        ((excerpt text ⟨11, 2⟩).print false).toList := by
  intro text
  have hparse : Expr.parse text = .error (.unexpectedToken 11 2) := by decide +kernel
  have htext : text.toList.all (fun c => decide (' ' ≤ c ∧ c ≠ '\\')) = true := by decide +kernel
  obtain ⟨-, hpoints, hcolors⟩ := excerpt_pointsAt_iff text 11 2 hparse
  exact ⟨hparse, by decide +kernel,
    hpoints fun c hc => of_decide_eq_true (List.all_eq_true.mp htext c hc),
    hcolors (by decide +kernel) true⟩

/-- A tab in front of the token moves it away from its caret. -/
theorem excerpt_misses_token_behind_tab :
    let text := "1\tx"
    Expr.parse text = .error (.unexpectedToken 2 1) ∧
      (excerpt text ⟨2, 1⟩).print false =
        "\n    |\n    |    1      x\n    |      ^\n" ∧
      ¬ PointsAt text 2 1 := by
  intro text
  have hparse : Expr.parse text = .error (.unexpectedToken 2 1) := by decide +kernel
  refine ⟨hparse, by decide +kernel, fun hpoints => ?_⟩
  exact absurd ((pointsAt_iff hparse).mp hpoints).2.2.2 (by decide +kernel)

end Report

end DiceCalculator
