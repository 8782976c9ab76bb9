import DiceCalculator.Terminal.Layout
import Mathlib.Data.List.Induction
/-!
# Lines on a terminal

What a reader sees of a printed text are its characters without the escape sequences, cut into lines
at the line feeds. Text that has no other control character is shown as it is.
-/
namespace DiceCalculator

namespace Terminal

/-- The characters that are left when the escape sequences are taken out. A sequence ends with the
letter `m`; the flag tells whether the first character is within one. -/
def withoutEscapes (inside : Bool) : List Char → List Char
  | [] => []
  | c :: rest =>
    if inside then withoutEscapes (c != 'm') rest
    else if c == '\x1b' then withoutEscapes true rest
    else c :: withoutEscapes false rest

/-- The lines of a printed text. A line feed stands behind each of them. -/
def lines (printed : List Char) : List (List Char) := (printed.splitOn '\n').dropLast

/-- What is shown in the row of the cursor: all behind the last line feed. -/
def lastRow (shown : List Char) : List Char := (shown.reverse.takeWhile (· != '\n')).reverse

/-- A character that is printed in one column; control characters are not. -/
def IsPrintable (c : Char) : Prop := ' ' ≤ c

instance (c : Char) : Decidable (IsPrintable c) := inferInstanceAs (Decidable (' ' ≤ c))

theorem isPrintable_of_all {text : List Char} (h : text.all (decide <| ' ' ≤ ·) = true) :
    ∀ c ∈ text, IsPrintable c :=
  fun c hc => of_decide_eq_true (List.all_eq_true.mp h c hc)

theorem isPrintable_replicate {d : Char} (h : IsPrintable d) (n : Nat) :
    ∀ c ∈ List.replicate n d, IsPrintable c :=
  fun _ hc => List.eq_of_mem_replicate hc ▸ h

theorem isPrintable_of_blank_lt {c : Char} (h : ' ' < c) : IsPrintable c := UInt32.le_of_lt h

private theorem withoutEscapes_append {text : List Char} (h : '\x1b' ∉ text) (rest : List Char) :
    withoutEscapes false (text ++ rest) = text ++ withoutEscapes false rest := by
  induction text with
  | nil => rfl
  | cons c text ih =>
    rw [List.mem_cons, not_or] at h
    have hc : (c == '\x1b') = false := beq_eq_false_iff_ne.mpr (Ne.symm h.1)
    simp only [List.cons_append, withoutEscapes, hc, ih h.2, Bool.false_eq_true, if_false]

private theorem withoutEscapes_enter (style : Style) (rest : List Char) :
    withoutEscapes false (style.enter.toList ++ rest) = withoutEscapes false rest := by
  obtain ⟨bold, color⟩ := style
  cases bold <;> cases color <;> rfl

private theorem withoutEscapes_leave (rest : List Char) :
    withoutEscapes false (Style.leave.toList ++ rest) = withoutEscapes false rest := rfl

theorem length_splitOn (c : Char) (text : List Char) :
    (text.splitOn c).length = text.count c + 1 := by
  induction text with
  | nil => rfl
  | cons d text ih =>
    rw [List.splitOn_cons_eq_if_modifyHead, List.count_cons]
    split
    · simp [ih]
    · simp [ih]

private theorem lastRow_append {word : List Char} (h : '\n' ∉ word) (shown : List Char) :
    lastRow (shown ++ word) = lastRow shown ++ word := by
  have hword : ∀ c ∈ word.reverse, (c != '\n') = true := by
    intro c hc
    refine bne_iff_ne.mpr ?_
    rintro rfl
    exact h (List.mem_reverse.mp hc)
  simp only [lastRow, List.reverse_append, List.takeWhile_append_of_pos hword,
    List.reverse_reverse]

private theorem lastRow_append_feed (shown : List Char) : lastRow (shown ++ ['\n']) = [] := by
  simp [lastRow]

private theorem IsPrintable.ne_control {c d : Char} (h : IsPrintable c) (hd : ¬ IsPrintable d) :
    c ≠ d := by
  rintro rfl
  exact hd h

end Terminal

open Terminal

namespace Run

private theorem render_false (run : Run) : (run.render false).toList = run.text := by
  unfold render
  split <;> simp

private theorem withoutEscapes_render {run : Run} (h : '\x1b' ∉ run.text) (colors : Bool)
    (rest : List Char) :
    withoutEscapes false ((run.render colors).toList ++ rest) =
      run.text ++ withoutEscapes false rest := by
  unfold render
  split
  · rw [String.toList_ofList, withoutEscapes_append h]
  · split
    · rw [String.toList_append, String.toList_append, String.toList_ofList, List.append_assoc,
        List.append_assoc, withoutEscapes_enter, withoutEscapes_append h, withoutEscapes_leave]
    · rw [String.toList_ofList, withoutEscapes_append h]

end Run

namespace StyledText

@[simp] theorem characters_nil : characters [] = [] := rfl

@[simp] theorem characters_cons (run : Run) (runs : StyledText) :
    characters (run :: runs) = run.text ++ characters runs := rfl

@[simp] theorem characters_append (left right : StyledText) :
    characters (left ++ right) = characters left ++ characters right := List.flatMap_append

@[simp] theorem characters_plain (text : String) : (plain text).characters = text.toList := by
  simp [plain]

@[simp] theorem characters_styled (bold : Bool) (color : Color) (text : String) :
    (styled bold color text).characters = text.toList := by
  simp [styled]

private theorem render_false (text : StyledText) :
    (text.render false).toList = text.characters := by
  simp [render, characters, String.toList_join, List.flatMap_map, Run.render_false]

theorem withoutEscapes_render {text : StyledText} (h : '\x1b' ∉ text.characters) (colors : Bool)
    (rest : List Char) :
    withoutEscapes false ((text.render colors).toList ++ rest) =
      text.characters ++ withoutEscapes false rest := by
  induction text with
  | nil => rfl
  | cons run runs ih =>
    rw [characters_cons, List.mem_append, not_or] at h
    have hcons : (render colors (run :: runs)).toList =
        (run.render colors).toList ++ (render colors runs).toList := by
      simp [render, String.toList_join]
    rw [hcons, List.append_assoc, Run.withoutEscapes_render h.1, ih h.2, characters_cons,
      List.append_assoc]

private theorem characters_joinLines (text : List StyledText) :
    (joinLines text).characters = ['\n'].intercalate (text.map characters) := by
  induction text using joinLines.induct with
  | case1 => rfl
  | case2 line => simp [joinLines, List.intercalate]
  | case3 line rest hrest ih =>
    obtain ⟨next, more, rfl⟩ := List.exists_cons_of_ne_nil hrest
    simp [joinLines, ih, List.intercalate]

end StyledText

namespace Layout

theorem expand_append (column : Nat) (left right : List Char) :
    expand column (left ++ right) =
      ((expand column left).1 ++ (expand (expand column left).2 right).1,
        (expand (expand column left).2 right).2) := by
  induction left generalizing column with
  | nil => rfl
  | cons c left ih =>
    simp only [List.cons_append, expand]
    split
    · exact ih column
    · split
      · simp [ih]
      · split <;> simp [ih]

theorem characters_expandRuns (column : Nat) (text : StyledText) :
    (expandRuns column text).characters = (expand column text.characters).1 := by
  induction text generalizing column with
  | nil => rfl
  | cons run runs ih => simp [expandRuns, expand_append, ih]

/-- The character is shown as itself and takes one column. -/
def IsPlain (c : Char) : Prop := isDropped c = false ∧ c ≠ '\n' ∧ c ≠ '\t'

theorem isPlain_of_isPrintable {c : Char} (h : IsPrintable c) : IsPlain c := by
  have hne (d : Char) (hd : ¬ IsPrintable d) : c ≠ d := h.ne_control hd
  simp only [IsPlain, isDropped, Bool.or_eq_false_iff, beq_eq_false_iff_ne]
  refine ⟨⟨⟨⟨⟨?_, ?_⟩, ?_⟩, ?_⟩, ?_⟩, ?_, ?_⟩
  all_goals exact hne _ (by decide)

theorem expand_of_isPlain {word : List Char} (h : ∀ c ∈ word, IsPlain c) (column : Nat) :
    expand column word = (word, column + word.length) := by
  induction word generalizing column with
  | nil => rfl
  | cons c word ih =>
    obtain ⟨⟨hdropped, hfeed, htab⟩, hword⟩ := List.forall_mem_cons.mp h
    simp only [expand, hdropped, beq_eq_false_iff_ne.mpr hfeed, beq_eq_false_iff_ne.mpr htab,
      Bool.false_eq_true, if_false, ih hword, List.length_cons]
    rw [Nat.add_assoc, Nat.add_comm 1]

theorem expand_eq_self {text : List Char} (h : ∀ c ∈ text, c = '\n' ∨ IsPrintable c)
    (column : Nat) : (expand column text).1 = text := by
  induction text generalizing column with
  | nil => rfl
  | cons c text ih =>
    rw [List.forall_mem_cons] at h
    obtain rfl | hc := h.1
    · exact congrArg ('\n' :: ·) (ih h.2 0)
    · have hplain := List.forall_mem_singleton.mpr (isPlain_of_isPrintable hc)
      rw [← List.singleton_append, expand_append, expand_of_isPlain hplain, ih h.2]

/-- Only characters that are not shown get lost, and only blanks are added. -/
theorem filter_expand {p : Char → Bool} (hdropped : ∀ c, isDropped c → p c = false)
    (htab : p '\t' = false) (hblank : p ' ' = false) (column : Nat) (text : List Char) :
    (expand column text).1.filter p = text.filter p := by
  induction text generalizing column with
  | nil => rfl
  | cons c text ih =>
    simp only [expand]
    split
    next hc => simp [ih, hdropped c hc]
    · split
      · simp [List.filter_cons, ih]
      · split
        next hc => simp [ih, eq_of_beq hc, htab, hblank]
        · simp [List.filter_cons, ih]

theorem count_expand {c : Char} (hc : isDropped c = false) (htab : c ≠ '\t') (hblank : c ≠ ' ')
    (column : Nat) (text : List Char) : (expand column text).1.count c = text.count c := by
  have hdropped (d : Char) (hd : isDropped d) : (d == c) = false := by
    refine beq_eq_false_iff_ne.mpr ?_
    rintro rfl
    rw [hc] at hd
    cases hd
  have hother (d : Char) (hd : c ≠ d) : (d == c) = false := beq_eq_false_iff_ne.mpr (Ne.symm hd)
  simp only [List.count_eq_length_filter, filter_expand hdropped (hother _ htab) (hother _ hblank)]

/-- The column of the cursor is as far from the left as the row is filled. -/
theorem length_lastRow_expand (text : List Char) :
    (lastRow (expand 0 text).1).length = (expand 0 text).2 := by
  induction text using List.reverseRecOn with
  | nil => rfl
  | append_singleton text c ih =>
    rw [expand_append]
    generalize expand 0 text = printed at ih
    simp only [expand]
    split
    · simpa using ih
    · split
      next hfeed => rw [eq_of_beq hfeed, lastRow_append_feed]; rfl
      next hfeed =>
        have hc : c ≠ '\n' := by simpa using hfeed
        split
        · have hblanks : '\n' ∉ List.replicate (tabWidth - printed.2 % tabWidth) ' ' :=
            fun hmem => absurd (List.eq_of_mem_replicate hmem) (by decide)
          simp [lastRow_append hblanks, ih]
        · have hword : '\n' ∉ [c] := by simpa using Ne.symm hc
          rw [lastRow_append hword, List.length_append, ih]
          rfl

theorem expand_append_feed (column : Nat) (left right : List Char) :
    (expand column (left ++ '\n' :: right)).1 =
      (expand column left).1 ++ '\n' :: (expand 0 right).1 := by
  rw [expand_append]
  rfl

end Layout

namespace StyledText

theorem toList_print_false (text : StyledText) :
    (print false text).toList = (Layout.expand 0 text.characters).1 ++ ['\n'] := by
  rw [print, String.toList_append, render_false, Layout.characters_expandRuns]
  rfl

theorem print_false {text : StyledText} (h : ∀ c ∈ text.characters, c = '\n' ∨ IsPrintable c) :
    (print false text).toList = text.characters ++ ['\n'] := by
  rw [toList_print_false, Layout.expand_eq_self h]

/-- Colours add nothing but escape sequences. -/
theorem withoutEscapes_print {text : StyledText} (h : '\x1b' ∉ text.characters) (colors : Bool) :
    withoutEscapes false (print colors text).toList = (print false text).toList := by
  have hshown : '\x1b' ∉ (Layout.expandRuns 0 text).characters := by
    rwa [Layout.characters_expandRuns, ← List.count_eq_zero,
      Layout.count_expand (by decide) (by decide) (by decide), List.count_eq_zero]
  rw [toList_print_false, print, String.toList_append, withoutEscapes_render hshown,
    Layout.characters_expandRuns]
  rfl

variable {text : List StyledText}

theorem forall_mem_joinLines (h : ∀ line ∈ text, ∀ c ∈ line.characters, IsPrintable c) :
    ∀ c ∈ (joinLines text).characters, c = '\n' ∨ IsPrintable c := by
  induction text using joinLines.induct with
  | case1 => simp [joinLines]
  | case2 line =>
    intro c hc
    exact .inr (h line List.mem_cons_self c hc)
  | case3 line rest hrest ih =>
    rw [List.forall_mem_cons] at h
    rw [joinLines, characters_append, characters_append, List.forall_mem_append,
      List.forall_mem_append]
    · refine ⟨⟨fun c hc => .inr (h.1 c hc), fun c hc => .inl ?_⟩, ih h.2⟩
      simpa using hc
    · exact hrest

/-- The lines of a report are the lines that it was made of. -/
theorem lines_print (hne : text ≠ [])
    (h : ∀ line ∈ text, ∀ c ∈ line.characters, IsPrintable c) :
    lines (print false (joinLines text)).toList = text.map characters := by
  have hfeed : ∀ line ∈ text.map characters, '\n' ∉ line := by
    intro line hline hmem
    obtain ⟨styled, hstyled, rfl⟩ := List.mem_map.mp hline
    exact absurd (h styled hstyled _ hmem) (by decide)
  rw [print_false (forall_mem_joinLines h), lines, List.splitOn_append_cons_self,
    characters_joinLines, List.splitOn_intercalate '\n' hfeed (by simpa using hne)]
  simp

end StyledText

end DiceCalculator
