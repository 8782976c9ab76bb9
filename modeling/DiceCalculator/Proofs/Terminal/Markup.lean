import DiceCalculator.Terminal.Layout
/-!
# Arbitrary text between tags

Text that is put between tags comes out as it is, except for backslashes: one in front of an opening
bracket may be lost, and a single one at the end is doubled. Either can be seen from what comes out.
-/
namespace DiceCalculator.Markup

private theorem mem_of_mem_unescape {text : List Char} {c : Char} (h : c ∈ unescape text) :
    c ∈ text := by
  induction text using unescape.induct with
  | case1 => exact h
  | case2 => exact h
  | case3 first second rest htag ih =>
    rw [unescape, if_pos htag] at h
    exact List.mem_cons_of_mem first (ih h)
  | case4 first second rest htag ih =>
    rw [unescape, if_neg htag] at h
    obtain rfl | hrest := List.mem_cons.mp h
    · exact List.mem_cons_self
    · exact List.mem_cons_of_mem first (ih hrest)

private theorem doubleLast_eq (text : List Char) :
    doubleLast text = text ∨ doubleLast text = text ++ ['\\'] := by
  rw [doubleLast]
  split <;> simp

theorem mem_of_mem_shown {text : String} {c : Char} (h : c ∈ (shown text).toList) :
    c ∈ text.toList ∨ c = '\\' := by
  rw [shown, String.toList_ofList] at h
  obtain hlast | hlast := doubleLast_eq (unescape text.toList)
  · rw [hlast] at h
    exact .inl (mem_of_mem_unescape h)
  · rw [hlast, List.mem_append] at h
    exact h.imp mem_of_mem_unescape List.mem_singleton.mp

private theorem unescape_eq_self {text : List Char} (h : '\\' ∉ text) : unescape text = text := by
  induction text using unescape.induct with
  | case1 => rfl
  | case2 c => rfl
  | case3 c d rest htag ih =>
    obtain ⟨⟨rfl, -⟩, -⟩ : (c = '\\' ∧ d = '[') ∧ _ := by simpa using htag
    exact absurd List.mem_cons_self h
  | case4 c d rest htag ih =>
    rw [unescape, if_neg htag, ih fun hrest => h (List.mem_cons_of_mem c hrest)]

private theorem doubleLast_eq_self {text : List Char} (h : '\\' ∉ text) :
    doubleLast text = text := by
  have hlast (rest : List Char) : text.reverse ≠ '\\' :: rest := by
    intro hreverse
    exact h (List.mem_reverse.mp (hreverse ▸ List.mem_cons_self))
  rw [doubleLast]
  split
  · rfl
  next hreverse => exact absurd hreverse (hlast _)
  · rfl

theorem shown_eq_self {text : String} (h : '\\' ∉ text.toList) : shown text = text := by
  rw [shown, unescape_eq_self h, doubleLast_eq_self h, String.ofList_toList]

private theorem exists_unescape_cons {c : Char} (hc : c ≠ '\\') (rest : List Char) :
    ∃ tail, unescape (c :: rest) = c :: tail := by
  cases rest with
  | nil => exact ⟨[], rfl⟩
  | cons d rest => exact ⟨unescape (d :: rest), by simp [unescape, hc]⟩

section Filter

variable {p : Char → Bool}

/-- A lost backslash is missed where the bracket comes out, whatever is added behind the text. -/
private theorem unescape_eq_of_filter (hbackslash : p '\\') (hbracket : p '[')
    {text extra : List Char}
    (h : (unescape text).filter p ++ extra = text.filter p) :
    unescape text = text ∧ extra = [] := by
  induction text using unescape.induct with
  | case1 => exact ⟨rfl, h⟩
  | case2 c => exact ⟨rfl, List.append_right_eq_self.mp h⟩
  | case3 c d rest htag ih =>
    obtain ⟨⟨rfl, rfl⟩, -⟩ : (c = '\\' ∧ d = '[') ∧ _ := by simpa using htag
    have hne : '[' ≠ '\\' := by decide
    obtain ⟨tail, htail⟩ := exists_unescape_cons hne rest
    rw [unescape, if_pos htag, htail, List.filter_cons_of_pos hbracket,
      List.filter_cons_of_pos hbackslash] at h
    exact absurd (List.cons.inj h).1 hne
  | case4 c d rest htag ih =>
    rw [unescape, if_neg htag] at h ⊢
    have hrest : (unescape (d :: rest)).filter p ++ extra = (d :: rest).filter p := by
      rw [List.filter_cons, List.filter_cons] at h
      split at h
      · exact (List.cons.inj h).2
      · exact h
    exact ⟨congrArg (c :: ·) (ih hrest).1, (ih hrest).2⟩

theorem shown_eq_of_filter (hbackslash : p '\\') (hbracket : p '[') {text : String}
    (h : (shown text).toList.filter p = text.toList.filter p) : shown text = text := by
  rw [shown, String.toList_ofList] at h
  rw [shown]
  obtain hlast | hlast := doubleLast_eq (unescape text.toList)
  · rw [hlast, ← List.append_nil ((unescape text.toList).filter p)] at h
    rw [hlast, (unescape_eq_of_filter hbackslash hbracket h).1, String.ofList_toList]
  · rw [hlast, List.filter_append, List.filter_cons_of_pos hbackslash] at h
    exact absurd (unescape_eq_of_filter hbackslash hbracket h).2 (List.cons_ne_nil _ _)

end Filter

end DiceCalculator.Markup
