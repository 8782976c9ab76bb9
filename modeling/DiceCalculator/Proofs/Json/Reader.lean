import DiceCalculator.Report.Json
import Mathlib.Algebra.Ring.Int.Defs
import Mathlib.Data.List.Forall2
import Std.Data.String.ToInt
/-!
# Reading JSON

Rolls are written in a part of JSON: integers, strings without escapes, lists and objects, with no
blanks between them. A text of this part is cut into symbols, and a reader with a stack of open
lists and objects makes a value of them. A text denotes a value if it is read as that value wherever
one is wanted, so that the texts of lists and objects can be put together from those of their parts.
-/
namespace DiceCalculator.Json

/-- What can stand in a text. A name is a string with the colon behind it. -/
inductive Symbol where
  | integer (n : Int)
  | text (s : String)
  | name (s : String)
  | comma
  | openList
  | closeList
  | openObject
  | closeObject
  deriving DecidableEq, Repr

/-- A value with all that it contains. -/
inductive Value where
  | integer (n : Int)
  | text (s : String)
  | list (items : List Value)
  | object (fields : List (String × Value))

namespace Symbol

def isOrdinary (c : Char) : Bool := c != '"' && c != '\\'

/-- The longest symbol at the very front of a text, with its length. -/
def first? : List Char → Option (Symbol × Nat)
  | [] => none
  | ',' :: _ => some (.comma, 1)
  | '[' :: _ => some (.openList, 1)
  | ']' :: _ => some (.closeList, 1)
  | '\x7b' :: _ => some (.openObject, 1)
  | '\x7d' :: _ => some (.closeObject, 1)
  | '"' :: rest =>
    let word := rest.takeWhile isOrdinary
    match rest.drop word.length with
    | '"' :: ':' :: _ => some (.name (String.ofList word), word.length + 3)
    | '"' :: _ => some (.text (String.ofList word), word.length + 2)
    | _ => none
  | c :: rest =>
    let word := c :: rest.takeWhile Char.isDigit
    (String.ofList word).toInt?.map fun n => (.integer n, word.length)

/-- The symbols of a text, if there is nothing else in it. -/
def scan : List Char → Option (List Symbol)
  | [] => some []
  | c :: rest =>
    match first? (c :: rest) with
    | none => none
    | some (symbol, length) => (scan (rest.drop (length - 1))).map (symbol :: ·)
  termination_by text => text.length
  decreasing_by
    simp only [List.length_drop, List.length_cons]
    omega

end Symbol

/-- A list or an object that lacks its last value. -/
inductive Frame where
  | list (items : List Value)
  | object (fields : List (String × Value)) (name : String)

/-- What the reader expects next. -/
inductive Reader where
  /-- A value has to follow. -/
  | wanting (frames : List Frame)
  /-- A name has to follow, for the next value of an object. -/
  | naming (frames : List Frame) (fields : List (String × Value))
  /-- A value has been read. -/
  | holding (frames : List Frame) (value : Value)

namespace Reader

/-- Reads one symbol; fails if it cannot stand here. Only a list or an object that has just been
opened can be closed before a value. -/
def step : Reader → Symbol → Option Reader
  | .wanting frames, .integer n => some (.holding frames (.integer n))
  | .wanting frames, .text s => some (.holding frames (.text s))
  | .wanting frames, .openList => some (.wanting (.list [] :: frames))
  | .wanting frames, .openObject => some (.naming frames [])
  | .wanting (.list [] :: frames), .closeList => some (.holding frames (.list []))
  | .naming frames fields, .name s => some (.wanting (.object fields s :: frames))
  | .naming frames [], .closeObject => some (.holding frames (.object []))
  | .holding (.list items :: frames) value, .comma =>
    some (.wanting (.list (items ++ [value]) :: frames))
  | .holding (.list items :: frames) value, .closeList =>
    some (.holding frames (.list (items ++ [value])))
  | .holding (.object fields name :: frames) value, .comma =>
    some (.naming frames (fields ++ [(name, value)]))
  | .holding (.object fields name :: frames) value, .closeObject =>
    some (.holding frames (.object (fields ++ [(name, value)])))
  | _, _ => none

/-- The value that is read, if all lists and objects are closed at the end. -/
def read : Reader → List Symbol → Option Value
  | .holding [] value, [] => some value
  | _, [] => none
  | reader, symbol :: symbols => (reader.step symbol).bind (read · symbols)

private theorem read_cons {reader next : Reader} {symbol : Symbol}
    (h : reader.step symbol = some next) (symbols : List Symbol) :
    reader.read (symbol :: symbols) = next.read symbols := by
  cases reader <;> simp [read, h]

end Reader

def Value.ofSymbols? (symbols : List Symbol) : Option Value := (Reader.wanting []).read symbols

/-! ## Symbols of a text -/

/-- What may stand behind a value: nothing, a comma, or the end of a list or an object. -/
def Ends (rest : List Char) : Prop := ∀ c ∈ rest.head?, c = ',' ∨ c = ']' ∨ c = '\x7d'

private theorem ends_nil : Ends [] := by simp [Ends]

private theorem ends_cons {c : Char} (h : c = ',' ∨ c = ']' ∨ c = '\x7d') (rest : List Char) :
    Ends (c :: rest) := by simpa [Ends] using h

namespace Symbol

theorem scan_append {symbol : Symbol} {word rest : List Char} (hword : word ≠ [])
    (h : first? (word ++ rest) = some (symbol, word.length)) :
    scan (word ++ rest) = (scan rest).map (symbol :: ·) := by
  obtain ⟨c, tail, rfl⟩ := List.exists_cons_of_ne_nil hword
  rw [List.cons_append] at h ⊢
  simp [scan, h]

/-- The text is this symbol, whatever stands behind it. -/
structure Marks (text : String) (symbol : Symbol) : Prop where
  ne_nil : text.toList ≠ []
  first? : ∀ rest, first? (text.toList ++ rest) = some (symbol, text.toList.length)
  ne_integer : ∀ n, symbol ≠ .integer n

private theorem marks_comma : Marks "," .comma := ⟨by simp, fun _ => rfl, by simp⟩

private theorem first?_of_toInt? {c : Char} {digits rest : List Char} {n : Int}
    (hc : c = '-' ∨ c.isDigit) (hdigits : ∀ d ∈ digits, d.isDigit) (hrest : Ends rest)
    (hn : (String.ofList (c :: digits)).toInt? = some n) :
    first? (c :: (digits ++ rest)) = some (.integer n, digits.length + 1) := by
  have hword : (digits ++ rest).takeWhile Char.isDigit = digits := by
    have hstop : rest.takeWhile Char.isDigit = [] := by
      cases rest with
      | nil => rfl
      | cons d rest =>
        obtain rfl | rfl | rfl := hrest d rfl <;> rfl
    rw [List.takeWhile_append_of_pos hdigits, hstop, List.append_nil]
  rw [first?]
  · rw [hword, hn]
    rfl
  all_goals
    rintro rfl
    exact absurd hc (by decide)

private theorem first?_integer (n : Int) {rest : List Char} (hrest : Ends rest) :
    first? ((toString n).toList ++ rest) = some (.integer n, (toString n).toList.length) := by
  have hdigits (m : Nat) : ∀ d ∈ Nat.toDigits 10 m, d.isDigit :=
    fun d hd => Nat.isDigit_of_mem_toDigits (by decide) (by decide) hd
  have hn : (String.ofList (toString n).toList).toInt? = some n := by simp
  rw [Int.toString_eq_repr, Int.repr_eq_if] at hn ⊢
  split at hn
  next hsign =>
    rw [if_pos hsign, Nat.toList_repr] at *
    obtain ⟨c, tail, htext⟩ := List.exists_cons_of_ne_nil (Nat.toDigits_ne_nil (b := 10))
    rw [htext] at hn ⊢
    have hword := htext ▸ hdigits n.toNat
    exact first?_of_toInt? (.inr (hword c (by simp))) (fun d hd => hword d (by simp [hd])) hrest hn
  next hsign =>
    rw [if_neg hsign, String.toList_append, Nat.toList_repr] at *
    exact first?_of_toInt? (.inl rfl) (hdigits _) hrest hn

private theorem takeWhile_isOrdinary {s rest : List Char} (hs : ∀ c ∈ s, isOrdinary c) :
    (s ++ '"' :: rest).takeWhile isOrdinary = s := by
  rw [List.takeWhile_append_of_pos hs]
  simp [isOrdinary]

private theorem first?_text {s : String} {rest : List Char} (hs : ∀ c ∈ s.toList, isOrdinary c)
    (hrest : Ends rest) :
    first? (("\"" ++ s ++ "\"").toList ++ rest) =
      some (.text s, ("\"" ++ s ++ "\"").toList.length) := by
  have hcolon (later : List Char) : rest ≠ ':' :: later := by
    rintro rfl
    simp [Ends] at hrest
  simp only [String.toList_append, List.append_assoc]
  simp [first?, takeWhile_isOrdinary hs]

private theorem marks_name {s : String} (hs : ∀ c ∈ s.toList, isOrdinary c) :
    Marks ("\"" ++ s ++ "\":") (.name s) := by
  refine ⟨by simp, fun rest => ?_, by simp⟩
  simp only [String.toList_append, List.append_assoc]
  simp [first?, takeWhile_isOrdinary hs]

end Symbol

/-! ## Values of a text -/

/-- All readers of JSON hold the integer exactly, also those that know no numbers but doubles. -/
def IsExact (n : Int) : Prop := -(2 ^ 53 - 1) ≤ n ∧ n ≤ 2 ^ 53 - 1

theorem isSafe_iff {n : Int} : isSafe n ↔ IsExact n := by
  rw [isSafe, Bool.and_eq_true, decide_eq_true_iff, decide_eq_true_iff]
  rfl

/-- The text is cut into these symbols where a value may end behind it, and every integer among them
is exact. -/
structure CutsInto (text : String) (symbols : List Symbol) : Prop where
  scan_append : ∀ rest, Ends rest →
    Symbol.scan (text.toList ++ rest) = (Symbol.scan rest).map (symbols ++ ·)
  isExact : ∀ n, .integer n ∈ symbols → IsExact n

/-- Wherever a value is wanted, the text is read as this one. -/
def Denotes (text : String) (value : Value) : Prop :=
  ∃ symbols, CutsInto text symbols ∧ ∀ frames later,
    (Reader.wanting frames).read (symbols ++ later) = (Reader.holding frames value).read later

namespace CutsInto

variable {text left right : String} {symbol : Symbol} {symbols before behind : List Symbol}

theorem scan (h : CutsInto text symbols) : Symbol.scan text.toList = some symbols := by
  have hall := h.scan_append [] ends_nil
  rw [List.append_nil, Symbol.scan] at hall
  simpa using hall

private theorem singleton (hne : text.toList ≠ [])
    (hfirst : ∀ rest, Ends rest →
      Symbol.first? (text.toList ++ rest) = some (symbol, text.toList.length))
    (hexact : ∀ n, symbol = .integer n → IsExact n) : CutsInto text [symbol] := by
  refine ⟨fun rest hrest => Symbol.scan_append hne (hfirst rest hrest), fun n hn => ?_⟩
  exact hexact n (List.mem_singleton.mp hn).symm

private theorem of_marks (h : Symbol.Marks text symbol) : CutsInto text [symbol] :=
  singleton h.ne_nil (fun rest _ => h.first? rest) fun n hn => absurd hn (h.ne_integer n)

private theorem cons (hleft : Symbol.Marks left symbol) (h : CutsInto text symbols) :
    CutsInto (left ++ text) (symbol :: symbols) := by
  refine ⟨fun rest hrest => ?_, fun n hn => ?_⟩
  · rw [String.toList_append, List.append_assoc,
      Symbol.scan_append hleft.ne_nil (hleft.first? _), h.scan_append rest hrest]
    simp [Function.comp_def]
  · exact (List.mem_cons.mp hn).elim (fun heq => absurd heq.symm (hleft.ne_integer n)) (h.isExact n)

theorem append (hleft : CutsInto left before) (hright : CutsInto right behind)
    (hends : ∀ rest, Ends (right.toList ++ rest)) :
    CutsInto (left ++ right) (before ++ behind) := by
  refine ⟨fun rest hrest => ?_, fun n hn => ?_⟩
  · rw [String.toList_append, List.append_assoc, hleft.scan_append _ (hends rest),
      hright.scan_append rest hrest]
    simp [Function.comp_def]
  · exact (List.mem_append.mp hn).elim (hleft.isExact n) (hright.isExact n)

end CutsInto

theorem denotes_integer {n : Int} (h : isSafe n) : Denotes (toString n) (.integer n) := by
  have hcut : CutsInto (toString n) [.integer n] := by
    refine .singleton ?_ (fun rest hrest => Symbol.first?_integer n hrest) fun m hm => ?_
    · intro hnil
      have hfirst := Symbol.first?_integer n ends_nil
      rw [hnil] at hfirst
      cases hfirst
    · obtain rfl := Symbol.integer.inj hm
      exact isSafe_iff.mp h
  exact ⟨_, hcut, fun frames later => rfl⟩

theorem denotes_text {s : String} (h : ∀ c ∈ s.toList, Symbol.isOrdinary c) :
    Denotes ("\"" ++ s ++ "\"") (.text s) := by
  have hcut : CutsInto ("\"" ++ s ++ "\"") [.text s] :=
    .singleton (by simp) (fun rest hrest => Symbol.first?_text h hrest) fun n hn => by cases hn
  exact ⟨_, hcut, fun frames later => rfl⟩

/-! ## Lists and objects -/

/-- How a list or an object is read: where the reader stands when a part is wanted behind others,
what value the parts make, and the symbols around them. -/
structure Parts (β : Type) where
  wanting : List Frame → List β → Reader
  value : List β → Value
  opening : Symbol
  closing : Symbol
  step_opening : ∀ frames, (Reader.wanting frames).step opening = some (wanting frames [])
  step_closing : ∀ frames,
    (wanting frames []).step closing = some (.holding frames (value []))

namespace Parts

variable {β : Type} (p : Parts β)

/-- The text is read as one more part, behind which a comma or the end may stand. -/
def Reads (text : String) (part : β) : Prop :=
  ∃ symbols, CutsInto text symbols ∧ ∀ frames before, ∃ next : Reader,
    (∀ later, (p.wanting frames before).read (symbols ++ later) = next.read later) ∧
      next.step .comma = some (p.wanting frames (before ++ [part])) ∧
      next.step p.closing = some (.holding frames (p.value (before ++ [part])))

variable {p}

/-- Parts with commas between them are read one after the other. -/
theorem exists_cutsInto_commas {texts : List String} {parts : List β} (hne : texts ≠ [])
    (h : List.Forall₂ p.Reads texts parts) :
    ∃ symbols, CutsInto (commas texts) symbols ∧ ∀ frames before later,
      (p.wanting frames before).read (symbols ++ p.closing :: later) =
        (Reader.holding frames (p.value (before ++ parts))).read later := by
  induction h with
  | nil => exact absurd rfl hne
  | @cons text part texts parts hpart hparts ih =>
    obtain ⟨symbols, hcut, hread⟩ := hpart
    cases texts with
    | nil =>
      obtain rfl := List.forall₂_nil_left_iff.mp hparts
      refine ⟨symbols, by simpa [commas] using hcut, fun frames before later => ?_⟩
      obtain ⟨next, hnext, -, hclose⟩ := hread frames before
      rw [hnext, Reader.read_cons hclose]
    | cons second texts =>
      obtain ⟨others, hcuts, hreads⟩ := ih (by simp)
      have hends (rest : List Char) : Ends (("," ++ commas (second :: texts)).toList ++ rest) := by
        rw [String.toList_append]
        exact ends_cons (.inl rfl) _
      refine ⟨symbols ++ .comma :: others, ?_, fun frames before later => ?_⟩
      · have hall := hcut.append (hcuts.cons Symbol.marks_comma) hends
        rwa [commas, String.intercalate_cons_cons, String.append_assoc]
      · obtain ⟨next, hnext, hstep, -⟩ := hread frames before
        rw [List.append_assoc, List.cons_append, hnext, Reader.read_cons hstep, hreads]
        simp

theorem denotes {left right : String} {texts : List String} {parts : List β}
    (hleft : Symbol.Marks left p.opening) (hright : Symbol.Marks right p.closing)
    (hends : ∀ rest, Ends (right.toList ++ rest)) (h : List.Forall₂ p.Reads texts parts) :
    Denotes (left ++ commas texts ++ right) (p.value parts) := by
  cases texts with
  | nil =>
    obtain rfl := List.forall₂_nil_left_iff.mp h
    have hcut := (CutsInto.of_marks hright).cons hleft
    refine ⟨_, by simpa [commas] using hcut, fun frames later => ?_⟩
    rw [List.cons_append, Reader.read_cons (p.step_opening frames), List.cons_append,
      Reader.read_cons (p.step_closing frames), List.nil_append]
  | cons text texts =>
    obtain ⟨symbols, hcut, hread⟩ := exists_cutsInto_commas (by simp) h
    have hall := (hcut.append (.of_marks hright) hends).cons hleft
    rw [← String.append_assoc] at hall
    refine ⟨_, hall, fun frames later => ?_⟩
    rw [List.cons_append, Reader.read_cons (p.step_opening frames), List.append_assoc]
    exact hread frames [] later

end Parts

theorem Denotes.list {texts : List String} {values : List Value}
    (h : List.Forall₂ Denotes texts values) : Denotes (list texts) (.list values) := by
  let items : Parts Value := ⟨fun frames before => .wanting (.list before :: frames), .list,
    .openList, .closeList, fun _ => rfl, fun _ => rfl⟩
  have hitems : List.Forall₂ items.Reads texts values :=
    h.imp fun text value ⟨symbols, hcut, hread⟩ =>
      ⟨symbols, hcut, fun frames before => ⟨_, hread _, rfl, rfl⟩⟩
  exact items.denotes ⟨by simp, fun _ => rfl, by simp [items]⟩
    ⟨by simp, fun _ => rfl, by simp [items]⟩ (ends_cons (.inr (.inl rfl))) hitems

/-- The text of a field and the field itself. Its name is written as it stands. -/
structure DenotesField (text : String × String) (field : String × Value) : Prop where
  name_eq : text.1 = field.1
  isOrdinary : ∀ c ∈ text.1.toList, Symbol.isOrdinary c
  denotes : Denotes text.2 field.2

theorem Denotes.object {texts : List (String × String)} {fields : List (String × Value)}
    (h : List.Forall₂ DenotesField texts fields) : Denotes (object texts) (.object fields) := by
  let parts : Parts (String × Value) := ⟨.naming, .object, .openObject, .closeObject,
    fun _ => rfl, fun _ => rfl⟩
  have hparts : List.Forall₂ parts.Reads
      (texts.map fun text => "\"" ++ text.1 ++ "\":" ++ text.2) fields := by
    rw [List.forall₂_map_left_iff]
    refine h.imp fun text field hfield => ?_
    obtain ⟨key, text⟩ := text
    obtain ⟨name, value⟩ := field
    obtain ⟨hname, hordinary, symbols, hcut, hread⟩ := hfield
    obtain rfl : key = name := hname
    refine ⟨_, hcut.cons (Symbol.marks_name hordinary), fun frames before => ?_⟩
    exact ⟨_, hread (.object before key :: frames), rfl, rfl⟩
  exact parts.denotes ⟨by simp, fun _ => rfl, by simp [parts]⟩
    ⟨by simp, fun _ => rfl, by simp [parts]⟩ (ends_cons (.inr (.inr rfl))) hparts

end DiceCalculator.Json
