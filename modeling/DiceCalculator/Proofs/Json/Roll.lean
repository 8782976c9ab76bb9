import DiceCalculator.Proofs.Json.Reader
import DiceCalculator.Proofs.Rolling.Ledger
import DiceCalculator.Proofs.Text.Numerals
/-!
# Reading rolls back

The text of a roll is a document from which a reader that trusts no integer beyond the doubles gets
the whole result back: such integers are in quotes, so the reader never meets one as a number.
-/
namespace DiceCalculator.Json

namespace Value

/-- An integer that is written as a number or as a string. -/
def integer? : Value → Option Int
  | .integer n => some n
  | .text s => s.toInt?
  | _ => none

def integers? : Value → Option (List Int)
  | .list items => items.mapM integer?
  | _ => none

/-- The number of sides behind the `d` of a name. -/
def sides? (name : String) : Option Int :=
  match name.toList with
  | 'd' :: rest => (String.ofList rest).toInt?
  | _ => none

def dice? (field : String × Value) : Option Ledger.Entry := do
  let sides ← sides? field.1
  let rolls ← field.2.integers?
  pure ⟨sides, rolls.toArray⟩

/-- The result of a roll. An object in which a name comes twice is refused. -/
def result? : Value → Option RollResult
  | .object [("value", value), ("rolls", .object fields)] => do
    guard (fields.map Prod.fst).Nodup
    let value ← value.integer?
    let entries ← fields.mapM dice?
    pure ⟨⟨entries⟩, value⟩
  | _ => none

def ofInt (n : Int) : Value := if isSafe n then .integer n else .text (toString n)

/-- The field that the dice of one size are written as. -/
def ofEntry (entry : Ledger.Entry) : String × Value :=
  ("d" ++ toString entry.sides, .list (entry.rolls.toList.map ofInt))

def ofResult (result : RollResult) : Value :=
  .object [("value", ofInt result.value), ("rolls", .object (result.ledger.entries.map ofEntry))]

private theorem integer?_ofInt (n : Int) : (ofInt n).integer? = some n := by
  rw [ofInt]
  split
  · rfl
  · simp [integer?]

private theorem integers?_ofInt (ns : List Int) :
    (Value.list (ns.map ofInt)).integers? = some ns := by
  rw [integers?, List.mapM_map]
  induction ns with
  | nil => rfl
  | cons n ns ih => simp [integer?_ofInt, ih]

private theorem sides?_append (n : Int) : sides? ("d" ++ toString n) = some n := by
  simp [sides?]

private theorem dice?_ofEntry (entry : Ledger.Entry) : dice? (ofEntry entry) = some entry := by
  simp only [dice?, ofEntry, sides?_append, integers?_ofInt]
  rfl

private theorem entries?_ofEntry (entries : List Ledger.Entry) :
    (entries.map ofEntry).mapM dice? = some entries := by
  rw [List.mapM_map]
  induction entries with
  | nil => rfl
  | cons entry entries ih => simp [dice?_ofEntry, ih]

private theorem nodup_names {ledger : Ledger} (h : ledger.sizes.Nodup) :
    ((ledger.entries.map ofEntry).map Prod.fst).Nodup := by
  have hnames : (ledger.entries.map ofEntry).map Prod.fst =
      ledger.sizes.map fun size => "d" ++ toString size := by
    simp [Ledger.sizes, ofEntry, Function.comp_def]
  rw [hnames]
  refine h.map fun a b hab => ?_
  have hread := congrArg sides? hab
  rw [sides?_append, sides?_append] at hread
  exact Option.some.inj hread

theorem result?_ofResult {result : RollResult} (h : result.ledger.sizes.Nodup) :
    (ofResult result).result? = some result := by
  obtain ⟨⟨entries⟩, value⟩ := result
  simp only [ofResult, result?, guard, nodup_names h, if_true, integer?_ofInt, entries?_ofEntry]
  rfl

end Value

private theorem isOrdinary_of_mem_toString {n : Int} {c : Char} (h : c ∈ (toString n).toList) :
    Symbol.isOrdinary c := by
  rw [Symbol.isOrdinary, Bool.and_eq_true, bne_iff_ne, bne_iff_ne]
  obtain rfl | hdigit := minus_or_isDigit_of_mem_toString h
  · decide
  · constructor
    all_goals
      rintro rfl
      exact absurd hdigit (by decide)

private theorem denotes_ofInt (n : Int) : Denotes (integer n) (.ofInt n) := by
  rw [integer, Value.ofInt]
  split
  next hsafe => exact denotes_integer hsafe
  next => exact denotes_text fun c hc => isOrdinary_of_mem_toString hc

private theorem denotes_integers (ns : List Int) :
    Denotes (list (ns.map integer)) (.list (ns.map .ofInt)) := by
  refine .list ?_
  rw [List.forall₂_map_left_iff, List.forall₂_map_right_iff]
  exact List.forall₂_same.mpr fun n _ => denotes_ofInt n

private theorem denotesField_ofEntry (dice : Ledger.Entry) :
    DenotesField (entry dice) (Value.ofEntry dice) := by
  refine ⟨rfl, fun c hc => ?_, denotes_integers dice.rolls.toList⟩
  have hmem : c = 'd' ∨ c ∈ (toString dice.sides).toList := by simpa [entry] using hc
  obtain rfl | hsides := hmem
  · rfl
  · exact isOrdinary_of_mem_toString hsides

theorem denotes_ofResult (result : RollResult) : Denotes (roll result) (.ofResult result) := by
  have hentries : List.Forall₂ DenotesField (result.ledger.entries.map entry)
      (result.ledger.entries.map Value.ofEntry) := by
    rw [List.forall₂_map_left_iff, List.forall₂_map_right_iff]
    exact List.forall₂_same.mpr fun dice _ => denotesField_ofEntry dice
  have hrolls : Denotes _ _ := .object hentries
  have hvalueName : ∀ c ∈ "value".toList, Symbol.isOrdinary c := List.all_eq_true.mp rfl
  have hrollsName : ∀ c ∈ "rolls".toList, Symbol.isOrdinary c := List.all_eq_true.mp rfl
  exact .object (.cons ⟨rfl, hvalueName, denotes_ofInt result.value⟩
    (.cons ⟨rfl, hrollsName, hrolls⟩ .nil))

/-- The text of a roll loses nothing. It is cut into symbols, none of which is an integer that
doubles do not hold exactly, and the document that they make tells of the same result: the same
value, the same sizes in the same order, and the same rolls of each in draw order. So the texts of
different results differ. -/
theorem roll_read_back :
    (∀ result : RollResult, result.ledger.sizes.Nodup →
      ∃ symbols value, Symbol.scan (roll result).toList = some symbols ∧
        (∀ n, .integer n ∈ symbols → -(2 ^ 53 - 1) ≤ n ∧ n ≤ 2 ^ 53 - 1) ∧
        Value.ofSymbols? symbols = some value ∧ value.result? = some result) ∧
      ∀ a b : RollResult, a.ledger.sizes.Nodup → b.ledger.sizes.Nodup →
        roll a = roll b → a = b := by
  have hdocument (result : RollResult) : ∃ symbols, CutsInto (roll result) symbols ∧
      Value.ofSymbols? symbols = some (.ofResult result) := by
    obtain ⟨symbols, hcut, hread⟩ := denotes_ofResult result
    have hvalue := hread [] []
    rw [List.append_nil] at hvalue
    exact ⟨symbols, hcut, hvalue⟩
  refine ⟨fun result h => ?_, fun a b ha hb htext => ?_⟩
  · obtain ⟨symbols, hcut, hvalue⟩ := hdocument result
    exact ⟨symbols, _, hcut.scan, hcut.isExact, hvalue, Value.result?_ofResult h⟩
  · obtain ⟨symbols, hcut, hvalue⟩ := hdocument a
    obtain ⟨symbols', hcut', hvalue'⟩ := hdocument b
    obtain rfl : symbols = symbols' := Option.some.inj (hcut.scan.symm.trans (htext ▸ hcut'.scan))
    have hdocuments : Value.ofResult a = Value.ofResult b :=
      Option.some.inj (hvalue.symm.trans hvalue')
    have hresult := Value.result?_ofResult ha
    rw [hdocuments, Value.result?_ofResult hb] at hresult
    exact (Option.some.inj hresult).symm

theorem roll_read_back_of_large_dice :
    let result : RollResult := ⟨⟨[⟨9007199254740992, #[9007199254740991, 9007199254740992]⟩,
      ⟨6, #[]⟩, ⟨20, #[1, 20, 7]⟩]⟩, -9007199254740992⟩
    let other : RollResult := ⟨⟨[⟨20, #[1, 20, 7]⟩]⟩, -9007199254740992⟩
    result.ledger.sizes.Nodup ∧ other.ledger.sizes.Nodup ∧
      roll other =
        "\x7b\"value\":\"-9007199254740992\",\"rolls\":\x7b\"d20\":[1,20,7]\x7d\x7d" ∧
      (∃ symbols value, Symbol.scan (roll result).toList = some symbols ∧
        (∀ n, .integer n ∈ symbols → -(2 ^ 53 - 1) ≤ n ∧ n ≤ 2 ^ 53 - 1) ∧
        Value.ofSymbols? symbols = some value ∧ value.result? = some result) ∧
      roll result ≠ roll other := by
  intro result other
  have hresult : result.ledger.sizes.Nodup := by decide
  have hother : other.ledger.sizes.Nodup := by decide
  refine ⟨hresult, hother, by decide +kernel, roll_read_back.1 result hresult, fun htext => ?_⟩
  exact absurd (roll_read_back.2 result other hresult hother htext) (by decide)

end DiceCalculator.Json
