import DiceCalculator.Options.CommandLine
import Mathlib.Control.Monad.Basic
/-!
# Requests for more log lines

A command line is read in the same way whatever number of requests for more log lines has been
counted before. So requests in front of a command line change nothing but their number.
-/
namespace DiceCalculator

def Options.louder (options : Options) (more : Nat) : Options :=
  { options with verbosity := options.verbosity + more }

def CommandLine.louder (more : Nat) : CommandLine → CommandLine
  | .run options => .run (options.louder more)
  | ending => ending

namespace OptionReader

def louder (more : Nat) (r : OptionReader) : OptionReader :=
  { r with options := r.options.louder more }

def ReadM.louder (more : Nat) : ReadM OptionReader → ReadM OptionReader
  | .ok r => .ok (r.louder more)
  | .error ending => .error (ending.louder more)

variable (r : OptionReader) (more : Nat)

private theorem take_louder (text : String) :
    (r.louder more).take text = (r.take text).louder more := by
  obtain ⟨options, expression, extras⟩ := r
  cases expression <;> rfl

private theorem foldl_take_louder (texts : List String) :
    texts.foldl take (r.louder more) = (texts.foldl take r).louder more := by
  induction texts generalizing r with
  | nil => rfl
  | cons text texts ih => rw [List.foldl_cons, List.foldl_cons, take_louder, ih]

private theorem finish_louder (justTaken : Bool) (rest : List String) :
    (r.louder more).finish justTaken rest = (r.finish justTaken rest).louder more := by
  obtain ⟨options, expression, extras⟩ := r
  cases expression with
  | none => exact foldl_take_louder _ more rest
  | some => rfl

private theorem switch_louder (name : OptionName) :
    (r.louder more).switch name = ReadM.louder more (r.switch name) := by
  cases name with
  | verbose => simp only [switch, louder, ReadM.louder, Options.louder, Nat.add_right_comm]
  | _ => rfl

private theorem foldlM_switch_louder (names : List OptionName) :
    names.foldlM switch (r.louder more) = ReadM.louder more (names.foldlM switch r) := by
  induction names generalizing r with
  | nil => rfl
  | cons name names ih =>
    rw [List.foldlM_cons, List.foldlM_cons, switch_louder]
    cases r.switch name with
    | error ending => rfl
    | ok r => exact ih r

private theorem assign_louder (name : OptionName) (value : String) :
    (r.louder more).assign name value = ReadM.louder more (r.assign name value) := by
  cases name with
  | seed =>
    simp only [assign]
    cases Seed.parse value <;> rfl
  | _ => rfl

private theorem louder_of_joined_eq_error {name : OptionName} {letters : List Char}
    {ending : CommandLine} (h : joined name letters = .error ending) :
    ending.louder more = ending := by
  induction letters generalizing name with
  | nil => cases h
  | cons letter letters ih =>
    rw [joined] at h
    split at h
    · cases h
      rfl
    · rename_i next _
      cases hnext : joined next letters with
      | error ending' =>
        rw [hnext] at h
        cases h
        exact ih hnext
      | ok names =>
        rw [hnext] at h
        cases h

private theorem attached_louder (name : OptionName) (spelling value : String) :
    (r.louder more).attached name spelling value =
      ReadM.louder more (r.attached name spelling value) := by
  unfold attached
  split
  · split
    · cases name <;> rfl
    · exact assign_louder r more name value
  · split
    · rfl
    · cases hjoined : joined name value.toList with
      | error ending => exact congrArg Except.error (louder_of_joined_eq_error more hjoined).symm
      | ok names => exact foldlM_switch_louder r more names

private theorem read_switch (justTaken : Bool) {name : OptionName} (spelling : String)
    (rest : List Argument) (h : name.takesValue = false) :
    r.read justTaken (.option name spelling none :: rest) =
      (do let r ← r.switch name; r.read false rest) := by
  rw [read.eq_def]
  exact if_neg (by rw [h]; decide)

private theorem read_missingValue (justTaken : Bool) {name : OptionName} (spelling : String)
    {rest : List Argument} (h : name.takesValue = true)
    (hrest : ∀ value others, rest ≠ .plain value :: others) :
    r.read justTaken (.option name spelling none :: rest) =
      .error (.refused (.missingValue name)) := by
  rw [read.eq_def]
  refine (if_pos h).trans ?_
  split
  · exact absurd rfl (hrest _ _)
  · rfl

private theorem conclude_louder : (r.louder more).conclude = r.conclude.louder more := by
  obtain ⟨options, expression, extras⟩ := r
  cases expression with
  | none => rfl
  | some expression => cases extras <;> rfl

/-- The rest of a reading does not look at the requests that were counted so far. -/
theorem read_louder (justTaken : Bool) (arguments : List Argument) :
    (r.louder more).read justTaken arguments = ReadM.louder more (r.read justTaken arguments) := by
  have andThen (x : ReadM OptionReader) (rest : List Argument)
      (ih : ∀ r : OptionReader, (r.louder more).read false rest =
        ReadM.louder more (r.read false rest)) :
      (do let r ← ReadM.louder more x; r.read false rest) =
        ReadM.louder more (do let r ← x; r.read false rest) := by
    cases x with
    | error ending => rfl
    | ok r => exact ih r
  induction r, justTaken, arguments using OptionReader.read.induct with
  | case1 r justTaken => rfl
  | case2 r justTaken text rest ih =>
    rw [read, read, take_louder]
    exact ih
  | case3 r justTaken rest =>
    rw [read, read, finish_louder]
    rfl
  | case4 r justTaken text rest ih => exact ih
  | case5 r justTaken name spelling value rest ih =>
    rw [read, read, attached_louder]
    exact andThen _ rest ih
  | case6 r justTaken name spelling htakes value rest ih =>
    simp only [read, if_pos htakes, assign_louder]
    exact andThen _ rest ih
  | case7 r justTaken name spelling rest htakes hrest =>
    rw [read_missingValue _ _ _ htakes hrest, read_missingValue _ _ _ htakes hrest]
    rfl
  | case8 r justTaken name spelling rest htakes ih =>
    have hswitch : name.takesValue = false := by simpa using htakes
    rw [read_switch _ _ _ _ hswitch, read_switch _ _ _ _ hswitch, switch_louder]
    exact andThen _ rest ih

end OptionReader

namespace CommandLine

theorem parse_verbose (arguments : List String) :
    parse ("-v" :: arguments) = (parse arguments).louder 1 := by
  have hclassify : Argument.classify "-v" = .ok (.option .verbose "-v" none) := by
    decide +kernel
  have hall : Argument.classifyAll ("-v" :: arguments) =
      (Argument.classifyAll arguments).map (.option .verbose "-v" none :: ·) := by
    rw [Argument.classifyAll, hclassify]
    · rfl
    · decide
  rw [parse, parse, hall]
  cases Argument.classifyAll arguments with
  | error error => rfl
  | ok sorted =>
    have hread : OptionReader.start.read false (.option .verbose "-v" none :: sorted) =
        OptionReader.ReadM.louder 1 (OptionReader.start.read false sorted) := by
      rw [OptionReader.read_switch _ _ _ _ rfl]
      exact OptionReader.read_louder .start 1 false sorted
    simp only [Except.map, hread]
    cases OptionReader.start.read false sorted with
    | error ending => rfl
    | ok r => exact r.conclude_louder 1

/-- Requests for log lines in front of a command line change nothing but their number. -/
theorem parse_replicate_verbose (arguments : List String) (more : Nat) :
    parse (List.replicate more "-v" ++ arguments) = (parse arguments).louder more := by
  induction more with
  | zero =>
    change parse arguments = _
    cases parse arguments <;> rfl
  | succ more ih =>
    rw [List.replicate_succ, List.cons_append, parse_verbose, ih]
    cases parse arguments <;> rfl

end CommandLine

end DiceCalculator
