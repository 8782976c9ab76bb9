import DiceCalculator.Command
import DiceCalculator.Proofs.Options.Verbosity
/-!
# How the command ends

A part of a run comes to the same result or stop whatever was logged before it, and the threshold
for log lines has no part in it. So the end of a run can be followed without the log: the command
prints what the formatter gives for the expression, or it reports the first thing that went wrong
and prints nothing.
-/
namespace DiceCalculator.Command

/-! ## What a run comes to, in terms of what it is asked -/

def inColor (world : Surroundings) (options : Options) (settings : Settings) : Bool :=
  settings.usesColors options.colors world.isTerminal

def asJson (options : Options) (settings : Settings) : Bool :=
  options.json || !settings.json.isFalsy

/-- The seed that is given, or else the drawn one. -/
def seed? (world : Surroundings) : OptionValue Int → Option Int
  | .absent => some world.drawnSeed
  | .blank => none
  | .given seed => some seed

/-- The evaluation that the options ask for rejects an operand of the expression. -/
def Rejects (world : Surroundings) (options : Options) (e : Expr) (error : EvalError) : Prop :=
  if options.pmf then
    (e.distribution : Except EvalFailure (Distribution Float)) = .error (.rejected error)
  else ∃ seed, seed? world options.seed = some seed ∧ e.evaluate seed = .error (.rejected error)

/-- The settings are refused, the expression cannot be read, or its evaluation rejects an operand.
-/
def Fails (world : Surroundings) (options : Options) : Prop :=
  (∃ error, loadSettings world options = .error (.refused error)) ∨
    (∃ error, Expr.parse options.expression = .error error) ∨
    ∃ e error, Expr.parse options.expression = .ok e ∧ Rejects world options e error

/-- The report of the first of the things that go wrong. -/
inductive FirstFailure (world : Surroundings) (options : Options) : String → Prop
  | settings {error : SettingsError} (load : loadSettings world options = .error (.refused error)) :
      FirstFailure world options (plainError error.message)
  | reading {settings : Settings} {error : ParseError}
      (load : loadSettings world options = .ok settings)
      (parse : Expr.parse options.expression = .error error) :
      FirstFailure world options
        (Report.diagnostic (Diagnostic.ofParseError options.expression error)
          (inColor world options settings))
  | evaluation {settings : Settings} {e : Expr} {error : EvalError}
      (load : loadSettings world options = .ok settings)
      (parse : Expr.parse options.expression = .ok e) (rejects : Rejects world options e error) :
      FirstFailure world options (Report.evalError error (inColor world options settings))

/-- The text that a distribution is formatted to. -/
inductive FormatsLaw (world : Surroundings) (settings : Settings) (e : Expr)
    (d : Distribution Float) (colors : Bool) : Bool → String → Prop
  | json {text : String} (format : Json.distribution? d = some text) :
      FormatsLaw world settings e d colors true (text ++ "\n")
  | report {width : Int} {text : StyledText} (room : settings.barWidth.width = .ok width)
      (format : Report.law e d colors world.width width = .ok text) :
      FormatsLaw world settings e d colors false (StyledText.print colors text)

def rollText (e : Expr) (result : RollResult) (json colors : Bool) : String :=
  if json then Json.roll result ++ "\n" else StyledText.print colors (Report.roll e result colors)

/-- The text that the selected formatter gives for the expression. -/
inductive Formats (world : Surroundings) (options : Options) : String → Prop
  | law {settings : Settings} {e : Expr} {d : Distribution Float} {out : String}
      (load : loadSettings world options = .ok settings)
      (parse : Expr.parse options.expression = .ok e) (pmf : options.pmf = true)
      (law : e.distribution = .ok d)
      (format : FormatsLaw world settings e d (inColor world options settings)
        (asJson options settings) out) : Formats world options out
  | roll {settings : Settings} {e : Expr} {seed : Int} {result : RollResult}
      (load : loadSettings world options = .ok settings)
      (parse : Expr.parse options.expression = .ok e) (pmf : options.pmf = false)
      (start : seed? world options.seed = some seed) (roll : e.evaluate seed = .ok result) :
      Formats world options
        (rollText e result (asJson options settings) (inColor world options settings))

def IsLog (text : String) : Prop :=
  ∃ lines : List LogLine, text = String.join (lines.map LogLine.render)

section Verdicts

variable {world : Surroundings} {options : Options} {report out : String}

private theorem FirstFailure.fails (h : FirstFailure world options report) :
    Fails world options := by
  cases h with
  | settings load => exact .inl ⟨_, load⟩
  | reading load parse => exact .inr (.inl ⟨_, parse⟩)
  | evaluation load parse rejects => exact .inr (.inr ⟨_, _, parse, rejects⟩)

private theorem Formats.not_fails (h : Formats world options out) : ¬ Fails world options := by
  have reads {settings : Settings} {e : Expr} (load : loadSettings world options = .ok settings)
      (parse : Expr.parse options.expression = .ok e)
      (accepts : ∀ error, ¬ Rejects world options e error) : ¬ Fails world options := by
    rintro (⟨error, hload⟩ | ⟨error, hparse⟩ | ⟨e', error, hparse, hrejects⟩)
    · cases load.symm.trans hload
    · cases parse.symm.trans hparse
    · obtain rfl := Except.ok.inj (parse.symm.trans hparse)
      exact accepts error hrejects
  cases h with
  | law load parse pmf law format =>
    refine reads load parse fun error hrejects => ?_
    rw [Rejects, if_pos pmf] at hrejects
    rw [law] at hrejects
    cases hrejects
  | roll load parse pmf start roll =>
    refine reads load parse fun error hrejects => ?_
    rw [Rejects, if_neg (by rw [pmf]; decide)] at hrejects
    obtain ⟨seed, hseed, hroll⟩ := hrejects
    rw [start] at hseed
    obtain rfl := Option.some.inj hseed
    rw [roll] at hroll
    cases hroll

end Verdicts

/-! ## Following a run without its log -/

/-- A part of a run comes to this, whatever was logged before. -/
def Ends {α : Type} (x : CommandM α) (r : Except Stop α) : Prop :=
  ∀ lines, (x.run.run lines).1 = r

section Rules

variable {α β : Type} {x : CommandM α} {f : α → CommandM β}

private theorem ends_pure (a : α) : Ends (pure a : CommandM α) (.ok a) := fun _ => rfl

private theorem ends_throw (stop : Stop) :
    Ends (throw stop : CommandM α) (.error stop) := fun _ => rfl

private theorem ends_log (level : LogLevel) (source message : String) :
    Ends (log level source message) (.ok ()) := fun _ => rfl

theorem Ends.bind {a : α} {r : Except Stop β} (hx : Ends x (.ok a)) (hf : Ends (f a) r) :
    Ends (x >>= f) r := by
  intro lines
  rw [ExceptT.run_bind, StateT.run_bind]
  rcases hrun : x.run.run lines with ⟨outcome, after⟩
  obtain rfl : outcome = .ok a := by rw [← hx lines, hrun]
  exact hf after

theorem Ends.bind_error {stop : Stop} (hx : Ends x (.error stop)) :
    Ends (x >>= f) (.error stop) := by
  intro lines
  rw [ExceptT.run_bind, StateT.run_bind]
  rcases hrun : x.run.run lines with ⟨outcome, after⟩
  obtain rfl : outcome = .error stop := by rw [← hx lines, hrun]
  rfl

end Rules

def stopOf (colors : Bool) : EvalFailure → Stop
  | .rejected error => .reported (Report.evalError error colors)
  | .fault fault => .crashed (.arithmetic fault)

private theorem ends_orReport {α : Type} {x r : Except EvalFailure α} (colors : Bool) (h : x = r) :
    Ends (orReport colors x) (r.mapError (stopOf colors)) := by
  subst h
  rcases x with (error | fault) | a
  · exact ends_throw _
  · exact ends_throw _
  · exact ends_pure a

private theorem ends_parse (text : String) (colors : Bool) :
    Ends (parse text colors) ((Expr.parse text).mapError fun error =>
      .reported (Report.diagnostic (Diagnostic.ofParseError text error) colors)) := by
  rw [parse]
  cases Expr.parse text with
  | error error => exact ends_throw _
  | ok e => exact (ends_log _ _ _).bind ((ends_log _ _ _).bind (ends_pure e))

private theorem ends_distribution (e : Expr) (colors : Bool) :
    Ends (distribution e colors) (e.distribution.mapError (stopOf colors)) := by
  cases hlaw : (e.distribution : Except EvalFailure (Distribution Float)) with
  | error failure => exact Ends.bind_error (ends_orReport colors hlaw)
  | ok d =>
    exact Ends.bind (ends_orReport colors hlaw)
      ((ends_log _ _ _).bind ((ends_log _ _ _).bind (ends_pure d)))

private theorem ends_roll (world : Surroundings) (options : Options) (e : Expr)
    (json colors : Bool) : Ends (roll world options e json colors)
      (match seed? world options.seed with
        | none => .error (.crashed .noSeed)
        | some seed =>
          ((e.evaluate seed).mapError (stopOf colors)).map (rollText e · json colors)) := by
  have hrest (seed : Int) : Ends (do
      log .info mainSource ("seed: " ++ toString seed)
      let result ← orReport colors (e.evaluate seed)
      log .debug rollSource
        ("rolled " ++ e.render ++ " with seed " ++ toString seed ++ ": " ++ toString result.value)
      pure (rollText e result json colors))
      (((e.evaluate seed).mapError (stopOf colors)).map (rollText e · json colors)) := by
    refine (ends_log _ _ _).bind ?_
    cases hroll : e.evaluate seed with
    | error failure => exact Ends.bind_error (ends_orReport colors rfl)
    | ok result => exact Ends.bind (ends_orReport colors rfl) ((ends_log _ _ _).bind (ends_pure _))
  rw [roll]
  cases options.seed with
  | absent => exact (ends_pure _).bind (hrest world.drawnSeed)
  | blank => exact (ends_throw _).bind_error
  | given seed => exact (ends_pure _).bind (hrest seed)

private theorem ends_showDistribution (world : Surroundings) (settings : Settings) (e : Expr)
    (d : Distribution Float) (json colors : Bool) :
    (∃ out, Ends (showDistribution world settings e d json colors) (.ok out) ∧
        FormatsLaw world settings e d colors json out) ∨
      ∃ crash, Ends (showDistribution world settings e d json colors)
        (.error (.crashed crash)) := by
  rw [showDistribution]
  cases json with
  | true =>
    simp only [if_true]
    cases htext : Json.distribution? d with
    | some text => exact .inl ⟨_, ends_pure _, .json htext⟩
    | none => exact .inr ⟨_, ends_throw _⟩
  | false =>
    simp only [Bool.false_eq_true, if_false]
    cases hwidth : settings.barWidth.width with
    | error error => exact .inr ⟨_, ends_throw _⟩
    | ok width =>
      dsimp only
      cases htext : Report.law e d colors world.width width with
      | error fault => exact .inr ⟨_, ends_throw _⟩
      | ok text => exact .inl ⟨_, ends_pure _, .report hwidth htext⟩

/-- What a run comes to: it prints what the formatter gives, it reports its first failure, or it
crashes. -/
inductive Concludes (world : Surroundings) (options : Options) : Except Stop String → Prop
  | prints {out : String} (formats : Formats world options out) : Concludes world options (.ok out)
  | reports {report : String} (first : FirstFailure world options report) :
      Concludes world options (.error (.reported report))
  | crashes (crash : Crash) : Concludes world options (.error (.crashed crash))

section Output

variable {world : Surroundings} {options : Options} {settings : Settings}

theorem output_eq (hplot : options.plot = .absent) :
    output world options settings = (do
      let e ← parse options.expression (inColor world options settings)
      if options.pmf then do
        let d ← distribution e (inColor world options settings)
        showDistribution world settings e d (asJson options settings)
          (inColor world options settings)
      else roll world options e (asJson options settings) (inColor world options settings)) := by
  simp [output, hplot, chart, OptionValue.isUsed, inColor, asJson]

private theorem exists_ends_law {e : Expr} (load : loadSettings world options = .ok settings)
    (hread : Expr.parse options.expression = .ok e) (hpmf : options.pmf = true) :
    ∃ r, Ends (do
        let d ← distribution e (inColor world options settings)
        showDistribution world settings e d (asJson options settings)
          (inColor world options settings)) r ∧ Concludes world options r := by
  have hlaw := ends_distribution e (inColor world options settings)
  cases htable : (e.distribution : Except EvalFailure (Distribution Float)) with
  | error failure =>
    rw [htable] at hlaw
    cases failure with
    | rejected error =>
      have hrejects : Rejects world options e error := by
        rw [Rejects, if_pos hpmf]
        exact htable
      exact ⟨_, hlaw.bind_error, .reports (.evaluation load hread hrejects)⟩
    | fault fault => exact ⟨_, hlaw.bind_error, .crashes _⟩
  | ok d =>
    rw [htable] at hlaw
    obtain ⟨out, hends, hformat⟩ | ⟨crash, hends⟩ := ends_showDistribution world settings e d
      (asJson options settings) (inColor world options settings)
    · exact ⟨_, hlaw.bind hends, .prints (.law load hread hpmf htable hformat)⟩
    · exact ⟨_, hlaw.bind hends, .crashes crash⟩

private theorem exists_ends_roll {e : Expr} (load : loadSettings world options = .ok settings)
    (hread : Expr.parse options.expression = .ok e) (hpmf : options.pmf = false) :
    ∃ r, Ends (roll world options e (asJson options settings) (inColor world options settings)) r ∧
      Concludes world options r := by
  have hroll := ends_roll world options e (asJson options settings) (inColor world options settings)
  cases hseed : seed? world options.seed with
  | none =>
    rw [hseed] at hroll
    exact ⟨_, hroll, .crashes _⟩
  | some seed =>
    rw [hseed] at hroll
    cases hevaluate : e.evaluate seed with
    | error failure =>
      simp only [hevaluate] at hroll
      cases failure with
      | rejected error =>
        have hrejects : Rejects world options e error := by
          rw [Rejects, if_neg (by rw [hpmf]; decide)]
          exact ⟨seed, hseed, hevaluate⟩
        exact ⟨_, hroll, .reports (.evaluation load hread hrejects)⟩
      | fault fault => exact ⟨_, hroll, .crashes _⟩
    | ok result =>
      simp only [hevaluate] at hroll
      exact ⟨_, hroll, .prints (.roll load hread hpmf hseed hevaluate)⟩

private theorem exists_ends_output (load : loadSettings world options = .ok settings)
    (hplot : options.plot = .absent) :
    ∃ r, Ends (output world options settings) r ∧ Concludes world options r := by
  rw [output_eq hplot]
  have hparse := ends_parse options.expression (inColor world options settings)
  cases hread : Expr.parse options.expression with
  | error error =>
    rw [hread] at hparse
    exact ⟨_, hparse.bind_error, .reports (.reading load hread)⟩
  | ok e =>
    rw [hread] at hparse
    cases hpmf : options.pmf with
    | true =>
      obtain ⟨r, hends, hconcludes⟩ := exists_ends_law load hread hpmf
      exact ⟨r, hparse.bind hends, hconcludes⟩
    | false =>
      obtain ⟨r, hends, hconcludes⟩ := exists_ends_roll load hread hpmf
      exact ⟨r, hparse.bind hends, hconcludes⟩

end Output

/-! ## The whole run -/

/-- What is left of a run that comes to this. The log lines stand before a report. -/
inductive Leaves : Except Stop String → CommandResult → Prop
  | printed {out log : String} (hlog : IsLog log) : Leaves (.ok out) ⟨0, out, log⟩
  | reported {report log : String} (hlog : IsLog log) :
      Leaves (.error (.reported report)) ⟨1, "", log ++ report⟩

private theorem isLog_logText (threshold : Nat) (lines : Array LogLine) :
    IsLog (logText threshold lines) := ⟨_, rfl⟩

/-- The end of a run is left to be seen whatever lines reach the threshold. -/
theorem leaves_of_runWith {world : Surroundings} {options : Options} {settings : Settings}
    {result : CommandResult} {r : Except Stop String}
    (load : loadSettings world options = .ok settings)
    (hends : Ends (output world options settings) r)
    (hrun : runWith world options = .ok result) : Leaves r result := by
  rw [runWith, load] at hrun
  cases hthreshold : Threshold.ofRequests options.verbosity settings with
  | format text => simp [hthreshold] at hrun
  | formatTable text => simp [hthreshold] at hrun
  | weight threshold =>
    rcases houtput : (output world options settings).run.run #[] with ⟨r', lines⟩
    obtain rfl : r' = r := by rw [← hends #[], houtput]
    simp only [hthreshold, houtput] at hrun
    rcases r' with (report | crash) | out
    · obtain rfl := Except.ok.inj hrun
      exact .reported (isLog_logText _ _)
    · cases hrun
    · obtain rfl := Except.ok.inj hrun
      exact .printed (isLog_logText _ _)

private theorem Leaves.unique {r : Except Stop String} {a b : CommandResult} (ha : Leaves r a)
    (hb : Leaves r b) : a.exit = b.exit ∧ a.out = b.out := by
  cases ha <;> cases hb <;> exact ⟨rfl, rfl⟩

section Run

variable {world : Surroundings} {options : Options} {result : CommandResult}

/-- A run that ends prints what the formatter gives, or it reports its first failure. -/
theorem verdict (hplot : options.plot = .absent) (hrun : runWith world options = .ok result) :
    (result.exit = 1 ∧ result.out = "" ∧ ∃ log report, IsLog log ∧
        FirstFailure world options report ∧ result.err = log ++ report) ∨
      (result.exit = 0 ∧ Formats world options result.out ∧ IsLog result.err) := by
  cases load : loadSettings world options with
  | error failure =>
    rw [runWith, load] at hrun
    cases failure with
    | refused error =>
      obtain rfl := Except.ok.inj hrun
      exact .inl ⟨rfl, rfl, "", _, ⟨[], rfl⟩, .settings load, (String.empty_append).symm⟩
    | badPath fault => cases hrun
    | flawed flaw => cases hrun
  | ok settings =>
    obtain ⟨r, hends, hconcludes⟩ := exists_ends_output load hplot
    have hleaves := leaves_of_runWith load hends hrun
    cases hconcludes with
    | prints formats =>
      cases hleaves with
      | printed log => exact .inr ⟨rfl, formats, log⟩
    | reports first =>
      cases hleaves with
      | reported log => exact .inl ⟨rfl, rfl, _, _, log, first, rfl⟩
    | crashes crash => cases hleaves

private theorem exit_out_of_verbosity {again : CommandResult} {n : Nat}
    (hplot : options.plot = .absent) (hrun : runWith world options = .ok result)
    (hagain : runWith world { options with verbosity := n } = .ok again) :
    again.exit = result.exit ∧ again.out = result.out := by
  cases load : loadSettings world options with
  | error failure =>
    have load' : loadSettings world { options with verbosity := n } = .error failure := load
    rw [runWith, load] at hrun
    rw [runWith, load'] at hagain
    cases failure with
    | refused error =>
      obtain rfl := Except.ok.inj hrun
      obtain rfl := Except.ok.inj hagain
      exact ⟨rfl, rfl⟩
    | badPath fault => cases hrun
    | flawed flaw => cases hrun
  | ok settings =>
    obtain ⟨r, hends, -⟩ := exists_ends_output load hplot
    -- the settings and the output do not depend on the verbosity, only the threshold does
    have load' : loadSettings world { options with verbosity := n } = .ok settings := load
    exact (leaves_of_runWith load' hends hagain).unique (leaves_of_runWith load hends hrun)

/-- The command prints a whole result or none. Of the runs that end, those and only those exit with
one that are given refused settings, an expression that cannot be read, or one whose evaluation
rejects an operand; they print nothing and report the first of these behind their log lines. All
others print what the selected formatter gives, and leave nothing but log lines besides. How many
log lines are requested makes no difference to the exit status and the output. -/
theorem run_prints_whole_or_none {arguments : List String}
    (harguments : CommandLine.parse arguments = .run options) (hplot : options.plot = .absent)
    (hrun : run world arguments = .ok result) :
    (result.exit = 1 ↔ Fails world options) ∧
      (Fails world options → result.out = "" ∧ ∃ log report, IsLog log ∧
        FirstFailure world options report ∧ result.err = log ++ report) ∧
      (¬ Fails world options → result.exit = 0 ∧ Formats world options result.out ∧
        IsLog result.err) ∧
      (∀ more, CommandLine.parse (List.replicate more "-v" ++ arguments) =
        .run (options.louder more)) ∧
      ∀ (others : List String) (n : Nat) (again : CommandResult),
        CommandLine.parse others = .run { options with verbosity := n } →
        run world others = .ok again → again.exit = result.exit ∧ again.out = result.out := by
  have runs {arguments : List String} {options : Options} {result : CommandResult}
      (harguments : CommandLine.parse arguments = .run options)
      (hrun : run world arguments = .ok result) : runWith world options = .ok result := by
    rw [run, harguments] at hrun
    exact hrun
  have hends := runs harguments hrun
  refine ⟨?exit, ?reports, ?prints, ?louder, ?again⟩
  case exit =>
    obtain ⟨hexit, -, _, _, -, hfirst, -⟩ | ⟨hexit, hformats, -⟩ := verdict hplot hends
    · exact iff_of_true hexit hfirst.fails
    · exact iff_of_false (by rw [hexit]; decide) hformats.not_fails
  case reports =>
    intro hfails
    obtain ⟨-, hreport⟩ | ⟨-, hformats, -⟩ := verdict hplot hends
    · exact hreport
    · exact absurd hfails hformats.not_fails
  case prints =>
    intro hpasses
    obtain ⟨-, -, _, _, -, hfirst, -⟩ | hprints := verdict hplot hends
    · exact absurd hfirst.fails hpasses
    · exact hprints
  case louder =>
    intro more
    rw [CommandLine.parse_replicate_verbose, harguments]
    rfl
  case again =>
    intro others n again hothers hagain
    exact exit_out_of_verbosity hplot hends (runs hothers hagain)

end Run

theorem run_prints_whole_or_none_of_quotients :
    let world : Surroundings := ⟨fun _ => .ok "json: true", fun _ => none, false, 80, 7⟩
    let rejected : Options := ⟨"6 / 0", false, false, false, .given 3, .absent, .absent, 0⟩
    let accepted : Options := ⟨"6 / 3", false, false, false, .absent, .absent, .absent, 1⟩
    CommandLine.parse ["6 / 0", "--seed", "3"] = .run rejected ∧
      run world ["6 / 0", "--seed", "3"] = .ok ⟨1, "",
        "error: Division by zero is undefined. The expression 0 evaluated to 0.\n"⟩ ∧
      CommandLine.parse ["-v", "6 / 3"] = .run accepted ∧
      run world ["-v", "6 / 3"] = .ok ⟨0, "\x7b\"value\":2,\"rolls\":\x7b\x7d\x7d\n",
        "INFO:diceroll.__main__:expression: 6 / 3\nINFO:diceroll.__main__:seed: 7\n"⟩ ∧
      Fails world rejected ∧
      Formats world accepted "\x7b\"value\":2,\"rolls\":\x7b\x7d\x7d\n" := by
  intro world rejected accepted
  have hrejected : CommandLine.parse ["6 / 0", "--seed", "3"] = .run rejected := by decide +kernel
  have hreport : run world ["6 / 0", "--seed", "3"] = .ok ⟨1, "",
      "error: Division by zero is undefined. The expression 0 evaluated to 0.\n"⟩ := by
    decide +kernel
  have haccepted : CommandLine.parse ["-v", "6 / 3"] = .run accepted := by decide +kernel
  have hprint : run world ["-v", "6 / 3"] = .ok ⟨0, "\x7b\"value\":2,\"rolls\":\x7b\x7d\x7d\n",
      "INFO:diceroll.__main__:expression: 6 / 3\nINFO:diceroll.__main__:seed: 7\n"⟩ := by
    decide +kernel
  have hfails := (run_prints_whole_or_none hrejected rfl hreport).1.mp rfl
  obtain ⟨hexit, -, hpasses, -⟩ := run_prints_whole_or_none haccepted rfl hprint
  have hformats := (hpasses fun h => absurd (hexit.mpr h) (by decide)).2.1
  exact ⟨hrejected, hreport, haccepted, hprint, hfails, hformats⟩

end DiceCalculator.Command
