import DiceCalculator.Proofs.Expr.Steps

/-!
# What is watched

A watched computation is compared with the plain one, from every state with an invariant: it has to
do the same, and the steps that it notes have to have a property. Such comparisons compose along
the computation, so that each step is looked at once, where it is taken.
-/
namespace DiceCalculator

variable {α S β γ : Type}

/-- From all states with an invariant, which is kept, the watched computation does what the plain
one does, and the steps that it notes have a property. -/
def Watches (inv : S → Prop) (p : Step α → Prop) (y : Watched α S β) (x : StateM S β) : Prop :=
  ∀ s, inv s → inv (x.run s).2 ∧ ∀ steps, ∃ more,
    y.run (steps, s) = ((x.run s).1, (steps ++ more, (x.run s).2)) ∧ ∀ step ∈ more, p step

section Watches

variable {inv : S → Prop} {p : Step α → Prop}

theorem watches_pure (b : β) : Watches inv p (pure b) (pure b) := by
  intro s hs
  refine ⟨hs, fun steps => ⟨[], ?_, by simp⟩⟩
  rw [List.append_nil]
  rfl

theorem watches_quiet {x : StateM S β} (hx : ∀ s, inv s → inv (x.run s).2) :
    Watches inv p (Watched.quiet x) x := by
  intro s hs
  refine ⟨hx s hs, fun steps => ⟨[], ?_, by simp⟩⟩
  rw [List.append_nil]
  rfl

theorem Watches.bind {y : Watched α S β} {x : StateM S β} {f : β → Watched α S γ}
    {g : β → StateM S γ} (hy : Watches inv p y x)
    (hf : ∀ s, inv s → Watches inv p (f (x.run s).1) (g (x.run s).1)) :
    Watches inv p (y >>= f) (x >>= g) := by
  intro s hs
  obtain ⟨hafter, hrun⟩ := hy s hs
  obtain ⟨hend, hrest⟩ := hf s hs _ hafter
  refine ⟨hend, fun steps => ?_⟩
  obtain ⟨first, hfirst, hp⟩ := hrun steps
  obtain ⟨second, hsecond, hp'⟩ := hrest (steps ++ first)
  refine ⟨first ++ second, ?_, ?_⟩
  · rw [StateT.run_bind, hfirst]
    change (f (x.run s).1).run _ = _
    rw [hsecond, List.append_assoc]
    rfl
  · intro step hstep
    rcases List.mem_append.mp hstep with h | h
    · exact hp step h
    · exact hp' step h

theorem Watches.note {y : Watched α S β} {x : StateM S β} {step : Step α} (hp : p step)
    (hy : Watches inv p y x) : Watches inv p (Watched.note step >>= fun _ => y) x := by
  intro s hs
  obtain ⟨hafter, hrun⟩ := hy s hs
  refine ⟨hafter, fun steps => ?_⟩
  obtain ⟨more, hmore, hmem⟩ := hrun (steps ++ [step])
  refine ⟨step :: more, ?_, List.forall_mem_cons.mpr ⟨hp, hmem⟩⟩
  rw [StateT.run_bind]
  change y.run (steps ++ [step], s) = _
  rw [hmore, List.append_assoc]
  rfl

theorem Watches.map {y : Watched α S β} {x : StateM S β} (hy : Watches inv p y x) (f : β → γ) :
    Watches inv p (f <$> y) (f <$> x) := by
  rw [← bind_pure_comp, ← bind_pure_comp]
  exact hy.bind fun _ _ => watches_pure _

theorem watches_foldlM {f : β → γ → Watched α S β} {g : β → γ → StateM S β} {items : List γ}
    (h : ∀ b, ∀ c ∈ items, Watches inv p (f b c) (g b c)) (start : β) :
    Watches inv p (items.foldlM f start) (items.foldlM g start) := by
  induction items generalizing start with
  | nil => exact watches_pure start
  | cons c items ih =>
      rw [List.foldlM_cons, List.foldlM_cons]
      refine (h start c List.mem_cons_self).bind fun s _ => ?_
      exact ih (fun b d hd => h b d (List.mem_cons_of_mem c hd)) _

theorem watches_mapM {f : β → Watched α S γ} {g : β → γ} {items : List β}
    (h : ∀ b ∈ items, Watches inv p (f b) (pure (g b))) :
    Watches inv p (items.mapM f) (pure (items.map g)) := by
  induction items with
  | nil => exact watches_pure []
  | cons b items ih =>
      rw [List.mapM_cons, List.map_cons]
      have hrest := ih fun c hc => h c (List.mem_cons_of_mem b hc)
      change Watches inv p _
        (pure (g b) >>= fun c => pure (items.map g) >>= fun cs => pure (c :: cs))
      exact (h b List.mem_cons_self).bind fun _ _ => hrest.bind fun _ _ => watches_pure _

end Watches

section Outcome

variable {x : ExceptT EvalFailure (StateM S) β} {g : β → ExceptT EvalFailure (StateM S) γ} {s : S}

theorem run_bind_ok {b : β} (h : (x.run.run s).1 = .ok b) :
    (x >>= g).run.run s = (g b).run.run (x.run.run s).2 := by
  rw [ExceptT.run_bind, StateT.run_bind]
  rcases hrun : x.run.run s with ⟨outcome, after⟩
  rw [hrun] at h
  subst h
  rfl

private theorem run_bind_error {failure : EvalFailure} (h : (x.run.run s).1 = .error failure) :
    (x >>= g).run.run s = (.error failure, (x.run.run s).2) := by
  rw [ExceptT.run_bind, StateT.run_bind]
  rcases hrun : x.run.run s with ⟨outcome, after⟩
  rw [hrun] at h
  subst h
  rfl

end Outcome

/-- The watched computation does what the plain one does, as above, and a failure is always one of
the errors that name an operand. -/
structure Guarded (inv : S → Prop) (p : Step α → Prop)
    (y : ExceptT EvalFailure (Watched α S) β) (x : ExceptT EvalFailure (StateM S) β) : Prop where
  watches : Watches inv p y.run x.run
  rejects : ∀ s, inv s → ∀ failure, (x.run.run s).1 = .error failure →
    ∃ error, failure = .rejected error

section Guarded

variable {inv : S → Prop} {p : Step α → Prop}

theorem guarded_pure (b : β) : Guarded inv p (pure b) (pure b) where
  watches := watches_pure (Except.ok b)
  rejects := by
    intro s _ failure hfailure
    cases hfailure

theorem Watches.lift {y : Watched α S β} {x : StateM S β} (hy : Watches inv p y x) :
    Guarded inv p (ExceptT.lift y) (ExceptT.lift x) where
  watches := hy.map Except.ok
  rejects := by
    intro s _ failure hfailure
    cases hfailure

theorem guarded_check {outcome : Except EvalFailure β}
    (h : ∀ failure, outcome = .error failure → ∃ error, failure = .rejected error) :
    Guarded inv p (Watched.check outcome) (ExceptT.mk (pure outcome)) where
  watches := watches_pure outcome
  rejects := fun _ _ failure hfailure => h failure hfailure

theorem Guarded.note {y : ExceptT EvalFailure (Watched α S) β}
    {x : ExceptT EvalFailure (StateM S) β} {step : Step α} (hp : p step) (hy : Guarded inv p y x) :
    Guarded inv p (ExceptT.lift (Watched.note step) >>= fun _ => y) x where
  watches := Watches.note hp hy.watches
  rejects := hy.rejects

/-- What comes second may rely on the first result. -/
theorem Guarded.bind {y : ExceptT EvalFailure (Watched α S) β}
    {x : ExceptT EvalFailure (StateM S) β} {f : β → ExceptT EvalFailure (Watched α S) γ}
    {g : β → ExceptT EvalFailure (StateM S) γ} (hy : Guarded inv p y x)
    (hf : ∀ s, inv s → ∀ b, (x.run.run s).1 = .ok b → Guarded inv p (f b) (g b)) :
    Guarded inv p (y >>= f) (x >>= g) where
  watches := by
    rw [ExceptT.run_bind, ExceptT.run_bind]
    refine hy.watches.bind fun s hs => ?_
    cases hresult : (x.run.run s).1 with
    | ok b => exact (hf s hs b hresult).watches
    | error failure => exact watches_pure _
  rejects := by
    intro s hs failure hfailure
    cases hresult : (x.run.run s).1 with
    | ok b =>
        rw [run_bind_ok hresult] at hfailure
        exact (hf s hs b hresult).rejects _ (hy.watches s hs).1 failure hfailure
    | error first =>
        rw [run_bind_error hresult] at hfailure
        obtain ⟨error, rfl⟩ := hy.rejects s hs first hresult
        exact ⟨error, (Except.error.inj hfailure).symm⟩

theorem guarded_foldlM {f : β → γ → ExceptT EvalFailure (Watched α S) β}
    {g : β → γ → ExceptT EvalFailure (StateM S) β} {items : List γ}
    (h : ∀ b, ∀ c ∈ items, Guarded inv p (f b c) (g b c)) (start : β) :
    Guarded inv p (items.foldlM f start) (items.foldlM g start) := by
  induction items generalizing start with
  | nil => exact guarded_pure start
  | cons c items ih =>
      rw [List.foldlM_cons, List.foldlM_cons]
      refine (h start c List.mem_cons_self).bind fun _ _ b _ => ?_
      exact ih (fun b d hd => h b d (List.mem_cons_of_mem c hd)) b

end Guarded

end DiceCalculator
