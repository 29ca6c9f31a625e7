import NumericalMethods.Proofs.Exact.Rational
import NumericalMethods.Proofs.Failure
import NumericalMethods.Proofs.Outcome

/-!
# Raising the cap of a solver

A solver that observes a cap does not look at it while it works: the cap only
cuts its run off.  So an error, or a result that does not complain of the cap,
is final, and a result that does complain of it has a trace that every run with
a higher cap begins with.

The argument is made once, for an outcome obtained from a capped iteration, and
applied to the six solvers.  No law of arithmetic is used.
-/

namespace NumericalMethods

/-- What an outcome tells about the outcome under a higher cap. -/
structure GoesOn {α ρ : Type} [CappedResult α ρ]
    (short long : Except (EngineError α) ρ) : Prop where
  of_error : ∀ e, short = .error e → long = .error e
  of_finished : ∀ r, short = .ok r → ¬ StoppedAtCap r → long = .ok r
  of_stopped : ∀ r, short = .ok r → StoppedAtCap r →
    CappedResult.steps r <+: keptSteps long

section Iteration

variable {α ρ ε τ σ : Type} [CappedResult α ρ]
  {round : σ → Round ε τ σ} {start : σ} {record : τ → StepData α}
  {cause : ε → Breakdown α}
  {result : ℕ → Run τ σ → ρ} {cap cap' : ℕ}

theorem GoesOn.refl (outcome : Except (EngineError α) ρ) :
    GoesOn outcome outcome where
  of_error _ h := h
  of_finished _ h _ := h
  of_stopped r h _ := by
    rw [h]
    exact List.prefix_rfl

/-- The results complain of the cap only where the run could go on, and depend
on the cap only through this complaint. -/
structure ReportsCap (round : σ → Round ε τ σ) (record : τ → StepData α)
    (result : ℕ → Run τ σ → ρ) : Prop where
  steps : ∀ cap run,
    CappedResult.steps (result cap run) = Step.number (run.entries.map record)
  done : ∀ cap run, ¬ StoppedAtCap (result cap run) →
    run.settled = true ∨ round run.state = .halt
  uniform : ∀ cap cap' run, ¬ StoppedAtCap (result cap run) →
    result cap' { run with settled := true } = result cap run

/-- A solver that makes its result of a run goes on under a higher cap. -/
theorem goesOn_ofIteration
    (h : ReportsCap round record result) (hcap : cap ≤ cap') :
    GoesOn (ofIteration (result cap) record cause (iterate round cap start))
      (ofIteration (result cap') record cause (iterate round cap' start)) := by
  rcases Nat.eq_or_lt_of_le hcap with rfl | hlt
  · exact .refl _
  constructor
  · intro e he
    cases hrun : iterate round cap start with
    | ok run => simp [hrun, ofIteration] at he
    | error stopped =>
        rw [hrun] at he
        rw [iterate_eq_error_of_le hrun hcap]
        exact he
  · intro r hr hfinished
    obtain ⟨run, hrun, rfl⟩ := ofIteration_eq_ok_iff.mp hr
    rw [iterate_eq_ok_of_lt hrun (h.done cap run hfinished) hlt]
    exact congrArg Except.ok (h.uniform cap cap' run hfinished)
  · intro r hr _
    have hshort : CappedResult.steps r =
        Step.number
          ((completedEntries (iterate round cap start)).map record) := by
      rw [← keptSteps_ofIteration cause (h.steps cap), hr]
      rfl
    rw [hshort, keptSteps_ofIteration cause (h.steps cap')]
    exact Step.number_prefix_number
      ((completedEntries_prefix_of_le hcap).map record)

/-- It is enough that the complaint is about runs that did not settle. -/
theorem reportsCap_of_warnings
    (warnings : List (Warning α)) (hsteps : ∀ cap run,
      CappedResult.steps (result cap run) =
        Step.number (run.entries.map record))
    (hwarnings : ∀ cap run, CappedResult.warnings (result cap run) =
      warnings ++ if run.settled then [] else [.iterationLimitExceeded cap])
    (hothers : Warning.occurs warnings .iterationLimitExceeded = false)
    (huniform : ∀ cap cap' run, run.settled = true →
      result cap' run = result cap run) :
    ReportsCap round record result := by
  have hsettled : ∀ cap run, ¬ StoppedAtCap (result cap run) →
      run.settled = true := by
    intro cap run h
    rwa [stoppedAtCap_iff (hwarnings cap run) hothers, Bool.not_eq_false] at h
  refine ⟨hsteps, fun cap run h => .inl (hsettled cap run h), ?_⟩
  intro cap cap' run h
  obtain ⟨entries, state, settled⟩ := run
  obtain rfl : settled = true := hsettled cap _ h
  exact huniform cap cap' _ rfl

end Iteration

/-! ## The solvers -/

section Solvers

variable {α : Type} [Scalar α] {cap cap' : ℕ}

namespace RootFinding

theorem goesOn_halfDivision
    (settings : RootSettings α) (f : ScalarFunction α) (a b tolerance : α)
    (hcap : cap ≤ cap') :
    GoesOn (halfDivision { settings with maxIterations := cap } f a b tolerance)
      (halfDivision { settings with maxIterations := cap' } f a b
        tolerance) := by
  have hreports : ReportsCap (halve f.evaluate tolerance) .halfDivision
      fun cap =>
        halfDivisionResult { settings with maxIterations := cap } f
          tolerance := by
    have hnarrow : ∀ cap run, ¬ StoppedAtCap
        (halfDivisionResult { settings with maxIterations := cap } f
          tolerance run) →
          ¬ tolerance ≤ run.state.width := by
      intro cap run h hwide
      refine h ?_
      simp [StoppedAtCap, CappedResult.warnings, halfDivisionResult, result,
        capWarning, hwide, Warning.occurs, Warning.kind]
    refine ⟨fun _ _ => rfl, ?_, ?_⟩
    · intro cap run h
      exact .inr (if_neg (hnarrow cap run h))
    · intro cap cap' run h
      simp [halfDivisionResult, result, capWarning, hnarrow cap run h]
  rw [halfDivision_eq, halfDivision_eq]
  generalize (if b < a then (b, a) else (a, b)) = ends
  by_cases hsign : f.evaluate ends.1 * f.evaluate ends.2 < 0
  · simp only [hsign, if_true]
    exact goesOn_ofIteration hreports hcap
  · simp only [hsign, if_false]
    exact .refl _

omit [Scalar α] in
theorem reportsCap_searchResult
    {ε τ σ : Type} (round : σ → Round ε τ σ) (method : RootMethod)
    (f : ScalarFunction α) (x moved : σ → α) (record : τ → StepData α)
    {warnings : List (Warning α)} (settings : RootSettings α)
    (hwarnings : Warning.occurs warnings .iterationLimitExceeded = false) :
    ReportsCap round record fun cap =>
      searchResult method f x moved record warnings
        { settings with maxIterations := cap } := by
  refine reportsCap_of_warnings warnings (fun _ _ => rfl)
    (fun _ _ => rfl) hwarnings ?_
  intro cap cap' run hsettled
  simp [searchResult, result, capWarning, hsettled]

theorem goesOn_simpleIteration
    (settings : RootSettings α) (f : ScalarFunction α) (start : RootStart α)
    (tolerance : α) (hcap : cap ≤ cap') :
    GoesOn (simpleIteration { settings with maxIterations := cap } f
      start tolerance)
      (simpleIteration { settings with maxIterations := cap' } f start
        tolerance) := by
  rw [simpleIteration_eq, simpleIteration_eq]
  cases slopedStart f start with
  | error e => exact .refl _
  | ok s =>
      by_cases hslope : Scalar.abs s.slope < settings.derivativeFloor
      · simp only [hslope, if_true]
        exact .refl _
      · simp only [hslope, if_false]
        exact goesOn_ofIteration (reportsCap_searchResult _ _ _ _ _ _ settings
          (occurs_contractionWarning _)) hcap

theorem goesOn_newton
    (settings : RootSettings α) (f : ScalarFunction α) (start : RootStart α)
    (tolerance : α) (hcap : cap ≤ cap') :
    GoesOn (newton { settings with maxIterations := cap } f start tolerance)
      (newton { settings with maxIterations := cap' } f start tolerance) := by
  rw [newton_eq, newton_eq]
  by_cases hslope : (f.derivative (tangentStart f start)).isNone = true
  · simp only [hslope, if_true]
    exact .refl _
  · simp only [hslope]
    exact goesOn_ofIteration
      (reportsCap_searchResult _ _ _ _ _ _ settings rfl) hcap

theorem goesOn_secant
    (settings : RootSettings α) (f : ScalarFunction α) (start : RootStart α)
    (tolerance : α) (hcap : cap ≤ cap') :
    GoesOn (secant { settings with maxIterations := cap } f start tolerance)
      (secant { settings with maxIterations := cap' } f start tolerance) := by
  rw [secant_eq, secant_eq]
  exact goesOn_ofIteration
    (reportsCap_searchResult _ _ _ _ _ _ settings rfl) hcap

end RootFinding

theorem PlaneNewton.goesOn_solve
    (settings : PlaneNewton.Settings α) (system : PlaneSystem α) (guess : α × α)
    (tolerance : α) (hcap : cap ≤ cap') :
    GoesOn (PlaneNewton.solve { settings with maxIterations := cap } system
      guess tolerance)
      (PlaneNewton.solve { settings with maxIterations := cap' } system guess
        tolerance) := by
  have hreports : ReportsCap (linearStep settings system tolerance) .system
      fun cap => result { settings with maxIterations := cap } system := by
    refine reportsCap_of_warnings [] (fun _ _ => rfl) (fun _ _ => rfl) rfl ?_
    intro cap cap' run hsettled
    simp [result, hsettled]
  rw [PlaneNewton.solve_eq, PlaneNewton.solve_eq]
  split
  · exact .refl _
  · split
    · exact .refl _
    · exact goesOn_ofIteration hreports hcap

theorem Jacobi.occurs_warnings_arrange {n : ℕ} (s : LinearSystem α n) :
    Warning.occurs (arrange s).warnings .iterationLimitExceeded = false := by
  rw [arrange]
  split
  · rfl
  · split
    · rfl
    · rfl

theorem Jacobi.goesOn_solve
    {n : ℕ} (settings : Jacobi.Settings α) (s : LinearSystem α n)
    (tolerance : α) (hcap : cap ≤ cap') :
    GoesOn (Jacobi.solve { settings with maxIterations := cap } s tolerance)
      (Jacobi.solve { settings with maxIterations := cap' } s tolerance) := by
  have hreports : ∀ determinant
      (round : State α n → Round (Breakdown α) (SweepStep α) _),
      ReportsCap round .sweep
        fun cap =>
          result { settings with maxIterations := cap } determinant
            (arrange s) := by
    intro determinant round
    refine reportsCap_of_warnings (arrange s).warnings (fun _ _ => rfl)
      (fun _ _ => rfl) (occurs_warnings_arrange s) ?_
    intro cap cap' run hsettled
    simp [result, hsettled]
  have hsingular : ∀ cap determinant,
      isSingular { settings with maxIterations := cap } s
      determinant = isSingular settings s determinant := fun _ _ => rfl
  have hpivot : ∀ cap,
      smallPivot? { settings with maxIterations := cap } (arrange s).system =
      smallPivot? settings (arrange s).system := fun _ => rfl
  simp only [Jacobi.solve_eq, hsingular, hpivot]
  split
  · exact .refl _
  · split
    · exact .refl _
    · split
      · exact .refl _
      · exact goesOn_ofIteration (hreports _ _) hcap

/-- Of the six solvers that observe a cap, each repeats under a higher cap the
errors and the results without a complaint of the cap, and prolongs the traces
of the results with one. -/
theorem goesOn_of_cap_le (α : Type) [Scalar α] {cap cap' : ℕ}
    (hcap : cap ≤ cap') :
    (∀ (settings : RootSettings α) (f : ScalarFunction α) (a b tolerance : α),
      GoesOn (RootFinding.halfDivision { settings with maxIterations := cap } f
        a b tolerance)
        (RootFinding.halfDivision { settings with maxIterations := cap' } f a b
          tolerance)) ∧
    (∀ (settings : RootSettings α) (f : ScalarFunction α) (start : RootStart α)
      (tolerance : α),
      GoesOn (RootFinding.simpleIteration { settings with maxIterations := cap }
        f start tolerance)
        (RootFinding.simpleIteration { settings with maxIterations := cap' } f
          start tolerance) ∧
      GoesOn (RootFinding.newton { settings with maxIterations := cap } f
        start tolerance)
        (RootFinding.newton { settings with maxIterations := cap' } f
          start tolerance) ∧
      GoesOn (RootFinding.secant { settings with maxIterations := cap } f
        start tolerance)
        (RootFinding.secant { settings with maxIterations := cap' } f start
          tolerance)) ∧
    (∀ (settings : PlaneNewton.Settings α) (system : PlaneSystem α)
      (guess : α × α)
        (tolerance : α),
      GoesOn (PlaneNewton.solve { settings with maxIterations := cap } system
        guess tolerance)
        (PlaneNewton.solve { settings with maxIterations := cap' } system guess
          tolerance)) ∧
    (∀ (n : ℕ) (settings : Jacobi.Settings α) (s : LinearSystem α n)
      (tolerance : α),
      GoesOn (Jacobi.solve { settings with maxIterations := cap } s tolerance)
        (Jacobi.solve { settings with maxIterations := cap' } s
          tolerance)) := by
  refine ⟨?_, ?_, ?_, ?_⟩
  · intro settings f a b tolerance
    exact RootFinding.goesOn_halfDivision settings f a b tolerance hcap
  · intro settings f start tolerance
    exact ⟨RootFinding.goesOn_simpleIteration settings f start tolerance hcap,
      RootFinding.goesOn_newton settings f start tolerance hcap,
      RootFinding.goesOn_secant settings f start tolerance hcap⟩
  · intro settings system guess tolerance
    exact PlaneNewton.goesOn_solve settings system guess tolerance hcap
  · intro n settings s tolerance
    exact Jacobi.goesOn_solve settings s tolerance hcap

/-- A parabola with the roots `-2` and `2`. -/
def squareLessFour : ScalarFunction ℚ where
  evaluate x := x * x - 4
  derivative x := some (2 * x)

/-- What is found along its tangents from `3` under a cap. -/
def tangentsFromThree (cap : ℕ) : Except (EngineError ℚ) (SolveResult ℚ) :=
  RootFinding.newton ⟨cap, 0, 0, 10⟩ squareLessFour (.estimate 3) (1 / 2)

/-- The first two tangents. -/
def twoTangents : List (StepData ℚ) :=
  [.newton { x := 3, fx := 5, slope := 6, next := 13 / 6, absDiff := 5 / 6 },
    .newton
      { x := 13 / 6, fx := 25 / 36, slope := 13 / 3, next := 313 / 156,
        absDiff := 25 / 156 }]

/-- Two tangents are enough, and the first of them is followed under
every cap. -/
theorem goesOn_of_cap_le_squareLessFour :
    tangentsFromThree 5 = tangentsFromThree 2 ∧
      Step.number (twoTangents.take 1) <+: keptSteps (tangentsFromThree 5) := by
  have hgoesOn : ∀ cap ≤ 5,
      GoesOn (tangentsFromThree cap) (tangentsFromThree 5) := by
    intro cap hcap
    exact ((goesOn_of_cap_le ℚ hcap).2.1 ⟨0, 0, 0, 10⟩ squareLessFour
      (.estimate 3) (1 / 2)).2.1
  have htwo : tangentsFromThree 2 =
      .ok (RootFinding.result .newton squareLessFour (313 / 156)
      (25 / 156) twoTangents []) := by decide +kernel
  have hone : tangentsFromThree 1 =
      .ok (RootFinding.result .newton squareLessFour (13 / 6)
      (5 / 6) (twoTangents.take 1) [.iterationLimitExceeded 1]) := by
        decide +kernel
  constructor
  · rw [htwo]
    exact (hgoesOn 2 (by decide)).of_finished _ htwo (by decide)
  · exact (hgoesOn 1 (by decide)).of_stopped _ hone (by decide)

end Solvers

end NumericalMethods
