import NumericalMethods.LinearSystem.Jacobi
import NumericalMethods.PlaneNewton
import NumericalMethods.Proofs.Iteration
import NumericalMethods.Proofs.Trace
import NumericalMethods.RootFinding

/-!
# Outcomes of capped iterations

Six solvers check their input and then perform rounds up to a cap.  What they
make of the run is the same in all of them: the entries become a numbered trace,
the final state becomes a result, and a breakdown becomes an error with the
trace so far.  The equations below separate this part from the checks.
-/

namespace NumericalMethods

/-- What the results of these solvers have in common. -/
class CappedResult (α : outParam Type) (ρ : Type) where
  iterations : ρ → ℕ
  steps : ρ → List (Step α)
  warnings : ρ → List (Warning α)

instance (α : Type) : CappedResult α (SolveResult α) :=
  ⟨SolveResult.iterations, SolveResult.steps, SolveResult.warnings⟩

instance (α : Type) : CappedResult α (SystemSolveResult α) :=
  ⟨SystemSolveResult.iterations, SystemSolveResult.steps,
    SystemSolveResult.warnings⟩

instance (α : Type) : CappedResult α (LinearSolveResult α) :=
  ⟨LinearSolveResult.iterations, LinearSolveResult.steps,
    LinearSolveResult.warnings⟩

section

variable {α ρ ε τ σ : Type} [CappedResult α ρ]

/-- The result complains of the cap. -/
def StoppedAtCap (r : ρ) : Prop :=
  Warning.occurs (CappedResult.warnings r) .iterationLimitExceeded = true

instance (r : ρ) : Decidable (StoppedAtCap r) :=
  inferInstanceAs (Decidable (_ = true))

/-- A complaint that depends on the run is attached if it did not settle. -/
theorem stoppedAtCap_iff
    {r : ρ} {warnings : List (Warning α)} {settled : Bool} {cap : ℕ}
    (hwarnings : CappedResult.warnings r =
      warnings ++ if settled then [] else [.iterationLimitExceeded cap])
    (hothers : Warning.occurs warnings .iterationLimitExceeded = false) :
    StoppedAtCap r ↔ settled = false := by
  rw [StoppedAtCap, hwarnings, Warning.occurs_append, hothers, Bool.false_or,
    Warning.occurs_unless_settled, Bool.not_eq_true']

/-- The steps of a result, or of the partial trace of an error. -/
def keptSteps : Except (EngineError α) ρ → List (Step α)
  | .ok r => CappedResult.steps r
  | .error e =>
    match e.partialTrace? with
    | some (.steps made) => made
    | _ => []

/-- The outcome of a run. -/
def ofIteration (result : Run τ σ → ρ) (record : τ → StepData α)
    (cause : ε → Breakdown α) :
    Except (ε × List τ) (Run τ σ) → Except (EngineError α) ρ
  | .ok run => .ok (result run)
  | .error stopped => .error (.ofSteps (cause stopped.1) (stopped.2.map record))

section

variable {result : Run τ σ → ρ} {record : τ → StepData α}
  {cause : ε → Breakdown α}
  {outcome : Except (ε × List τ) (Run τ σ)}

omit [CappedResult α ρ] in
theorem ofIteration_eq_ok_iff {r : ρ} :
    ofIteration result record cause outcome = .ok r ↔
      ∃ run, outcome = .ok run ∧ result run = r := by
  cases outcome <;> simp [ofIteration]

omit [CappedResult α ρ] in
theorem ofIteration_eq_breakdown_iff {breakdown : Breakdown α}
    {completed : PartialTrace α} :
    ofIteration result record cause outcome =
        .error (.breakdown breakdown completed) ↔
      ∃ stop made, outcome = .error (stop, made) ∧ cause stop = breakdown ∧
        .steps (Step.number (made.map record)) = completed := by
  cases outcome with
  | ok run => simp [ofIteration]
  | error stopped =>
      obtain ⟨stop, made⟩ := stopped
      simp only [ofIteration, EngineError.ofSteps, Except.error.injEq,
        EngineError.breakdown.injEq]
      constructor
      · rintro ⟨hcause, hcompleted⟩
        exact ⟨stop, made, rfl, hcause, hcompleted⟩
      · rintro ⟨_, _, hstopped, hcause, hcompleted⟩
        cases hstopped
        exact ⟨hcause, hcompleted⟩

end

theorem keptSteps_ofIteration
    {result : Run τ σ → ρ} {record : τ → StepData α} (cause : ε → Breakdown α)
    (hsteps : ∀ run, CappedResult.steps (result run) =
      Step.number (run.entries.map record))
    (outcome : Except (ε × List τ) (Run τ σ)) :
    keptSteps (ofIteration result record cause outcome) =
      Step.number ((completedEntries outcome).map record) := by
  cases outcome with
  | ok run => exact hsteps run
  | error stopped => rfl

end

namespace RootFinding

variable {α τ σ : Type} [Scalar α]

theorem occurs_contractionWarning (q : α) :
    Warning.occurs (if 1 ≤ q then [.contractionNotGuaranteed q] else [])
      .iterationLimitExceeded = false := by
  split
  · rfl
  · rfl

/-- The result of a search by steps. -/
def searchResult (method : RootMethod) (f : ScalarFunction α) (x moved : σ → α)
    (record : τ → StepData α) (warnings : List (Warning α))
    (settings : RootSettings α) (run : Run τ σ) : SolveResult α :=
  result method f (x run.state) (moved run.state) (run.entries.map record)
    (warnings ++ capWarning settings run.settled)

theorem halfDivision_eq
    (settings : RootSettings α) (f : ScalarFunction α) (a b tolerance : α) :
    halfDivision settings f a b tolerance =
      let ends := if b < a then (b, a) else (a, b)
      let fa := f.evaluate ends.1
      let fb := f.evaluate ends.2
      if fa * fb < 0 then
        ofIteration (halfDivisionResult settings f tolerance)
          .halfDivision Empty.elim
          (iterate (halve f.evaluate tolerance) settings.maxIterations
            ⟨ends.1, ends.2, fa, fb⟩)
      else .error (.invalidBracket ends.1 ends.2 fa fb) := by
  rw [halfDivision]
  split
  rename_i a' b' hends
  simp only [hends]
  congr 1
  cases iterate (halve f.evaluate tolerance) settings.maxIterations
      ⟨a', b', f.evaluate a', f.evaluate b'⟩ with
  | ok run => rfl
  | error stopped => exact stopped.1.elim

theorem simpleIteration_eq
    (settings : RootSettings α) (f : ScalarFunction α) (start : RootStart α)
    (tolerance : α) :
    simpleIteration settings f start tolerance =
      match slopedStart f start with
      | .error e => .error e
      | .ok s =>
        if Scalar.abs s.slope < settings.derivativeFloor then
          .error (.ofSteps (.slopeTooSmall s.x s.slope) [])
        else
          let q := contraction (-1 / s.slope) s.slopes
          ofIteration
            (searchResult .simpleIteration f Iterate.x Iterate.moved
              .simpleIteration
              (if 1 ≤ q then [.contractionNotGuaranteed q] else []) settings)
            .simpleIteration id
            (iterate (applyOnce settings f.evaluate (-1 / s.slope) tolerance)
              settings.maxIterations ⟨s.x, Scalar.infinity⟩) := by
  rw [simpleIteration]
  cases slopedStart f start with
  | error e => rfl
  | ok s =>
      simp only [bind, Except.bind]
      by_cases hslope : Scalar.abs s.slope < settings.derivativeFloor
      · simp only [hslope, if_true]
        rfl
      · simp only [hslope, if_false]
        cases iterate (applyOnce settings f.evaluate (-1 / s.slope) tolerance)
            settings.maxIterations ⟨s.x, Scalar.infinity⟩ with
        | ok run => rfl
        | error stopped => rfl

theorem newton_eq
    (settings : RootSettings α) (f : ScalarFunction α) (start : RootStart α)
    (tolerance : α) :
    newton settings f start tolerance =
      let x := tangentStart f start
      if (f.derivative x).isNone then
        .error (.invalidParameter (.derivativeNeededAt f.name x))
      else
        ofIteration
          (searchResult .newton f Iterate.x Iterate.moved .newton [] settings)
          .newton id
          (iterate (followTangent settings f tolerance) settings.maxIterations
            ⟨x, Scalar.infinity⟩) := by
  rw [newton]
  congr 1
  cases iterate (followTangent settings f tolerance) settings.maxIterations
      ⟨tangentStart f start, Scalar.infinity⟩ with
  | ok run => rfl
  | error stopped => rfl

theorem secant_eq
    (settings : RootSettings α) (f : ScalarFunction α) (start : RootStart α)
    (tolerance : α) :
    secant settings f start tolerance =
      let ends := chordEnds start
      ofIteration
        (searchResult .secant f Chord.x Chord.moved .secant [] settings)
        .secant id
        (iterate (followChord settings f.evaluate tolerance)
          settings.maxIterations
          ⟨ends.1, ends.2, f.evaluate ends.1, f.evaluate ends.2,
            Scalar.infinity⟩) := by
  rw [secant]
  split
  rename_i previous x hends
  simp only [hends]
  cases iterate (followChord settings f.evaluate tolerance)
    settings.maxIterations
      ⟨previous, x, f.evaluate previous, f.evaluate x, Scalar.infinity⟩ with
  | ok run => rfl
  | error stopped => rfl

end RootFinding

theorem PlaneNewton.solve_eq
    {α : Type} [Scalar α] (settings : PlaneNewton.Settings α)
    (system : PlaneSystem α) (guess : α × α) (tolerance : α) :
    PlaneNewton.solve settings system guess tolerance =
      if !Scalar.isPositiveFinite tolerance then
        .error (.invalidParameter (.tolerance tolerance))
      else if !(Scalar.isFinite guess.1 && Scalar.isFinite guess.2) then
        .error (.invalidParameter .guessNotFinite)
      else
        ofIteration (result settings system) .system id
          (iterate (linearStep settings system tolerance) settings.maxIterations
            ⟨guess.1, guess.2, Scalar.infinity⟩) := by
  rw [PlaneNewton.solve]
  congr 2
  cases iterate (linearStep settings system tolerance) settings.maxIterations
      ⟨guess.1, guess.2, Scalar.infinity⟩ with
  | ok run => rfl
  | error stopped => rfl

theorem Jacobi.solve_eq
    {α : Type} [Scalar α] {n : ℕ} (settings : Jacobi.Settings α)
    (s : LinearSystem α n) (tolerance : α) :
    Jacobi.solve settings s tolerance =
      if !Scalar.isPositiveFinite tolerance then
        .error (.invalidParameter (.tolerance tolerance))
      else
        let determinant := Elimination.determinant s.matrix.toLists
        if isSingular settings s determinant then
          .error (.singularMatrix determinant)
        else
          let a := arrange s
          match smallPivot? settings a.system with
          | some i =>
              .error (.ofSteps
                (.diagonalVanished (i + 1) (a.system.entry i i)) [])
          | none =>
            ofIteration (result settings determinant a) .sweep id
              (iterate
                (sweep settings a.system.iterationMatrix
                  (Vector.ofFn fun i => a.system.rhs.get i / a.system.entry i i)
                    tolerance)
                settings.maxIterations
                ⟨Vector.ofFn fun _ => 0,
                  Vector.ofFn fun _ => Scalar.infinity⟩) := by
  rw [Jacobi.solve]
  congr 1
  dsimp only
  congr 1
  cases smallPivot? settings (arrange s).system with
  | some i => rfl
  | none =>
      dsimp only
      cases iterate _ _ _ with
      | ok run => rfl
      | error stopped => rfl

/-- A result of simultaneous iteration passed the checks and is that of
a run. -/
theorem Jacobi.exists_run_of_solve_eq_ok
    {α : Type} [Scalar α] {n : ℕ} {settings : Jacobi.Settings α}
    {s : LinearSystem α n} {tolerance : α} {r : LinearSolveResult α}
    (hr : Jacobi.solve settings s tolerance = .ok r) :
    Scalar.isPositiveFinite tolerance = true ∧
      smallPivot? settings (arrange s).system = none ∧
      ∃ run, r =
          result settings (Elimination.determinant s.matrix.toLists)
            (arrange s) run ∧
        iterate
          (sweep settings (arrange s).system.iterationMatrix
            (Vector.ofFn fun i => (arrange s).system.rhs.get i /
              (arrange s).system.entry i i)
            tolerance)
          settings.maxIterations
          ⟨Vector.ofFn fun _ => 0, Vector.ofFn fun _ => Scalar.infinity⟩ =
            .ok run := by
  rw [solve_eq] at hr
  split at hr
  · cases hr
  · rename_i htolerance
    dsimp only at hr
    split at hr
    · cases hr
    · split at hr
      · cases hr
      · rename_i hdivisors
        obtain ⟨run, hrun, hresult⟩ := ofIteration_eq_ok_iff.mp hr
        exact ⟨by simpa using htolerance, hdivisors, run, hresult.symm, hrun⟩

end NumericalMethods
