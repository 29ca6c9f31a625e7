import NumericalMethods.InitialValue
import NumericalMethods.Proofs.Errors.Reported
import NumericalMethods.Proofs.InitialValue.Prefix

/-!
# The errors of initial value problems

A method that breaks down keeps the points it has reached.  The first one is the
start of the problem, all others have finite ordinates, whatever the right-hand
side returns.
-/

namespace NumericalMethods

/-- The trace consists of a starting point and of points with finite
ordinates. -/
def PartialTrace.IsPointsFrom {α : Type} [Scalar α] (start : α × α)
    (t : PartialTrace α) : Prop :=
  ∃ made, t = .points (start :: made) ∧ ∀ p ∈ made, Scalar.isFinite p.2 = true

namespace InitialValue

open EngineError

variable {α : Type} [Scalar α]

/-! ## The rounds -/

theorem failsWith_advance (method : OdeMethod) (step : α → α → α) (x0 h : α) :
    FailsWith [.divergenceDetected] id (advance method step x0 h) := by
  intro s cause hfail
  simp only [advance] at hfail
  split at hfail
  · cases hfail
  · cases hfail
    simp [Breakdown.kind]

theorem failsWith_correct (improve : α → α) (tolerance : α) :
    FailsWith [.divergenceDetected] id (correct improve tolerance) := by
  intro previous cause hfail
  simp only [correct] at hfail
  split at hfail
  · cases hfail
    simp [Breakdown.kind]
  · split at hfail <;> cases hfail

/-- A corrector that does not settle is told from one that diverges. -/
theorem kind_of_settle_eq_error
    {improve : α → α} {cap : ℕ} {tolerance predicted x : α}
    {cause : Breakdown α}
    (hsettle : settle improve cap tolerance predicted x = .error cause) :
    cause.kind = .correctorDivergence ∨ cause.kind = .divergenceDetected := by
  rw [settle] at hsettle
  split at hsettle
  · split at hsettle
    · cases hsettle
    · cases hsettle
      exact .inl rfl
  · rename_i hrun
    cases hsettle
    obtain ⟨hkind, -⟩ := (failsWith_correct _ _).of_iterate_eq_error hrun
    exact .inr (by simpa using hkind)

theorem failsWith_milneRound (f : OdeFunction α) (cap : ℕ)
    (tolerance x0 h : α) :
    FailsWith [.divergenceDetected, .correctorDivergence] id
      (milneRound f cap tolerance x0 h) := by
  intro s cause hfail
  simp only [milneRound] at hfail
  split at hfail
  · cases hfail
  · rename_i hnext
    cases hfail
    simp only [nextOrdinate] at hnext
    split at hnext
    · rcases kind_of_settle_eq_error hnext with hkind | hkind
      · simp [hkind]
      · simp [hkind]
    · split at hnext
      · cases hnext
      · cases hnext
        simp [Breakdown.kind]

/-! ## The points of a method -/

theorem raises_collect
    {σ : Type} {kinds : List ErrorKind}
    {round : σ → Round (Breakdown α) (α × α) σ} {index : σ → ℕ} {x0 h : α}
    (hround : FailsWith kinds id round) (hadvances : Advances round index x0 h)
    (start : α × α) (n : ℕ) (s : σ) :
    Raises (Reported kinds (PartialTrace.IsPointsFrom start))
      (collect start (iterate round n s)) := by
  intro e he
  cases hrun : iterate round n s with
  | ok run => rw [hrun] at he; cases he
  | error stopped =>
      rw [hrun] at he
      obtain rfl := Except.error.inj he
      obtain ⟨hkind, hbreakdown⟩ := hround.of_iterate_eq_error hrun
      obtain ⟨final, hsteps, -, -⟩ := exists_steps_of_iterate_eq_error hrun
      exact reported_breakdown hkind hbreakdown
        ⟨_, rfl, hadvances.isFinite_of_steps hsteps⟩

/-- The kinds of error a method returns. -/
def errorKinds : OdeMethod → List ErrorKind
  | .euler | .extendedEuler => [.divergenceDetected]
  | .milne => [.divergenceDetected, .correctorDivergence]

theorem raises_solutionPoints
    (settings : Settings) (method : OdeMethod) (f : OdeFunction α)
    (x0 y0 h : α) (n : ℕ) (tolerance : α) :
    Raises (Failure.ErrorHas
      (Reported (errorKinds method) (PartialTrace.IsPointsFrom (x0, y0))))
      (solutionPoints settings method f x0 y0 h n tolerance) := by
  refine (raises_reserve _ _).bind fun _ _ => raises_liftError ?_
  cases method with
  | euler =>
      exact raises_collect (failsWith_advance _ _ _ _)
        (advances_advance _ _ _ _) _ _ _
  | extendedEuler =>
      exact raises_collect (failsWith_advance _ _ _ _)
        (advances_advance _ _ _ _) _ _ _
  | milne =>
      exact raises_collect (failsWith_milneRound _ _ _ _ _)
        (advances_milneRound _ _ _ _ _) _ _ _

theorem raises_refine
    {P : Failure α → Prop} {points : α → Except (Failure α) (List (α × α))}
    (hpoints : ∀ h, Raises P (points h))
    (estimate : List (α × α) → List (α × α) → α) (tolerance : α) (left : ℕ)
    (h : α) (coarse fine : List (α × α)) :
    Raises P (refine points estimate tolerance left h coarse fine) := by
  induction left generalizing h coarse fine with
  | zero => exact raises_ok _
  | succ left ih =>
      rw [refine]
      split
      · exact raises_ok _
      · cases hfiner : points (h / 2.0 / 2.0) with
        | ok finer => exact ih _ _ _
        | error failure => exact raises_error (hpoints _ failure hfiner)

theorem raises_trace
    (settings : Settings) (method : OdeMethod) (f : OdeFunction α)
    (p : InitialValueProblem α) :
    Raises (Failure.ErrorHas
        (Reported (errorKinds method) (PartialTrace.IsPointsFrom (p.x0, p.y0))))
      (trace settings method f p) := by
  have hpoints : ∀ h, Raises (Failure.ErrorHas
      (Reported (errorKinds method) (PartialTrace.IsPointsFrom (p.x0, p.y0))))
        (run settings method f p h) :=
    fun h => raises_solutionPoints _ _ _ _ _ _ _ _
  refine (hpoints _).bind fun coarse _ => (hpoints _).bind fun fine _ => ?_
  exact (raises_refine hpoints _ _ _ _ _ _).bind fun found _ => raises_ok _

/-! ## All methods -/

theorem raises_validate {kept : PartialTrace α → Prop}
    (p : InitialValueProblem α) :
    Raises (Reported [.invalidParameter] kept) p.validate := by
  rw [InitialValueProblem.validate]
  refine raises_guard (reported_plain (by simp [kind]) rfl) fun _ => ?_
  refine raises_guard (reported_plain (by simp [kind]) rfl) fun _ => ?_
  refine raises_guard (reported_plain (by simp [kind]) rfl) fun _ => ?_
  refine raises_guard (reported_plain (by simp [kind]) rfl) fun _ => ?_
  split
  · exact raises_error (reported_plain (by simp [kind]) rfl)
  · exact raises_ok _

theorem raises_solve (settings : Settings) (f : OdeFunction α)
    (p : InitialValueProblem α) :
    Raises (Failure.ErrorHas
        (Reported [.invalidParameter, .divergenceDetected, .correctorDivergence]
          (PartialTrace.IsPointsFrom (p.x0, p.y0))))
      (solve settings f p) := by
  have htrace : ∀ method, Raises (Failure.ErrorHas
      (Reported [.invalidParameter, .divergenceDetected, .correctorDivergence]
        (PartialTrace.IsPointsFrom (p.x0, p.y0))))
          (trace settings method f p) := by
    intro method
    have hkinds : errorKinds method ⊆
        [.invalidParameter, .divergenceDetected, .correctorDivergence] := by
      cases method <;> simp [errorKinds]
    exact (raises_trace settings method f p).widenError hkinds
  refine (raises_liftError ((raises_validate p).widen (by simp))).bind
    fun _ _ => ?_
  refine (raises_await _).bind fun _ _ => ?_
  refine (htrace .euler).bind fun euler _ => ?_
  refine (htrace .extendedEuler).bind fun extendedEuler _ => ?_
  exact (htrace .milne).bind fun milne _ => raises_ok _

end InitialValue
end NumericalMethods
