import NumericalMethods.Proofs.Exact.Rational
import NumericalMethods.Proofs.Failure
import NumericalMethods.InitialValue.Trace

/-!
# Halving a step

A step is halved until the estimate for it, from the run with this step and the
run with half of it, is within the tolerance.  The loop keeps the second run for
the next round; the plain search does not, and is described by the sequence of
runs alone.  It stops at the least number of halvings whose estimate is within
the tolerance, at the latest at a limit, and fails with the first run that fails
on the way there.
-/

namespace NumericalMethods
namespace InitialValue

variable {α : Type} [Scalar α]

/-- A step halved some number of times. -/
def halved (h : α) : ℕ → α
  | 0 => h
  | k + 1 => halved h k / 2.0

/-! ## The plain search -/

/-- The runs of a search with the step each of them has, the estimate for two of
them, and how often the step may be halved. -/
structure StepSearch (α : Type) where
  points : α → Except (Failure α) (List (α × α))
  estimate : List (α × α) → List (α × α) → α
  tolerance : α
  step : α
  limit : ℕ

namespace StepSearch

/-- The run after some number of halvings. -/
def runAt (search : StepSearch α) (k : ℕ) : Except (Failure α) (List (α × α)) :=
  search.points (halved search.step k)

/-- After `k` halvings the estimate is known, and it is not within the
tolerance. -/
def Misses (search : StepSearch α) (k : ℕ) : Prop :=
  ∃ coarse fine, search.runAt k = .ok coarse ∧ search.runAt (k + 1) = .ok fine ∧
    ¬ search.estimate coarse fine ≤ search.tolerance

/-- The search stops after `k` halvings: no smaller number has an estimate
within the tolerance, and `k` has one or is the limit. -/
structure Finds (search : StepSearch α) (k : ℕ)
    (found : Refinement α) : Prop where
  le_limit : k ≤ search.limit
  misses_of_lt : ∀ j < k, search.Misses j
  step_eq : found.step = halved search.step k
  points_eq : search.runAt k = .ok found.points
  rungeError_eq : ∃ fine, search.runAt (k + 1) = .ok fine ∧
    found.rungeError = search.estimate found.points fine
  within_or_eq_limit : found.rungeError ≤ search.tolerance ∨ k = search.limit

/-- The search comes to the run after `i` halvings, which is the first
to fail. -/
structure Fails (search : StepSearch α) (i : ℕ)
    (failure : Failure α) : Prop where
  le_limit : i ≤ search.limit + 1
  misses_of_lt : ∀ j, j + 1 < i → search.Misses j
  ok_of_lt : ∀ j < i, ∃ points, search.runAt j = .ok points
  error : search.runAt i = .error failure

variable {search : StepSearch α} {i k k' : ℕ} {found found' : Refinement α}
  {failure failure' : Failure α}

theorem Finds.not_misses (h : search.Finds k found) (hk : k ≠ search.limit) :
    ¬ search.Misses k := by
  rintro ⟨coarse, fine, hcoarse, hfine, hmiss⟩
  obtain ⟨fine', hfine', herror⟩ := h.rungeError_eq
  obtain rfl : found.points = coarse :=
    Except.ok.inj (h.points_eq.symm.trans hcoarse)
  obtain rfl : fine' = fine := Except.ok.inj (hfine'.symm.trans hfine)
  rcases h.within_or_eq_limit with hwithin | hlimit
  · rw [← herror] at hmiss
    exact hmiss hwithin
  · exact hk hlimit

theorem Finds.le (h : search.Finds k found)
    (h' : search.Finds k' found') : k' ≤ k := by
  by_contra hlt
  have hle := h'.le_limit
  exact h.not_misses (by omega) (h'.misses_of_lt k (by omega))

/-- The search has one result. -/
theorem Finds.unique (h : search.Finds k found) (h' : search.Finds k' found') :
    found' = found := by
  obtain rfl : k' = k := Nat.le_antisymm (h.le h') (h'.le h)
  obtain ⟨fine, hfine, herror⟩ := h.rungeError_eq
  obtain ⟨fine', hfine', herror'⟩ := h'.rungeError_eq
  obtain rfl : fine' = fine := Except.ok.inj (hfine'.symm.trans hfine)
  have hstep : found'.step = found.step := h'.step_eq.trans h.step_eq.symm
  have hpoints : found'.points = found.points :=
    Except.ok.inj (h'.points_eq.symm.trans h.points_eq)
  have hrungeError : found'.rungeError = found.rungeError := by
    rw [herror, herror', hpoints]
  cases found
  cases found'
  exact (Refinement.mk.injEq ..).mpr ⟨hstep, hpoints, hrungeError⟩

/-- It does not both find a step and fail. -/
theorem Finds.not_fails (h : search.Finds k found) :
    ¬ search.Fails i failure := by
  intro hfails
  have hle := hfails.le_limit
  have hok : ∀ j ≤ k + 1, ∃ points, search.runAt j = .ok points := by
    intro j hj
    rcases Nat.lt_trichotomy j k with hlt | rfl | hgt
    · obtain ⟨coarse, _, hcoarse, _, _⟩ := h.misses_of_lt j hlt
      exact ⟨coarse, hcoarse⟩
    · exact ⟨_, h.points_eq⟩
    · obtain rfl : j = k + 1 := by omega
      obtain ⟨fine, hfine, _⟩ := h.rungeError_eq
      exact ⟨fine, hfine⟩
  by_cases hi : i ≤ k + 1
  · obtain ⟨points, hpoints⟩ := hok i hi
    rw [hfails.error] at hpoints
    cases hpoints
  · exact h.not_misses (by omega) (hfails.misses_of_lt k (by omega))

theorem Fails.le (h : search.Fails i failure) {i' : ℕ}
    (h' : search.Fails i' failure') :
    i' ≤ i := by
  by_contra hlt
  obtain ⟨points, hpoints⟩ := h'.ok_of_lt i (by omega)
  rw [h.error] at hpoints
  cases hpoints

theorem Fails.unique (h : search.Fails i failure) {i' : ℕ}
    (h' : search.Fails i' failure') :
    failure' = failure := by
  obtain rfl : i' = i := Nat.le_antisymm (h.le h') (h'.le h)
  exact Except.error.inj (h'.error.symm.trans h.error)

/-- The outcome of the search. -/
inductive Ends (search : StepSearch α) :
    Except (Failure α) (Refinement α) → Prop where
  | ok {k : ℕ} {found : Refinement α} :
      search.Finds k found → Ends search (.ok found)
  | error {i : ℕ} {failure : Failure α} :
      search.Fails i failure → Ends search (.error failure)

theorem Ends.eq_ok_iff {outcome : Except (Failure α) (Refinement α)}
    (h : search.Ends outcome) :
    outcome = .ok found ↔ ∃ k, search.Finds k found := by
  cases h with
  | @ok k found' hfinds =>
      constructor
      · intro heq
        exact ⟨k, Except.ok.inj heq ▸ hfinds⟩
      · rintro ⟨k', h'⟩
        rw [hfinds.unique h']
  | error hfails =>
      constructor
      · exact nofun
      · rintro ⟨k', h'⟩
        exact absurd hfails h'.not_fails

theorem Ends.eq_error_iff
    {outcome : Except (Failure α) (Refinement α)} (h : search.Ends outcome) :
    outcome = .error failure ↔ ∃ i, search.Fails i failure := by
  cases h with
  | ok hfinds =>
      constructor
      · exact nofun
      · rintro ⟨i, h'⟩
        exact absurd h' hfinds.not_fails
  | @error i failure' hfails =>
      constructor
      · intro heq
        exact ⟨i, Except.error.inj heq ▸ hfails⟩
      · rintro ⟨i', h'⟩
        rw [hfails.unique h']

/-! ## The loop -/

/-- The loop, in the state it has after `k` halvings, ends as the search
does. -/
theorem ends_refine
    (search : StepSearch α) {left k : ℕ} {coarse fine : List (α × α)}
    (hlimit : search.limit = k + left) (hmisses : ∀ j < k, search.Misses j)
    (hcoarse : search.runAt k = .ok coarse)
    (hfine : search.runAt (k + 1) = .ok fine) :
    search.Ends (refine search.points search.estimate search.tolerance left
      (halved search.step k) coarse fine) := by
  induction left generalizing k coarse fine with
  | zero =>
      exact .ok ⟨hlimit.ge, hmisses, rfl, hcoarse, ⟨fine, hfine, rfl⟩,
        .inr hlimit.symm⟩
  | succ left ih =>
      rw [refine]
      by_cases hwithin : search.estimate coarse fine ≤ search.tolerance
      · rw [if_pos hwithin]
        exact .ok ⟨by omega, hmisses, rfl, hcoarse, ⟨fine, hfine, rfl⟩,
          .inl hwithin⟩
      · rw [if_neg hwithin]
        have hmiss : search.Misses k := ⟨coarse, fine, hcoarse, hfine, hwithin⟩
        have hmisses' : ∀ j < k + 1, search.Misses j := by
          intro j hj
          rcases Nat.lt_succ_iff_lt_or_eq.mp hj with hlt | rfl
          · exact hmisses j hlt
          · exact hmiss
        have hnext : search.points (halved search.step k / 2.0 / 2.0) =
          search.runAt (k + 2) :=
          rfl
        rw [hnext]
        cases hfiner : search.runAt (k + 2) with
        | ok finer => exact ih (by omega) hmisses' hfine hfiner
        | error failure =>
            refine .error ⟨by omega,
              fun j hj => hmisses' j (by omega), ?_, hfiner⟩
            intro j hj
            rcases Nat.lt_succ_iff_lt_or_eq.mp hj with hlt | rfl
            · obtain ⟨points, _, hpoints, _⟩ := hmisses' j hlt
              exact ⟨points, hpoints⟩
            · exact ⟨fine, hfine⟩

/-- So does the loop behind the first two runs. -/
theorem ends_bind_refine (search : StepSearch α) :
    search.Ends (do
      let coarse ← search.points search.step
      let fine ← search.points (search.step / 2.0)
      refine search.points search.estimate search.tolerance search.limit
        search.step coarse fine) := by
  have hfirst : search.points search.step = search.runAt 0 := rfl
  have hsecond : search.points (search.step / 2.0) = search.runAt 1 := rfl
  rw [hfirst, hsecond]
  cases hcoarse : search.runAt 0 with
  | error failure =>
      exact .error ⟨Nat.zero_le _, fun j hj => absurd hj (by omega),
        fun j hj => absurd hj (by omega), hcoarse⟩
  | ok coarse =>
      cases hfine : search.runAt 1 with
      | error failure =>
          refine .error ⟨by omega, fun j hj => absurd hj (by omega), ?_, hfine⟩
          intro j hj
          obtain rfl : j = 0 := by omega
          exact ⟨coarse, hcoarse⟩
      | ok fine =>
          exact ends_refine search (Nat.zero_add _).symm
            (fun j hj => absurd hj (by omega)) hcoarse hfine

end StepSearch

/-! ## Traces -/

/-- The search for the step of a trace.  Only a one-step method halves its step,
and only if it is told to. -/
def stepSearch (settings : Settings) (method : OdeMethod) (f : OdeFunction α)
    (p : InitialValueProblem α) : StepSearch α where
  points := run settings method f p
  estimate := rungeError method
  tolerance := p.tolerance
  step := p.step
  limit :=
    if settings.refineStep = true ∧ method ≠ .milne then
      settings.maxStepHalvings
    else 0

/-- What is reported of a step found. -/
def report (settings : Settings) (method : OdeMethod) (f : OdeFunction α)
    (p : InitialValueProblem α) (found : Refinement α) : OdeTrace α where
  method := method
  step := found.step
  points := found.points
  displayEquation := f.name
  rungeError := found.rungeError
  maxAbsError := (f.integrationConstant p.x0 p.y0).bind fun c =>
    maxAbsError (fun x => f.exactSolution x c) found.points
  warnings := toleranceWarning settings method found.rungeError p.tolerance

theorem exists_ends_of_trace
    (settings : Settings) (method : OdeMethod) (f : OdeFunction α)
    (p : InitialValueProblem α) :
    ∃ outcome, (stepSearch settings method f p).Ends outcome ∧
      trace settings method f p = outcome.map (report settings method f p) := by
  refine ⟨_, StepSearch.ends_bind_refine _, ?_⟩
  have hlimit : (stepSearch settings method f p).limit =
      if refines settings method then settings.maxStepHalvings else 0 := by
    simp [stepSearch, refines]
  rw [hlimit]
  simp only [trace, stepSearch]
  cases run settings method f p p.step with
  | error failure => rfl
  | ok coarse =>
      cases run settings method f p (p.step / 2.0) with
      | error failure => rfl
      | ok fine =>
          simp only [bind, Except.bind]
          cases refine (run settings method f p) (rungeError method) p.tolerance
              (if refines settings method then settings.maxStepHalvings else 0)
                p.step coarse
              fine with
          | error failure => rfl
          | ok found => rfl

theorem exists_finds_of_trace_eq_ok
    {settings : Settings} {method : OdeMethod} {f : OdeFunction α}
    {p : InitialValueProblem α} {t : OdeTrace α}
    (ht : trace settings method f p = .ok t) :
    ∃ k found, (stepSearch settings method f p).Finds k found ∧
      t = report settings method f p found := by
  obtain ⟨outcome, hends, htrace⟩ := exists_ends_of_trace settings method f p
  rw [htrace] at ht
  cases hends with
  | ok hfinds => exact ⟨_, _, hfinds, (Except.ok.inj ht).symm⟩
  | error _ => cases ht

/-- A trace reports the run with its step, and the estimate for this run and the
one with half of the step. -/
theorem exists_fine_of_trace_eq_ok
    {settings : Settings} {method : OdeMethod} {f : OdeFunction α}
    {p : InitialValueProblem α} {t : OdeTrace α}
    (ht : trace settings method f p = .ok t) :
    run settings method f p t.step = .ok t.points ∧
      ∃ fine, run settings method f p (t.step / 2.0) = .ok fine ∧
        t.rungeError = rungeError method t.points fine := by
  obtain ⟨k, found, hfinds, rfl⟩ := exists_finds_of_trace_eq_ok ht
  have hstep : (report settings method f p found).step = halved p.step k :=
    hfinds.step_eq
  rw [hstep]
  exact ⟨hfinds.points_eq, hfinds.rungeError_eq⟩

theorem converged_report_iff
    (settings : Settings) (method : OdeMethod) (f : OdeFunction α)
    (p : InitialValueProblem α) (found : Refinement α) :
    (report settings method f p found).converged = true ↔
      found.rungeError ≤ p.tolerance := by
  simp only [OdeTrace.converged, report, toleranceWarning]
  by_cases hwithin : found.rungeError ≤ p.tolerance
  · simp [hwithin, Warning.occurs]
  · by_cases hrefines : refines settings method = true
    · simp [hwithin, hrefines, Warning.occurs, Warning.kind]
    · simp [hwithin, hrefines, Warning.occurs, Warning.kind]

/-- A trace is that of the step the plain search finds, and fails with the first
run that fails in the search.  It has converged if the estimate is within the
tolerance, and the only warning of one that has not says whether halving was
tried. -/
theorem trace_search
    (settings : Settings) (method : OdeMethod) (f : OdeFunction α)
    (p : InitialValueProblem α) :
    (∀ failure, trace settings method f p = .error failure ↔
      ∃ i, (stepSearch settings method f p).Fails i failure) ∧
    (∀ t, trace settings method f p = .ok t ↔
      ∃ k found, (stepSearch settings method f p).Finds k found ∧
        t = report settings method f p found) ∧
    ∀ t, trace settings method f p = .ok t →
      (t.converged = true ↔ t.rungeError ≤ p.tolerance) ∧
      t.warnings =
        if t.converged then []
        else if settings.refineStep = true ∧ method ≠ .milne then
          [.stepRefinementExhausted settings.maxStepHalvings]
        else [.stepToleranceNotMet t.rungeError p.tolerance] := by
  obtain ⟨outcome, hends, htrace⟩ := exists_ends_of_trace settings method f p
  have hok : ∀ t, trace settings method f p = .ok t ↔
      ∃ k found, (stepSearch settings method f p).Finds k found ∧
        t = report settings method f p found := by
    intro t
    refine ⟨exists_finds_of_trace_eq_ok, ?_⟩
    rintro ⟨k, found, hfinds, rfl⟩
    rw [htrace, hends.eq_ok_iff.mpr ⟨k, hfinds⟩]
    rfl
  refine ⟨?_, hok, ?_⟩
  · intro failure
    rw [htrace, ← hends.eq_error_iff]
    cases outcome with
    | ok found => simp [Except.map]
    | error failure' => simp [Except.map]
  · intro t ht
    obtain ⟨k, found, -, rfl⟩ := (hok t).mp ht
    have hconverged := converged_report_iff settings method f p found
    refine ⟨hconverged, ?_⟩
    by_cases hwithin : found.rungeError ≤ p.tolerance
    · rw [if_pos (hconverged.mpr hwithin)]
      simp [report, toleranceWarning, hwithin]
    · rw [if_neg (mt hconverged.mp hwithin)]
      simp [report, toleranceWarning, hwithin, refines]

/-- The slope of a parabola. -/
def doubleSlope : OdeFunction ℚ where
  rhs x _ := 2 * x

/-- One halving is enough to come within the tolerance. -/
theorem trace_search_doubleSlope :
    ∃ t, trace ⟨50, true, 10⟩ .euler doubleSlope ⟨0, 0, 1, 1, 3 / 10⟩ = .ok t ∧
      (∃ k, t.step = halved 1 k) ∧ t.step = 1 / 2 ∧ t.converged = true ∧
      t.warnings = [] := by
  have hvalue :
      (trace ⟨50, true, 10⟩ .euler doubleSlope
        ⟨0, 0, 1, 1, 3 / 10⟩).toOption.map
      (fun t => (t.step, t.rungeError)) = some (1 / 2, 1 / 4) := by
        decide +kernel
  obtain ⟨-, hfound, hwarnings⟩ :=
    trace_search ⟨50, true, 10⟩ .euler doubleSlope ⟨0, 0, 1, 1, 3 / 10⟩
  obtain ⟨t, ht, hend⟩ := exists_eq_ok_of_map_eq_some hvalue
  obtain ⟨hstep, hestimate⟩ : t.step = 1 / 2 ∧ t.rungeError = 1 / 4 :=
    Prod.ext_iff.mp hend
  obtain ⟨k, found, hfinds, rfl⟩ := (hfound t).mp ht
  obtain ⟨hconverged, hlist⟩ := hwarnings _ ht
  have hwithin := hconverged.mpr (by rw [hestimate]; decide +kernel)
  rw [if_pos hwithin] at hlist
  exact ⟨_, ht, ⟨k, hfinds.step_eq⟩, hstep, hwithin, hlist⟩

end InitialValue
end NumericalMethods
