import NumericalMethods.Proofs.Contraction
import NumericalMethods.Proofs.Exact.Rational
import NumericalMethods.Proofs.SearchSteps

/-!
# Simple iteration of a contraction

A search by simple iteration records the orbit of the iteration function `x ↦ x
+ λ f(x)`.  Where this function contracts, the movements shrink, the bound is
not left if it leaves room for the whole orbit, the cap is noticed only if the
geometric estimate of the last movement reaches the tolerance, and the last
movement bounds the distance of every root.
-/

namespace NumericalMethods
namespace RootFinding

/-! ## Orbits as paths -/

section Orbit

variable {α : Type} [Scalar α]

/-- The iteration function. -/
def relaxed (f : α → α) (lambda x : α) : α :=
  x + lambda * f x

/-- What is recorded when it is applied. -/
def application (f : α → α) (lambda x : α) : SimpleIterationStep α where
  x := x
  next := relaxed f lambda x
  phi := relaxed f lambda x
  fNext := f (relaxed f lambda x)
  absDiff := Scalar.abs (relaxed f lambda x - x)

/-- The first `n` applications from a point on. -/
def orbit (f : α → α) (lambda x : α) (n : ℕ) : List (SimpleIterationStep α) :=
  (List.range n).map fun k => application f lambda ((relaxed f lambda)^[k] x)

variable {settings : RootSettings α} {f : α → α} {lambda x : α}

theorem orbit_succ (f : α → α) (lambda x : α) (n : ℕ) :
    orbit f lambda x (n + 1) =
      orbit f lambda x n ++
        [application f lambda ((relaxed f lambda)^[n] x)] := by
  simp [orbit, List.range_succ]

theorem AppliesOnce.eq_application
    {e : SimpleIterationStep α} {next : α}
    (h : AppliesOnce settings f lambda x e next) :
    e = application f lambda x ∧ next = relaxed f lambda x := by
  obtain ⟨hx, hphi, hnext, hfNext, hmoved, -, harrives⟩ := h
  cases e
  simp only at hx hphi hnext hfNext hmoved harrives
  subst hx hphi hnext hfNext hmoved harrives
  exact ⟨rfl, rfl⟩

/-- A path of applications is an orbit. -/
theorem eq_orbit_of_path
    {stop : α} {made : List (SimpleIterationStep α)}
    (hpath : Path (AppliesOnce settings f lambda) x made stop) :
    made = orbit f lambda x made.length ∧
    stop = (relaxed f lambda)^[made.length] x := by
  induction hpath with
  | refl => exact ⟨rfl, rfl⟩
  | snoc _ hstep ih =>
      obtain ⟨hmade, rfl⟩ := ih
      obtain ⟨rfl, rfl⟩ := hstep.eq_application
      rw [List.length_append, List.length_singleton, orbit_succ, ← hmade,
        Function.iterate_succ_apply']
      exact ⟨rfl, rfl⟩

/-- Where an iteration starts, and the slope there: at the end of a bracket with
the steeper slope, at the first one if they are equally steep. -/
inductive StartsAt (f : ScalarFunction α) : RootStart α → α → α → Prop where
  | estimate {x slope : α} : f.derivative x = some slope →
      StartsAt f (.estimate x) x slope
  | first {a b slope other : α} :
        f.derivative a = some slope → f.derivative b = some other →
      Scalar.abs other ≤ Scalar.abs slope → StartsAt f (.bracket a b) a slope
  | second {a b slope other : α} :
        f.derivative a = some other → f.derivative b = some slope →
      ¬ Scalar.abs slope ≤ Scalar.abs other → StartsAt f (.bracket a b) b slope

theorem StartsAt.exists_slopedStart
    {f : ScalarFunction α} {start : RootStart α} {x slope : α}
    (h : StartsAt f start x slope) :
    ∃ slopes, slopedStart f start = .ok ⟨x, slope, slopes⟩ := by
  cases h with
  | estimate hslope =>
      refine ⟨[slope], ?_⟩
      simp only [slopedStart, slopeAt, hslope]
      rfl
  | @first _ _ _ other ha hb hle =>
      refine ⟨[slope, other], ?_⟩
      simp only [slopedStart, slopeAt, ha, hb, bind, Except.bind, hle, if_true]
      rfl
  | @second _ _ _ other ha hb hlt =>
      refine ⟨[other, slope], ?_⟩
      simp only [slopedStart, slopeAt, ha, hb, bind, Except.bind, hlt, if_false]
      rfl

/-- With a usable slope the outcome is that of an iteration. -/
theorem StartsAt.exists_simpleIteration_eq
    {f : ScalarFunction α} {start : RootStart α} {x slope : α}
    (h : StartsAt f start x slope)
    (hslope : ¬ Scalar.abs slope < settings.derivativeFloor) (tolerance : α) :
    ∃ warnings, Warning.occurs warnings .iterationLimitExceeded = false ∧
      simpleIteration settings f start tolerance =
        ofIteration
          (searchResult .simpleIteration f Iterate.x Iterate.moved
            .simpleIteration warnings settings)
          .simpleIteration id
          (iterate (applyOnce settings f.evaluate (-1 / slope) tolerance)
            settings.maxIterations ⟨x, Scalar.infinity⟩) := by
  obtain ⟨slopes, hslopes⟩ := h.exists_slopedStart
  refine ⟨_, occurs_contractionWarning (contraction (-1 / slope) slopes), ?_⟩
  rw [simpleIteration_eq, hslopes]
  simp only [hslope, if_false]

end Orbit

/-! ## Contraction -/

section Contraction

variable {K : Type} [Field K] [LinearOrder K] [ExactArithmetic K]

theorem absDiff_application_iterate (f : K → K) (lambda x : K) (k : ℕ) :
    (application f lambda ((relaxed f lambda)^[k] x)).absDiff =
      |(relaxed f lambda)^[k + 1] x - (relaxed f lambda)^[k] x| := by
  rw [Function.iterate_succ_apply']
  rfl

theorem relaxed_sub (f : K → K) (lambda x : K) :
    relaxed f lambda x - x = lambda * f x := by
  rw [relaxed, add_sub_cancel_left]

/-- The roots are fixed points. -/
theorem relaxed_of_root {f : K → K} {z : K} (hz : f z = 0) (lambda : K) :
    relaxed f lambda z = z := by
  rw [relaxed, hz, mul_zero, add_zero]

variable [IsStrictOrderedRing K] {settings : RootSettings K}
  {lambda q x tolerance : K}

omit [IsStrictOrderedRing K] in
/-- The movements of an orbit shrink. -/
theorem isChain_orbit {f : K → K} (hφ : Contracts (relaxed f lambda) q)
    (x : K) (n : ℕ) :
    (orbit f lambda x n).IsChain fun e next =>
      next.absDiff ≤ q * e.absDiff := by
  rw [orbit, List.isChain_map, List.isChain_range]
  intro k _
  rw [absDiff_application_iterate, absDiff_application_iterate]
  exact hφ.abs_iterate_succ_sub_le x k

/-- An orbit does not leave a bound with room for the geometric series. -/
theorem exists_appliesOnce
    {f : K → K} (hφ : Contracts (relaxed f lambda) q)
    (hbound : |x| + |lambda * f x| / (1 - q) ≤ settings.divergenceBound)
    (n : ℕ) :
    ∃ e next,
      AppliesOnce settings f lambda ((relaxed f lambda)^[n] x) e next := by
  have hdistance := hφ.abs_iterate_sub_le x (n + 1)
  rw [relaxed_sub] at hdistance
  have hwithin : |(relaxed f lambda)^[n + 1] x| ≤ settings.divergenceBound := by
    calc |(relaxed f lambda)^[n + 1] x|
        = |x + ((relaxed f lambda)^[n + 1] x - x)| := by rw [add_sub_cancel]
      _ ≤ |x| + |(relaxed f lambda)^[n + 1] x - x| := abs_add_le _ _
      _ ≤ |x| + |lambda * f x| / (1 - q) := by gcongr
      _ ≤ settings.divergenceBound := hbound
  rw [Function.iterate_succ_apply'] at hwithin
  exact ⟨application f lambda _, _, rfl, rfl, rfl, rfl, rfl,
    ⟨rfl, not_lt.mpr hwithin⟩, rfl⟩

section Run

variable {f : ScalarFunction K} {cap k : ℕ}
  {run : Run (SimpleIterationStep K) (Iterate K)}
  (hrun : (simpleIterationSearch settings f lambda).Completes tolerance
    cap Iterate.x
    Iterate.moved ⟨x, Scalar.infinity⟩ run)

include hrun

omit [IsStrictOrderedRing K] in
/-- A run ends with an application of the iteration function. -/
theorem last_application (hlength : run.entries.length = k + 1) :
    application f.evaluate lambda ((relaxed f.evaluate lambda)^[k] x) ∈
        run.entries ∧
      run.state.x = (relaxed f.evaluate lambda)^[k + 1] x ∧
      run.state.moved =
        |(relaxed f.evaluate lambda)^[k + 1] x -
          (relaxed f.evaluate lambda)^[k] x| := by
  obtain ⟨hmade, hstop⟩ := eq_orbit_of_path hrun.path
  rw [hlength] at hmade hstop
  rw [orbit_succ] at hmade
  refine ⟨?_, hstop, ?_⟩
  · rw [hmade]
    exact List.mem_concat_self
  · rw [hrun.moved_eq, hmade, Search.lastMoved_append,
      ← absDiff_application_iterate]
    rfl

/-- A run that was cut off had not moved by less than the tolerance. -/
theorem tolerance_le_of_not_settled
    (hφ : Contracts (relaxed f.evaluate lambda) q) (hcap : 1 ≤ cap)
    (hsettled : run.settled = false) :
    tolerance ≤ q ^ (cap - 1) * |lambda * f.evaluate x| := by
  obtain ⟨k, rfl⟩ := Nat.exists_eq_add_of_le' hcap
  obtain ⟨hlength, hlong⟩ := hrun.of_capped hsettled
  obtain ⟨hlast, -, -⟩ := last_application hrun hlength
  have hmoved := not_lt.mp (hlong _ hlast)
  rw [← relaxed_sub f.evaluate lambda x, Nat.add_sub_cancel]
  calc tolerance
      ≤ |(relaxed f.evaluate lambda)^[k + 1] x -
        (relaxed f.evaluate lambda)^[k] x| := by
        rwa [← absDiff_application_iterate]
    _ ≤ q ^ k * |relaxed f.evaluate lambda x - x| :=
      hφ.abs_iterate_sub_le_pow x k

/-- The last movement tells how far a root still is. -/
theorem abs_sub_root_le
    (hφ : Contracts (relaxed f.evaluate lambda) q) (hcap : 1 ≤ cap) {z : K}
    (hz : f.evaluate z = 0) :
    |run.state.x - z| ≤ q / (1 - q) * run.state.moved := by
  obtain ⟨k, hk⟩ := Nat.exists_eq_succ_of_ne_zero
    (mt List.length_eq_zero_iff.mp (hrun.entries_ne_nil hcap))
  obtain ⟨-, hx, hmoved⟩ := last_application hrun hk
  rw [hx, hmoved, Function.iterate_succ_apply']
  exact hφ.abs_sub_fixed_le _ (relaxed_of_root hz lambda)

end Run

/-- Simple iteration from a start with a usable slope, where the iteration
function contracts.  The recorded movements shrink; the search answers if the
bound has room for the whole orbit; the cap is complained of only if the
geometric estimate of the last movement reaches the tolerance; and the last
movement bounds the distance from every root. -/
theorem simpleIteration_contracts
    (settings : RootSettings K) {f : ScalarFunction K}
    {start : RootStart K} {slope : K} (tolerance : K)
    (hcap : 1 ≤ settings.maxIterations) (hstart : StartsAt f start x slope)
    (hslope : settings.derivativeFloor ≤ |slope|)
    (hφ : Contracts (fun v => v + -1 / slope * f.evaluate v) q) :
    let first := |-1 / slope * f.evaluate x|
    (∃ made : List (SimpleIterationStep K),
      keptSteps (simpleIteration settings f start tolerance) =
        Step.number (made.map .simpleIteration) ∧
      made.IsChain fun e next => next.absDiff ≤ q * e.absDiff) ∧
    (|x| + first / (1 - q) ≤ settings.divergenceBound →
      ∃ r, simpleIteration settings f start tolerance = .ok r) ∧
    ∀ r, simpleIteration settings f start tolerance = .ok r →
      (r.hasWarning .iterationLimitExceeded = true →
        tolerance ≤ q ^ (settings.maxIterations - 1) * first) ∧
      ∀ z, f.evaluate z = 0 → |r.value - z| ≤ q / (1 - q) * r.errorValue := by
  intro first
  obtain ⟨warnings, hothers, houtcome⟩ :=
    hstart.exists_simpleIteration_eq (not_lt.mpr hslope) tolerance
  have hperforms := fun (s : Iterate K) (_ : True) =>
    performs_applyOnce settings f (-1 / slope) tolerance s
  have hreports : ∀ run,
      (simpleIterationSearch settings f (-1 / slope)).Reports Iterate.x
      Iterate.moved run
        (searchResult .simpleIteration f Iterate.x Iterate.moved
          .simpleIteration
        warnings settings run) :=
    reports_searchResult _ f settings (fun _ _ h => h) hothers
  have hmoved : Iterate.moved ⟨x, Scalar.infinity⟩ = Scalar.infinity := rfl
  rw [houtcome]
  refine ⟨?_, ?_, ?_⟩
  · obtain ⟨made, stop, hkept, hpath⟩ :=
      Search.exists_path_of_ofIteration hperforms hreports trivial hmoved
    refine ⟨made, hkept, ?_⟩
    rw [(eq_orbit_of_path hpath).1]
    exact isChain_orbit hφ x made.length
  · intro hbound
    obtain ⟨run, hrun, -⟩ :=
      Search.exists_completes_of_forall_path settings.maxIterations hperforms
        trivial hmoved
        fun made stop hpath => by
          rw [(eq_orbit_of_path hpath).2]
          exact exists_appliesOnce hφ hbound made.length
    exact ⟨_, ofIteration_eq_ok_iff.mpr ⟨run, hrun, rfl⟩⟩
  · intro r hr
    obtain ⟨run, hrun, rfl⟩ := ofIteration_eq_ok_iff.mp hr
    have hcompletes :=
      Search.completes_of_iterate_eq_ok hperforms trivial hmoved hrun
    constructor
    · intro hwarning
      have hsettled := (hreports run).stoppedAtCap_iff.mp hwarning
      exact tolerance_le_of_not_settled hcompletes hφ hcap hsettled
    · intro z hz
      exact abs_sub_root_le hcompletes hφ hcap hz

end Contraction

/-- A line with a bend at zero, steeper to the right of it. -/
def bentLine : ScalarFunction ℚ where
  evaluate x := 2 * x + |x| + 3
  derivative x := some (if x < 0 then 1 else 3)

/-- The search starts at the second end of the bracket, where the line is
steeper, and approaches the root from there. -/
theorem simpleIteration_contracts_bentLine :
    ∃ r, simpleIteration ⟨10, 1, 0, 11⟩ bentLine (.bracket (-4) 2) (1 / 2) =
        .ok r ∧
      r.value = -19 / 9 ∧ |r.value - -3| ≤ 2 * r.errorValue := by
  have hlower : bentLine.derivative (-4) = some 1 := by decide +kernel
  have hupper : bentLine.derivative 2 = some 3 := by decide +kernel
  have hstart : StartsAt bentLine (.bracket (-4) 2) 2 3 :=
    .second hlower hupper (by decide +kernel)
  have hφ : Contracts (fun v => v + -1 / 3 * bentLine.evaluate v) (2 / 3) := by
    refine ⟨by norm_num, by norm_num, fun u v => ?_⟩
    have hdifference : u + -1 / 3 * bentLine.evaluate u -
        (v + -1 / 3 * bentLine.evaluate v) =
        ((u - v) - (|u| - |v|)) / 3 := by
      simp only [bentLine]
      ring
    calc |u + -1 / 3 * bentLine.evaluate u - (v + -1 / 3 * bentLine.evaluate v)|
        = |(u - v) - (|u| - |v|)| / 3 := by
          rw [hdifference, abs_div, abs_of_pos (three_pos : (0 : ℚ) < 3)]
      _ ≤ (|u - v| + |(|u| - |v|)|) / 3 := by gcongr; exact abs_sub _ _
      _ ≤ (|u - v| + |u - v|) / 3 := by linarith [abs_abs_sub_abs_le u v]
      _ = 2 / 3 * |u - v| := by ring
  have hfirst : |(2 : ℚ)| + |-1 / 3 * bentLine.evaluate 2| /
      (1 - 2 / 3) ≤ 11 := by
    decide +kernel
  have hvalue : (simpleIteration ⟨10, 1, 0, 11⟩ bentLine (.bracket (-4) 2)
      (1 / 2)).toOption.map SolveResult.value =
        some (-19 / 9) := by decide +kernel
  obtain ⟨-, hanswers, hresult⟩ :=
    simpleIteration_contracts ⟨10, 1, 0, 11⟩ (1 / 2) (by decide) hstart
      (by decide +kernel) hφ
  obtain ⟨r, hr⟩ := hanswers hfirst
  rw [hr] at hvalue
  have hdistance := (hresult r hr).2 (-3) (by decide +kernel)
  refine ⟨r, hr, Option.some.inj hvalue, ?_⟩
  norm_num at hdistance ⊢
  exact hdistance

end RootFinding
end NumericalMethods
