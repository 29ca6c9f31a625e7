import NumericalMethods.Proofs.Binary64.Order
import NumericalMethods.Proofs.Failure
import NumericalMethods.Proofs.SearchSteps

/-!
# The searches in binary arithmetic

Infinity is not less than any tolerance, so a binary search that made no step
has not settled, and the law of a trace holds without exception.  Where a step
may lead is said by the order of the binary numbers.
-/

namespace NumericalMethods

/-- A binary number is within a bound if its absolute value is at most the
bound. -/
theorem within_iff {bound x : Float} (hbound : bound.isNaN = false) :
    Within bound x ↔ x.isFinite = true ∧ x.abs ≤ bound := by
  constructor
  · intro h
    exact ⟨h.finite,
      (Binary64.not_lt_iff_le (Binary64.isNaN_abs_of_isFinite h.finite)
      hbound).mp h.bounded⟩
  · rintro ⟨hfinite, hle⟩
    exact ⟨hfinite,
      (Binary64.not_lt_iff_le (Binary64.isNaN_abs_of_isFinite hfinite)
      hbound).mpr hle⟩

/-- In binary arithmetic the outcomes of the four methods obey the law of a
trace, for every function, start, tolerance and cap.  Simple iteration starts
from the point and the slope it chooses; without a usable slope it has no
result. -/
theorem lawful_searches (tolerance : Float) :
    (∀ (settings : RootSettings Float) (f : ScalarFunction Float)
      (start : RootStart Float),
      (∀ s, RootFinding.slopedStart f start = .ok s →
        ¬ Scalar.abs s.slope < settings.derivativeFloor →
          (RootFinding.simpleIterationSearch settings f (-1 / s.slope)).Lawful
            s.x tolerance settings.maxIterations
              (RootFinding.simpleIteration settings f start tolerance)) ∧
      (∀ r, RootFinding.simpleIteration settings f start tolerance = .ok r →
        ∃ s, RootFinding.slopedStart f start = .ok s ∧
          ¬ Scalar.abs s.slope < settings.derivativeFloor) ∧
      (RootFinding.newtonSearch settings f).Lawful
        (RootFinding.tangentStart f start) tolerance
        settings.maxIterations (RootFinding.newton settings f start tolerance) ∧
      (RootFinding.secantSearch settings f).Lawful
        (RootFinding.chordEnds start) tolerance settings.maxIterations
          (RootFinding.secant settings f start tolerance)) ∧
    ∀ (settings : PlaneNewton.Settings Float) (system : PlaneSystem Float)
        (guess : Float × Float),
      (PlaneNewton.search settings system).Lawful guess tolerance
        settings.maxIterations
        (PlaneNewton.solve settings system guess tolerance) := by
  have htolerance : ¬ (Scalar.infinity : Float) < tolerance :=
    Binary64.not_infinity_lt tolerance
  constructor
  · intro settings f start
    refine ⟨?_, ?_, ?_, ?_⟩
    · intro s hstart hslope
      exact RootFinding.lawful_simpleIteration settings f start htolerance
        hstart hslope
    · intro r hr
      exact RootFinding.exists_slopedStart_of_simpleIteration_eq_ok hr
    · exact RootFinding.lawful_newton settings f start htolerance
    · exact RootFinding.lawful_secant settings f start htolerance
  · intro settings system guess
    exact PlaneNewton.lawful_solve settings system guess htolerance

/-- A binary parabola with an irrational root. -/
def squareLessTwoBinary : ScalarFunction Float where
  evaluate x := x * x - 2
  derivative x := some (2 * x)

/-- Limits of ten steps within a hundred of zero. -/
def tenSteps : RootSettings Float :=
  ⟨10, 0.001, 0.001, 100⟩

/-- Two applications of the iteration function settle.  The chord over a point
and its mirror image is flat, and a search that comes to it after one step
breaks down. -/
theorem lawful_searches_squareLessTwo :
    (∃ r made stop,
      RootFinding.simpleIteration tenSteps squareLessTwoBinary (.estimate 1.5)
        0.01 = .ok r ∧
      (RootFinding.simpleIterationSearch tenSteps squareLessTwoBinary
        (-1 / (2 * 1.5))).Returns 1.5 0.01 10 made stop r ∧
      made.length = 2) ∧
    ∃ completed made stop,
      RootFinding.secant tenSteps squareLessTwoBinary (.bracket (-1.5) 1) 0.01 =
        .error (.breakdown (.chordFlat (-1) 1 0) completed) ∧
      (RootFinding.secantSearch tenSteps squareLessTwoBinary).Breaks
        (-1.5, 1) 0.01 10 made stop completed ∧
      made.length = 1 := by
  have hlaws := (lawful_searches 0.01).1 tenSteps squareLessTwoBinary
  constructor
  · have htwo :
        (RootFinding.simpleIteration tenSteps squareLessTwoBinary
          (.estimate 1.5)
        0.01).toOption.map SolveResult.iterations = some 2 := by
      decide +kernel
    have hstart : RootFinding.slopedStart squareLessTwoBinary (.estimate 1.5) =
        .ok ⟨1.5, 2 * 1.5, [2 * 1.5]⟩ := rfl
    have hslope : ¬ Scalar.abs (2 * 1.5 : Float) < 0.001 := by decide +kernel
    obtain ⟨r, hr, hiterations⟩ := exists_eq_ok_of_map_eq_some htwo
    obtain ⟨made, stop, hreturns⟩ :=
      ((hlaws (.estimate 1.5)).1 ⟨1.5, 2 * 1.5, [2 * 1.5]⟩ hstart
        hslope).of_ok r hr
    refine ⟨r, made, stop, hr, hreturns, ?_⟩
    rw [← hreturns.iterations_eq]
    exact hiterations
  · have hbroken : RootFinding.secant tenSteps squareLessTwoBinary
        (.bracket (-1.5) 1) 0.01 =
        .error (.breakdown (.chordFlat (-1) 1 0) (.steps (Step.number
          [.secant ⟨-1.5, 1, -1, -1, 2⟩]))) := by
      decide +kernel
    obtain ⟨made, stop, hbreaks⟩ :=
      (hlaws (.bracket (-1.5) 1)).2.2.2.of_breakdown _ _ hbroken
    refine ⟨_, made, stop, hbroken, hbreaks, ?_⟩
    obtain ⟨steps, hsteps, htrace⟩ := hbreaks.trace
    obtain rfl := PartialTrace.steps.inj hsteps
    have hnumbers := congrArg List.length htrace.numbers
    rw [List.length_range', List.length_map] at hnumbers
    exact hnumbers.symm

end NumericalMethods
