import NumericalMethods.Proofs.Exact.Rational
import NumericalMethods.Proofs.Iteration
import NumericalMethods.Proofs.Quadrature.Integral
import NumericalMethods.Proofs.Quadrature.Panels

/-!
# When the Runge estimate is the error

On polynomials whose degree does not exceed its order, a rule errs by a constant
over a power of the number of subintervals.  So the difference of the values
before and after a doubling determines the error of the second one, and the
estimate of an adaptive quadrature is not merely an estimate.
-/

namespace NumericalMethods

open Polynomial

variable {K : Type} [Field K] [LinearOrder K] [IsStrictOrderedRing K]
  [ExactArithmetic K] {rule : QuadratureRule} {f : K[X]}

namespace QuadratureRule

theorem composite_eq_integral
    (hf : f.natDegree < rule.order) (a b : K) {n : ℕ} (hn : rule.Admits n) :
    rule.composite (fun x => f.eval x) a b n = definiteIntegral f a b := by
  rw [composite_eq_integral_add hf.le a b hn, coeff_eq_zero_of_natDegree_lt hf]
  simp

/-- A doubling divides the defect `d / n ^ p` by `2 ^ p`. -/
theorem runge_composite
    (hf : f.natDegree ≤ rule.order) (a b : K) {n : ℕ} (hn : rule.Admits n) :
    |rule.composite (fun x => f.eval x) a b (2 * n) -
        rule.composite (fun x => f.eval x) a b n| / (2 ^ rule.order - 1) =
      |rule.composite (fun x => f.eval x) a b (2 * n) -
        definiteIntegral f a b| := by
  have hn0 : (n : K) ≠ 0 := by exact_mod_cast Nat.one_le_iff_ne_zero.mp hn.1
  have horder : rule.order ≠ 0 := by cases rule <;> decide
  have herror : rule.composite (fun x => f.eval x) a b n -
      definiteIntegral f a b =
      2 ^ rule.order *
        (rule.composite (fun x => f.eval x) a b (2 * n) -
          definiteIntegral f a b) := by
    rw [composite_eq_integral_add hf a b hn,
      composite_eq_integral_add hf a b hn.two_mul]
    push_cast
    field_simp
    ring
  rw [← Scalar.abs_sub_div_rungeDivisor horder herror, sub_sub_sub_cancel_right,
    abs_sub_comm, Scalar.rungeDivisor_eq]

end QuadratureRule

namespace Quadrature

/-- The value is that of the rule, and the estimate is the error after a
doubling. -/
structure Tracks (rule : QuadratureRule) (f : K[X]) (a b : K)
    (made : List (QuadratureStep K)) (s : Estimate K) : Prop where
  admits : rule.Admits s.subintervals
  value_eq : s.value = rule.composite (fun x => f.eval x) a b s.subintervals
  rungeError_eq : made ≠ [] → s.rungeError = |s.value - definiteIntegral f a b|

omit [IsStrictOrderedRing K] in
theorem leads_double
    {value : ℕ → K} {divisor tolerance a b : K} {s next : Estimate K}
    {entry : QuadratureStep K}
    (hleads : (double value divisor tolerance a b s).Leads entry next) :
    next = ⟨2 * s.subintervals, value (2 * s.subintervals),
      |value (2 * s.subintervals) - s.value| / divisor⟩ := by
  simp only [double, Scalar.isFinite_eq_true, Scalar.abs_eq_abs, if_true]
    at hleads
  split at hleads
  · rcases hleads with h | h
    · cases h
    · injection h with _ hnext
      exact hnext.symm
  · rcases hleads with h | h
    · injection h with _ hnext
      exact hnext.symm
    · cases h

theorem Tracks.of_leads
    {a b tolerance : K} {made : List (QuadratureStep K)} {s next : Estimate K}
    {entry : QuadratureStep K} (hf : f.natDegree ≤ rule.order)
    (hs : Tracks rule f a b made s)
    (hleads : (double (rule.composite (fun x => f.eval x) a b)
      (Scalar.rungeDivisor rule.order)
      tolerance a b s).Leads entry next) :
    Tracks rule f a b (made ++ [entry]) next := by
  obtain rfl := leads_double hleads
  refine ⟨hs.admits.two_mul, rfl, ?_⟩
  intro _
  rw [hs.value_eq, Scalar.rungeDivisor_eq]
  exact QuadratureRule.runge_composite hf a b hs.admits

/-- What holds at every doubling holds of the run on a piece. -/
theorem tracks_of_refinePiece_eq_ok
    {settings : Settings K} {a b tolerance : K}
    {run : Run (QuadratureStep K) (Estimate K)} (hf : f.natDegree ≤ rule.order)
    (hrun : refinePiece settings rule (fun x => f.eval x) a b tolerance =
      .ok run) :
    Tracks rule f a b run.entries run.state := by
  obtain ⟨-, -, hrun⟩ := iterate_of_refinePiece_eq_ok hrun
  refine invariant_of_iterate_eq_ok hrun ?_ ?_
  · exact ⟨rule.admits_startingCount settings.initialSubintervals, rfl,
      fun h => absurd rfl h⟩
  · intro made s entry next hs hleads
    exact hs.of_leads hf hleads

omit [IsStrictOrderedRing K] in
/-- Without singular points there is one piece. -/
theorem pieces_of_singularPoints_eq_nil
    {g : Integrable K} (hg : g.singularPoints = []) (margin : K)
    {lower upper : K} (hlt : lower < upper) :
    pieces g margin lower upper = .ok [(lower, upper)] := by
  have hpoints : singularPointsWithin g lower upper = [] := by
    simp [singularPointsWithin, hg, List.eraseReps, List.eraseRepsBy]
  simp [pieces, hpoints, piecesFrom, hlt]

omit [IsStrictOrderedRing K] in
/-- A result without singular points is that of one run. -/
theorem exists_refinePiece_of_integrate_eq_ok
    {settings : Settings K} {g : Integrable K} {lower upper tolerance : K}
    {r : SolveResult K} (hg : g.singularPoints = [])
    (hr : integrate settings rule g lower upper tolerance = .ok r) :
    ∃ run, refinePiece settings rule g.evaluate lower upper tolerance =
        .ok run ∧
      r = result rule g lower upper (Total.add ⟨0, 0, 0, [], []⟩ run) := by
  obtain ⟨haccepts, parts, total, hparts, htotal, rfl⟩ :=
    integrate_eq_ok_iff.mp hr
  rw [pieces_of_singularPoints_eq_nil hg settings.singularityOffset
    (not_le.mp haccepts.not_le)] at hparts
  obtain rfl := Except.ok.inj hparts
  obtain ⟨run, hrun, -, hrest⟩ := overPieces_cons_eq_ok_iff.mp htotal
  obtain rfl := Except.ok.inj hrest
  exact ⟨run, hrun, rfl⟩

/-- The estimated error of a result without singular points is its error, once
the number of subintervals was doubled. -/
theorem errorValue_of_integrate_eq_ok
    {settings : Settings K} {g : Integrable K} {lower upper tolerance : K}
    {r : SolveResult K} (hf : f.natDegree ≤ rule.order)
    (hevaluate : ∀ x, g.evaluate x = f.eval x) (hg : g.singularPoints = [])
    (hr : integrate settings rule g lower upper tolerance = .ok r)
    (hsteps : r.steps ≠ []) :
    r.errorValue = |r.value - definiteIntegral f lower upper| := by
  obtain ⟨run, hrun, rfl⟩ := exists_refinePiece_of_integrate_eq_ok hg hr
  rw [funext hevaluate] at hrun
  have htracks := tracks_of_refinePiece_eq_ok hf hrun
  have hentries : run.entries ≠ [] := by
    intro hnone
    apply hsteps
    simp [result, Total.add, hnone, Step.number]
  have herror := htracks.rungeError_eq hentries
  simpa [result, Total.add] using herror

/-- A rule integrates polynomials below its order, and the Runge estimate of its
error is exact up to its order, in particular that of an adaptive quadrature.
Over the real numbers `definiteIntegral` is the integral. -/
theorem runge_exact
    (hf : f.natDegree ≤ rule.order) :
    (f.natDegree ≤ rule.order - 1 → ∀ (a b : K) (n : ℕ), rule.Admits n →
      rule.composite (fun x => f.eval x) a b n = definiteIntegral f a b) ∧
    (∀ (a b : K) (n : ℕ), rule.Admits n →
      |rule.composite (fun x => f.eval x) a b (2 * n) -
          rule.composite (fun x => f.eval x) a b n| / (2 ^ rule.order - 1) =
        |rule.composite (fun x => f.eval x) a b (2 * n) -
          definiteIntegral f a b|) ∧
    ∀ (settings : Settings K) (g : Integrable K) (lower upper tolerance : K)
        (r : SolveResult K),
      (∀ x, g.evaluate x = f.eval x) → g.singularPoints = [] →
        integrate settings rule g lower upper tolerance = .ok r → r.steps ≠ [] →
          r.errorValue = |r.value - definiteIntegral f lower upper| := by
  refine ⟨?_, ?_, ?_⟩
  · intro hbelow a b n hn
    have horder : 1 ≤ rule.order := by cases rule <;> decide
    exact QuadratureRule.composite_eq_integral (by omega) a b hn
  · intro a b n hn
    exact QuadratureRule.runge_composite hf a b hn
  · intro settings g lower upper tolerance r hevaluate hg hr hsteps
    exact errorValue_of_integrate_eq_ok hf hevaluate hg hr hsteps

/-- A power with the order of Simpson's rule. -/
def fourthPower : Integrable ℚ where
  evaluate x := x ^ 4

/-- Simpson's rule on two and on four subintervals: the value is not the
integral, but its error is known. -/
theorem runge_exact_fourthPower :
    ∃ r, integrate ⟨2, 64, 0⟩ .simpson fourthPower 0 1 (1 / 100) = .ok r ∧
      r.value ≠ 1 / 5 ∧ r.errorValue = |r.value - 1 / 5| := by
  have hdegree : (X ^ 4 : ℚ[X]).natDegree ≤ QuadratureRule.simpson.order := by
    rw [natDegree_X_pow]
    decide
  have hintegral : definiteIntegral (X ^ 4 : ℚ[X]) 0 1 = 1 / 5 := by
    have hprimitive : derivative (C (1 / 5) * X ^ 5 : ℚ[X]) = X ^ 4 := by
      rw [derivative_C_mul_X_pow]
      norm_num
    rw [definiteIntegral_eq_sub hprimitive]
    simp
  have hvalue :
      (integrate ⟨2, 64, 0⟩ .simpson fourthPower 0 1 (1 / 100)).toOption.map
      (fun r => (r.value, r.steps.length)) = some (77 / 384, 1) := by
        decide +kernel
  cases hr : integrate ⟨2, 64, 0⟩ .simpson fourthPower 0 1 (1 / 100) with
  | error e =>
      rw [hr] at hvalue
      cases hvalue
  | ok r =>
      rw [hr] at hvalue
      obtain ⟨hfound, hlength⟩ : r.value = 77 / 384 ∧ r.steps.length = 1 :=
        Prod.ext_iff.mp (Option.some.inj hvalue)
      have hsteps : r.steps ≠ [] := by
        intro hnone
        simp [hnone] at hlength
      refine ⟨r, rfl, ?_, ?_⟩
      · rw [hfound]
        norm_num
      · rw [(runge_exact hdegree).2.2 _ fourthPower 0 1 _ r
          (fun x => by simp [fourthPower]) rfl hr hsteps, hintegral]

end Quadrature
end NumericalMethods
