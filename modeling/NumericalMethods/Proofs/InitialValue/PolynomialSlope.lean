import NumericalMethods.Proofs.InitialValue.RungeEstimate
import NumericalMethods.Proofs.InitialValue.Sequence
import NumericalMethods.Proofs.Quadrature.Panels

/-!
# Slopes that do not depend on the ordinate

Where the slope is a polynomial of the abscissa alone, the solution is an
integral and every method is a quadrature rule: a step adds the value of the
rule on one panel.  Below the order of the method this is the integral itself.
At the order of a one-step method each step adds the same defect besides, so the
ordinates drift from the solution at a constant rate, and half of the step
divides the drift over the interval by a power of two.  The Runge estimate then
knows the error.
-/

namespace NumericalMethods

open Polynomial

/-- The rule that a method becomes where the slope does not depend on the
ordinate.  For the method of Milne it is that of its start-up and of its
corrector. -/
def OdeMethod.quadratureRule : OdeMethod → QuadratureRule
  | .euler => .leftRectangles
  | .extendedEuler => .middleRectangles
  | .milne => .simpson

theorem OdeMethod.order_quadratureRule (method : OdeMethod) :
    method.quadratureRule.order = method.order := by
  cases method <;> rfl

namespace QuadratureRule

variable {K : Type} [Field K] {rule : QuadratureRule} {f : K[X]}

/-- What a rule has too much on every panel, for a polynomial with the order of
the rule as its degree. -/
def drift (rule : QuadratureRule) (f : K[X]) (h : K) : K :=
  rule.defect * f.coeff rule.order * h ^ (rule.order + 1)

theorem drift_eq_zero (hf : f.natDegree < rule.order) (h : K) :
    rule.drift f h = 0 := by
  rw [drift, coeff_eq_zero_of_natDegree_lt hf, mul_zero, zero_mul]

theorem drift_half [CharZero K] (rule : QuadratureRule) (f : K[X]) (h : K) :
    rule.drift f h = 2 ^ rule.order * (2 * rule.drift f (h / 2)) := by
  rw [drift, drift, div_pow, pow_succ 2]
  field_simp

theorem panel_eq_integral
    [LinearOrder K] [IsStrictOrderedRing K]
    (hf : f.natDegree < rule.order) (x h : K) :
    rule.panel (fun z => f.eval z) x h =
      definiteIntegral f x (x + rule.span * h) := by
  rw [panel_eq_integral_add hf.le, ← drift, drift_eq_zero hf, add_zero]

end QuadratureRule

variable {K : Type} [Field K] [LinearOrder K] [IsStrictOrderedRing K]
  [ExactArithmetic K] {f : K[X]} {g : OdeFunction K}

namespace InitialValue

/-! ## Steps as rules -/

section Steps

variable (hg : ∀ x y, g.rhs x y = f.eval x)
include hg

omit [IsStrictOrderedRing K] in
theorem eulerStep_eq_add_panel (h x y : K) :
    eulerStep g.rhs h x y =
      y + QuadratureRule.leftRectangles.panel (fun z => f.eval z) x h := by
  rw [eulerStep, hg, QuadratureRule.panel_leftRectangles]

theorem midpointStep_eq_add_panel (h x y : K) :
    midpointStep g.rhs h x y =
      y + QuadratureRule.middleRectangles.panel (fun z => f.eval z) x h := by
  have htwo : (2.0 : K) = 2 := by norm_num
  rw [midpointStep, hg, QuadratureRule.panel_middleRectangles, htwo]

/-- The middle slopes are equal, so their weights add up to that of Simpson's
rule with half of the step. -/
theorem rungeKuttaStep_eq_add_panel (h x y : K) :
    rungeKuttaStep g.rhs h x y =
      y + QuadratureRule.simpson.panel (fun z => f.eval z) x (h / 2) := by
  have htwo : (2.0 : K) = 2 := by norm_num
  have hsix : (6.0 : K) = 6 := by norm_num
  have hend : x + 2 * (h / 2) = x + h := by ring
  simp only [rungeKuttaStep, hg, QuadratureRule.panel_simpson, htwo, hsix, hend]
  ring

end Steps

theorem corrector_eq_add_panel (h x y : K) :
    corrector h y (f.eval x) (f.eval (x + h)) (f.eval (x + 2 * h)) =
      y + QuadratureRule.simpson.panel (fun z => f.eval z) x h := by
  have hthree : (3.0 : K) = 3 := by norm_num
  have hfour : (4.0 : K) = 4 := by norm_num
  rw [corrector, QuadratureRule.panel_simpson, hthree, hfour]

/-- The prediction is an open rule on four subintervals, with the order of
Simpson's. -/
theorem predictor_eq_add_integral
    (hf : f.natDegree ≤ 3) (h x y : K) :
    predictor h y (f.eval (x + h)) (f.eval (x + 2 * h)) (f.eval (x + 3 * h)) =
      y + definiteIntegral f x (x + 4 * h) := by
  have htwo : (2.0 : K) = 2 := by norm_num
  have hthree : (3.0 : K) = 3 := by norm_num
  have hfour : (4.0 : K) = 4 := by norm_num
  have hlt : f.natDegree < 4 := Nat.lt_succ_of_le hf
  simp only [predictor, definiteIntegral, eval_primitive hlt,
    eval_eq_sum_range' hlt, Finset.sum_range_succ, Finset.sum_range_zero, htwo,
    hthree, hfour]
  push_cast
  field_simp
  ring

/-! ## The ordinates -/

/-- Ordinates that drift from the solution through a point at a constant
rate. -/
noncomputable def drifting (f : K[X]) (x0 y0 h d : K) (i : ℕ) : K :=
  y0 + definiteIntegral f x0 (node x0 h i) + i * d

theorem drifting_zero (f : K[X]) (x0 y0 h d : K) :
    drifting f x0 y0 h d 0 = y0 := by
  simp [drifting, definiteIntegral]

omit [IsStrictOrderedRing K] in
theorem drifting_add (f : K[X]) (x0 y0 h d : K) (i k : ℕ) :
    drifting f x0 y0 h d (i + k) =
      drifting f x0 y0 h d i +
        definiteIntegral f (node x0 h i) (node x0 h i + k * h) + k * d := by
  rw [drifting, drifting, node_add, ← definiteIntegral_add f x0 (node x0 h i)]
  push_cast
  ring

omit [IsStrictOrderedRing K] in
theorem drifting_of_rate_zero (f : K[X]) (x0 y0 h : K) :
    drifting f x0 y0 h 0 = fun i =>
      y0 + definiteIntegral f x0 (node x0 h i) := by
  funext i
  rw [drifting, mul_zero, add_zero]

/-! ## One-step methods -/

theorem march_eq_table_of_panel
    {rule : QuadratureRule} {step : K → K → K} {h : K} (hspan : rule.span = 1)
    (hf : f.natDegree ≤ rule.order)
    (hstep : ∀ x y, step x y = y + rule.panel (fun z => f.eval z) x h)
    (method : OdeMethod) (x0 y0 : K) (n : ℕ) :
    march method step x0 y0 h n =
      .ok (table x0 h (drifting f x0 y0 h (rule.drift f h)) n) := by
  have hnext : ∀ i, step (node x0 h i) (drifting f x0 y0 h (rule.drift f h) i) =
      drifting f x0 y0 h (rule.drift f h) (i + 1) := by
    intro i
    rw [hstep, QuadratureRule.panel_eq_integral_add hf, hspan, drifting_add,
      QuadratureRule.drift]
    push_cast
    ring
  simpa only [drifting_zero] using march_eq_table hnext method n

theorem eulerPoints_eq_table
    (hg : ∀ x y, g.rhs x y = f.eval x) (hf : f.natDegree ≤ 1)
    (x0 y0 h : K) (n : ℕ) :
    eulerPoints g x0 y0 h n =
      .ok (table x0 h
        (drifting f x0 y0 h (QuadratureRule.leftRectangles.drift f h)) n) :=
  march_eq_table_of_panel rfl hf (eulerStep_eq_add_panel hg h) .euler x0 y0 n

theorem extendedEulerPoints_eq_table
    (hg : ∀ x y, g.rhs x y = f.eval x) (hf : f.natDegree ≤ 2)
    (x0 y0 h : K) (n : ℕ) :
    extendedEulerPoints g x0 y0 h n =
      .ok (table x0 h
        (drifting f x0 y0 h (QuadratureRule.middleRectangles.drift f h)) n) :=
  march_eq_table_of_panel rfl hf (midpointStep_eq_add_panel hg h)
    .extendedEuler x0 y0 n

/-! ## The method of Milne -/

/-- A step of the start-up leads along the solution. -/
theorem rungeKuttaStep_drifting
    (hg : ∀ x y, g.rhs x y = f.eval x) (hf : f.natDegree ≤ 3)
    (x0 y0 h : K) (i : ℕ) :
    rungeKuttaStep g.rhs h (node x0 h i) (drifting f x0 y0 h 0 i) =
      drifting f x0 y0 h 0 (i + 1) := by
  have horder : f.natDegree < QuadratureRule.simpson.order :=
    Nat.lt_succ_of_le hf
  have hwidth : (QuadratureRule.simpson.span : K) * (h / 2) = (1 : ℕ) * h := by
    rw [QuadratureRule.span]
    push_cast
    ring
  rw [rungeKuttaStep_eq_add_panel hg,
    QuadratureRule.panel_eq_integral horder, hwidth, drifting_add,
    mul_zero, add_zero]

/-- The solution is predicted from the slopes at the last three nodes. -/
theorem predictor_drifting
    (hf : f.natDegree ≤ 3) (x0 y0 h : K) (i : ℕ) :
    predictor h (drifting f x0 y0 h 0 i) (f.eval (node x0 h (i + 1)))
        (f.eval (node x0 h (i + 2))) (f.eval (node x0 h (i + 3))) =
      drifting f x0 y0 h 0 (i + 4) := by
  simp only [node_add, drifting_add, Nat.cast_one, Nat.cast_ofNat, one_mul,
    mul_zero, add_zero]
  exact predictor_eq_add_integral hf h _ _

/-- The solution is what a corrector makes of any ordinate. -/
theorem corrector_drifting
    (hf : f.natDegree ≤ 3) (x0 y0 h : K) (i : ℕ) :
    corrector h (drifting f x0 y0 h 0 i) (f.eval (node x0 h i))
      (f.eval (node x0 h (i + 1)))
        (f.eval (node x0 h (i + 2))) =
      drifting f x0 y0 h 0 (i + 2) := by
  have horder : f.natDegree < QuadratureRule.simpson.order :=
    Nat.lt_succ_of_le hf
  have hmiddle : node x0 h (i + 1) = node x0 h i + h := by
    simpa using node_add x0 h i 1
  have hend : node x0 h (i + 2) = node x0 h i + 2 * h := node_add x0 h i 2
  rw [hmiddle, hend, corrector_eq_add_panel,
    QuadratureRule.panel_eq_integral horder, drifting_add, mul_zero, add_zero,
    QuadratureRule.span]

/-- What the method of Milne makes of the solution up to a node is the solution
at the next one, whether the step is one of the start-up or is predicted.  The
correction of a prediction is the prediction itself. -/
theorem nextOrdinate_drifting
    (hg : ∀ x y, g.rhs x y = f.eval x) (hf : f.natDegree ≤ 3) {tolerance : K}
    (htolerance : 0 ≤ tolerance) (cap : ℕ) (x0 y0 h : K) (i : ℕ) :
    nextOrdinate g cap tolerance x0 h
      (historyAt g x0 h (drifting f x0 y0 h 0) i) =
      .ok (drifting f x0 y0 h 0 (i + 1)) := by
  rcases Nat.lt_or_ge i 3 with hi | hi
  · rw [nextOrdinate_historyAt_of_lt hi, rungeKuttaStep_drifting hg hf]
  · obtain ⟨j, rfl⟩ : ∃ j, i = j + 3 := ⟨i - 3, by omega⟩
    have hslope : ∀ k, (slopeAt g x0 h (drifting f x0 y0 h 0) k).slope =
        f.eval (node x0 h k) := fun k => hg _ _
    have hpredicted := predictor_drifting hf x0 y0 h j
    have hcorrected := corrector_drifting hf x0 y0 h (j + 2)
    rw [nextOrdinate_historyAt_add]
    simp only [hslope, hg]
    rw [hpredicted, hcorrected]
    apply settle_eq_ok_of_near
    · exact Scalar.isFinite_eq_true _
    · exact Scalar.isFinite_eq_true _
    · simpa using htolerance

theorem milnePoints_eq_table_of_polynomial
    (hg : ∀ x y, g.rhs x y = f.eval x) (hf : f.natDegree ≤ 3) {tolerance : K}
    (htolerance : 0 ≤ tolerance) (cap : ℕ) (x0 y0 h : K) (n : ℕ) :
    milnePoints g cap x0 y0 h n tolerance =
      .ok (table x0 h (drifting f x0 y0 h 0) n) := by
  have hnext := nextOrdinate_drifting hg hf htolerance cap x0 y0 h
  simpa only [drifting_zero] using milnePoints_eq_table hnext n

/-! ## The error of a trace -/

theorem run_eq_table
    {settings : Settings} {method : OdeMethod}
    {p : InitialValueProblem K} {h : K} {points : List (K × K)}
    (hg : ∀ x y, g.rhs x y = f.eval x) (hmethod : method ≠ .milne)
    (hf : f.natDegree ≤ method.order)
    (hrun : run settings method g p h = .ok points) :
    points =
      table p.x0 h (drifting f p.x0 p.y0 h (method.quadratureRule.drift f h))
      (gridSize p.x0 p.xn h) := by
  simp only [run, solutionPoints, reserve_bind_eq_ok_iff,
    liftError_eq_ok_iff] at hrun
  cases method with
  | euler =>
      rw [eulerPoints_eq_table hg hf] at hrun
      exact (Except.ok.inj hrun.2).symm
  | extendedEuler =>
      rw [extendedEulerPoints_eq_table hg hf] at hrun
      exact (Except.ok.inj hrun.2).symm
  | milne => exact absurd rfl hmethod

/-- The nodes of a step and of half of it meet at twice the index. -/
theorem node_half_eq_iff
    {x0 h : K} (hh : h ≠ 0) {i n : ℕ} : node x0 (h / 2) i = node x0 h n ↔
      i = 2 * n := by
  have hdouble : (n : K) * h = (2 * n : ℕ) * (h / 2) := by
    push_cast
    ring
  simp only [node, Scalar.ofNat_eq_natCast, add_right_inj]
  rw [hdouble, mul_left_inj' (div_ne_zero hh two_ne_zero), Nat.cast_inj]

theorem commonEnd_table
    {x0 h : K} {y' : ℕ → K} {n n' : ℕ} (hh : h ≠ 0) (y : ℕ → K)
    (hmem : node x0 h n ∈ (table x0 (h / 2) y' n').map Prod.fst) :
    CommonEnd (table x0 h y n) (table x0 (h / 2) y' n') (y n) (y' (2 * n)) := by
  obtain ⟨i, hi, hnode⟩ : ∃ i < n' + 1, node x0 (h / 2) i = node x0 h n := by
    simpa [table] using hmem
  obtain rfl := (node_half_eq_iff hh).mp hnode
  refine ⟨node x0 h n, getLast?_table x0 h y n, ?_⟩
  rw [length_table, Nat.add_sub_cancel,
    getElem?_table_of_le _ _ _ (Nat.le_of_lt_succ hi), hnode]

/-- Half of the step divides the error at the end by a power of two, so that the
estimate there knows it. -/
theorem abs_mul_drift_eq_of_commonEnd
    {method : OdeMethod} {x0 y0 h : K} {n : ℕ}
    {coarse fine : List (K × K)} (hh : h ≠ 0) (hend : CommonEnd coarse fine
      (drifting f x0 y0 h (method.quadratureRule.drift f h) n)
      (drifting f x0 y0 (h / 2) (method.quadratureRule.drift f (h / 2))
        (2 * n))) :
    |n * method.quadratureRule.drift f h| =
      2 ^ method.order * rungeError method coarse fine := by
  have horder : method.order ≠ 0 := by cases method <;> decide
  have hnode : node x0 (h / 2) (2 * n) = node x0 h n :=
    (node_half_eq_iff hh).mpr rfl
  have herror : n * method.quadratureRule.drift f h =
      2 ^ method.order *
        ((2 * n : ℕ) * method.quadratureRule.drift f (h / 2)) := by
    rw [method.quadratureRule.drift_half f h, method.order_quadratureRule]
    push_cast
    ring
  rw [rungeError_of_commonEnd hend, drifting, drifting, hnode,
    add_sub_add_left_eq_sub, Scalar.abs_eq_abs,
    Scalar.abs_sub_div_rungeDivisor horder herror, herror, abs_mul,
    abs_pow, abs_two]

theorem halved_pos {h : K} (hh : 0 < h) (k : ℕ) : 0 < halved h k := by
  induction k with
  | zero => exact hh
  | succ k ih =>
      have htwo : (2.0 : K) = 2 := by norm_num
      rw [halved, htwo]
      exact half_pos ih

/-- A one-step method knows the error of its last point, up to its order. -/
theorem abs_error_eq_of_trace
    {settings : Settings} {method : OdeMethod} {p : InitialValueProblem K}
    {t : OdeTrace K} {fine : List (K × K)} {x y : K}
    (hg : ∀ x y, g.rhs x y = f.eval x) (hmethod : method ≠ .milne)
    (hf : f.natDegree ≤ method.order) (hp : 0 < p.step)
    (ht : trace settings method g p = .ok t)
    (hfine : run settings method g p (t.step / 2.0) = .ok fine)
    (hlast : t.last? = some (x, y)) (hx : x ∈ fine.map Prod.fst) :
    |y - (p.y0 + definiteIntegral f p.x0 x)| =
      2 ^ method.order * t.rungeError := by
  obtain ⟨hcoarse, fine', hfine', herror⟩ := exists_fine_of_trace_eq_ok ht
  obtain rfl : fine' = fine := Except.ok.inj (hfine'.symm.trans hfine)
  have hstep : 0 < t.step := by
    obtain ⟨k, found, hfinds, rfl⟩ := exists_finds_of_trace_eq_ok ht
    have hfound : found.step = halved p.step k := hfinds.step_eq
    rw [report, hfound]
    exact halved_pos hp k
  have htwo : (2.0 : K) = 2 := by norm_num
  rw [htwo] at hfine
  have hpoints := run_eq_table hg hmethod hf hcoarse
  obtain rfl := run_eq_table hg hmethod hf hfine
  rw [OdeTrace.last?, hpoints, getLast?_table, Option.some.injEq,
    Prod.mk.injEq] at hlast
  obtain ⟨rfl, rfl⟩ := hlast
  have hend := commonEnd_table hstep.ne'
    (drifting f p.x0 p.y0 t.step (method.quadratureRule.drift f t.step)) hx
  rw [herror, hpoints, ← abs_mul_drift_eq_of_commonEnd hstep.ne' hend, drifting,
    add_sub_cancel_left]

/-- For a slope that is a polynomial of the abscissa, the points of every method
lie on the solution as long as the degree is below the order of the method; that
of Milne does not fail, whatever its cap and its tolerance.  At the order of a
one-step method the error at the end of a trace is a power of two times the
estimate, provided that the run with half of the step has that node too.  Over
the real numbers `definiteIntegral` is the integral. -/
theorem points_of_polynomialSlope
    (hg : ∀ x y, g.rhs x y = f.eval x) :
    (f.natDegree = 0 → ∀ (x0 y0 h : K) (n : ℕ), eulerPoints g x0 y0 h n =
      .ok (table x0 h (fun i => y0 + definiteIntegral f x0 (node x0 h i)) n)) ∧
    (f.natDegree ≤ 1 → ∀ (x0 y0 h : K) (n : ℕ),
      extendedEulerPoints g x0 y0 h n =
      .ok (table x0 h (fun i => y0 + definiteIntegral f x0 (node x0 h i)) n)) ∧
    (f.natDegree ≤ 3 → ∀ (cap : ℕ) (x0 y0 h : K) (n : ℕ) (tolerance : K),
      0 ≤ tolerance →
      milnePoints g cap x0 y0 h n tolerance =
        .ok (table x0 h
          (fun i => y0 + definiteIntegral f x0 (node x0 h i)) n)) ∧
    ∀ (settings : Settings) (method : OdeMethod) (p : InitialValueProblem K)
        (t : OdeTrace K) (fine : List (K × K)) (x y : K),
      method ≠ .milne → f.natDegree ≤ method.order → 0 < p.step →
        trace settings method g p = .ok t →
          run settings method g p (t.step / 2.0) = .ok fine →
            t.last? = some (x, y) →
            x ∈ fine.map Prod.fst →
              |y - (p.y0 + definiteIntegral f p.x0 x)| =
                2 ^ method.order * t.rungeError := by
  refine ⟨?_, ?_, ?_, ?_⟩
  · intro hf x0 y0 h n
    have hbelow : f.natDegree < QuadratureRule.leftRectangles.order := by
      rw [hf]
      decide
    rw [eulerPoints_eq_table hg hbelow.le, QuadratureRule.drift_eq_zero hbelow,
      drifting_of_rate_zero]
  · intro hf x0 y0 h n
    have hbelow : f.natDegree < QuadratureRule.middleRectangles.order :=
      Nat.lt_succ_of_le hf
    rw [extendedEulerPoints_eq_table hg hbelow.le,
      QuadratureRule.drift_eq_zero hbelow, drifting_of_rate_zero]
  · intro hf cap x0 y0 h n tolerance htolerance
    rw [milnePoints_eq_table_of_polynomial hg hf htolerance,
      drifting_of_rate_zero]
  · intro settings method p t fine x y hmethod hf hp ht hfine hlast hx
    exact abs_error_eq_of_trace hg hmethod hf hp ht hfine hlast hx

/-- A slope that is the same everywhere. -/
def evenSlope : OdeFunction ℚ where
  rhs _ _ := 2

/-- The points lie on a line and on a parabola.  On the parabola the method of
Euler ends below the solution, by twice its estimate. -/
theorem points_of_polynomialSlope_doubleSlope :
    eulerPoints evenSlope 0 0 1 2 = .ok [(0, 0), (1, 2), (2, 4)] ∧
    extendedEulerPoints doubleSlope 0 0 1 2 = .ok [(0, 0), (1, 1), (2, 4)] ∧
    milnePoints doubleSlope 0 0 0 1 5 0 =
      .ok [(0, 0), (1, 1), (2, 4), (3, 9), (4, 16), (5, 25)] ∧
    ∃ t, trace ⟨50, true, 10⟩ .euler doubleSlope ⟨0, 0, 2, 1, 3 / 10⟩ = .ok t ∧
      t.last? = some (2, 7 / 2) ∧ |(7 / 2 : ℚ) - 4| = 2 * t.rungeError := by
  have hline : ∀ b, definiteIntegral (C 2 : ℚ[X]) 0 b = 2 * b := by
    intro b
    have hprimitive : derivative (C 2 * X : ℚ[X]) = C 2 := derivative_C_mul_X 2
    rw [definiteIntegral_eq_sub hprimitive]
    simp
  have hparabola : ∀ b, definiteIntegral (C 2 * X : ℚ[X]) 0 b = b ^ 2 := by
    intro b
    have hprimitive : derivative (X ^ 2 : ℚ[X]) = C 2 * X := derivative_X_sq
    rw [definiteIntegral_eq_sub hprimitive]
    simp
  have heven : ∀ x y, evenSlope.rhs x y = (C 2 : ℚ[X]).eval x := by
    simp [evenSlope]
  have hdouble : ∀ x y, doubleSlope.rhs x y = (C 2 * X : ℚ[X]).eval x := by
    simp [doubleSlope]
  have hdegree : (C 2 * X : ℚ[X]).natDegree = 1 :=
    natDegree_C_mul_X 2 two_ne_zero
  obtain ⟨heuler, -, -, -⟩ := points_of_polynomialSlope heven
  obtain ⟨-, hextended, hmilne, herror⟩ := points_of_polynomialSlope hdouble
  refine ⟨?_, ?_, ?_, ?_⟩
  · rw [heuler (natDegree_C 2)]
    norm_num [table, List.range_succ, node, hline]
  · rw [hextended hdegree.le]
    norm_num [table, List.range_succ, node, hparabola]
  · rw [hmilne (by omega) 0 0 0 1 5 0 le_rfl]
    norm_num [table, List.range_succ, node, hparabola]
  · have hvalue :
        (trace ⟨50, true, 10⟩ .euler doubleSlope
          ⟨0, 0, 2, 1, 3 / 10⟩).toOption.map
        (fun t => (t.step, t.last?)) = some (1 / 4, some (2, 7 / 2)) := by
          decide +kernel
    have hshared : (run ⟨50, true, 10⟩ .euler doubleSlope ⟨0, 0, 2, 1, 3 / 10⟩
        (1 / 4 / 2.0)).toOption.map
          (fun fine => decide (2 ∈ fine.map Prod.fst)) = some true := by
      decide +kernel
    obtain ⟨t, ht, hend⟩ := exists_eq_ok_of_map_eq_some hvalue
    obtain ⟨hstep, hlast⟩ : t.step = 1 / 4 ∧ t.last? = some (2, 7 / 2) :=
      Prod.ext_iff.mp hend
    obtain ⟨fine, hfine, hmem⟩ := exists_eq_ok_of_map_eq_some hshared
    rw [← hstep] at hfine
    refine ⟨t, ht, hlast, ?_⟩
    have hexact :=
      herror _ .euler _ t fine 2 (7 / 2) (by decide) hdegree.le one_pos
        ht hfine hlast
      (of_decide_eq_true hmem)
    rw [hparabola] at hexact
    norm_num [OdeMethod.order] at hexact ⊢
    exact hexact

end InitialValue
end NumericalMethods
