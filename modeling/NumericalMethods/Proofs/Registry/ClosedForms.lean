import Mathlib
import NumericalMethods.Proofs.Exact.Real
import NumericalMethods.Registry.Equation
import NumericalMethods.Registry.Integrand
import NumericalMethods.Registry.Ode
import NumericalMethods.Registry.Sample
import NumericalMethods.Registry.System

/-!
# The formulas of the registries

A registered function comes with formulas for its derivatives, an
antiderivative, its partial derivatives or the solutions of its differential
equation.  Over the real numbers each of them is what it is called, wherever the
function is defined: an integrand inside of its domain and away from its
singular points, the tangent where the cosine does not vanish, and everything
else on the whole line.
-/

namespace NumericalMethods

/-! ## What the formulas promise -/

/-- A function comes with its derivative at a point, and with its second
derivative if it comes with one at all. -/
structure ScalarFunction.DifferentiatesAt (f : ScalarFunction ℝ)
    (x : ℝ) : Prop where
  derivative : ∃ d, f.derivative x = some d ∧ HasDerivAt f.evaluate d x
  secondDerivative : ∀ d, f.secondDerivative x = some d →
    HasDerivAt (deriv f.evaluate) d x

/-- A point of the domain at which the function is not singular. -/
structure Integrable.IsRegularAt (f : Integrable ℝ) (x : ℝ) : Prop where
  lowerEnd_le : ∀ a ∈ f.lowerEnd, a ≤ x
  le_upperEnd : ∀ b ∈ f.upperEnd, x ≤ b
  notMem_singularPoints : x ∉ f.singularPoints

/-- A function comes with an antiderivative. -/
def Integrable.IntegratesAt (f : Integrable ℝ) (x : ℝ) : Prop :=
  ∃ F : ℝ → ℝ, (∀ t, f.antiderivative t = some (F t)) ∧
    HasDerivAt F (f.evaluate x) x

/-- The matrix a system comes with holds its partial derivatives, a row for each
function. -/
structure PlaneSystem.HasPartialsAt (f : PlaneSystem ℝ) (x y : ℝ) : Prop where
  a : HasDerivAt (fun t => (f.values t y).1) (f.jacobian x y).a x
  b : HasDerivAt (fun t => (f.values x t).1) (f.jacobian x y).b y
  c : HasDerivAt (fun t => (f.values t y).2) (f.jacobian x y).c x
  d : HasDerivAt (fun t => (f.values x t).2) (f.jacobian x y).d y

/-- An equation comes with a solution through every point, and all it comes with
are solutions. -/
structure OdeFunction.IsSolved (f : OdeFunction ℝ) : Prop where
  through : ∀ x0 y0, ∃ c, f.integrationConstant x0 y0 = some c ∧
  f.exactSolution x0 c = some y0
  solves : ∀ c, ∃ y : ℝ → ℝ, (∀ x, f.exactSolution x c = some (y x)) ∧
    ∀ x, HasDerivAt y (f.rhs x (y x)) x

namespace Registry

variable {x : ℝ}

@[simp]
theorem sin_eq_sin (x : ℝ) : Elementary.sin x = Real.sin x := rfl

@[simp]
theorem cos_eq_cos (x : ℝ) : Elementary.cos x = Real.cos x := rfl

theorem hasDerivAt_mul_self (x : ℝ) :
    HasDerivAt (fun t : ℝ => t * t) (2 * x) x :=
  ((hasDerivAt_id' x).mul (hasDerivAt_id' x)).congr_deriv (by ring)

/-! ## Equations -/

namespace Equation

theorem hasDerivAt_evaluate (e : Equation) (x : ℝ) :
    HasDerivAt (fun t : ℝ => e.evaluate t) (e.derivative x) x := by
  cases e with
  | cubic =>
      have h := ((((hasDerivAt_pow 3 x).const_mul 1.62).sub
        ((hasDerivAt_pow 2 x).const_mul 8.15)).add
          ((hasDerivAt_id' x).const_mul 4.39)).add_const 4.29
      simp only [evaluate, derivative, Scalar.power_eq_pow]
      refine h.congr_deriv ?_
      norm_num
      ring
  | shiftedCubic =>
      have h := ((hasDerivAt_pow 3 x).sub (hasDerivAt_id' x)).add_const 4.0
      simp only [evaluate, derivative, Scalar.power_eq_pow]
      refine h.congr_deriv ?_
      norm_num
  | exponential => exact (Real.hasDerivAt_exp x).sub_const 5.0
  | sine =>
      have h :=
        (((hasDerivAt_id' x).const_mul 2.0).sin).add_const (Real.pi / 4.0)
      simp only [evaluate, derivative, sin_eq_sin, cos_eq_cos]
      exact h.congr_deriv (by rw [mul_one, mul_comm])

theorem hasDerivAt_derivative (e : Equation) (x : ℝ) :
    HasDerivAt (fun t : ℝ => e.derivative t) (e.secondDerivative x) x := by
  cases e with
  | cubic =>
      have h := (((hasDerivAt_pow 2 x).const_mul 4.86).sub
        ((hasDerivAt_id' x).const_mul 16.3)).add_const 4.39
      simp only [derivative, secondDerivative, Scalar.power_eq_pow]
      refine h.congr_deriv ?_
      norm_num
      ring
  | shiftedCubic =>
      have h := ((hasDerivAt_pow 2 x).const_mul 3.0).sub_const 1.0
      simp only [derivative, secondDerivative, Scalar.power_eq_pow]
      refine h.congr_deriv ?_
      norm_num
      ring
  | exponential => exact Real.hasDerivAt_exp x
  | sine =>
      have h := (((hasDerivAt_id' x).const_mul 2.0).cos).const_mul 2.0
      simp only [derivative, secondDerivative, sin_eq_sin, cos_eq_cos]
      refine h.congr_deriv ?_
      norm_num
      ring

theorem differentiatesAt_function (e : Equation) (x : ℝ) :
    ScalarFunction.DifferentiatesAt e.function x where
  derivative := ⟨e.derivative x, rfl, e.hasDerivAt_evaluate x⟩
  secondDerivative := by
    intro d hd
    obtain rfl : e.secondDerivative x = d := Option.some.inj hd
    have hderiv : deriv (fun t : ℝ => e.evaluate t) = fun t => e.derivative t :=
      funext fun t => (e.hasDerivAt_evaluate t).deriv
    exact hderiv ▸ e.hasDerivAt_derivative x

end Equation

/-! ## Integrands -/

namespace Integrand

theorem ne_zero_of_hyperbola
    (h : Integrable.IsRegularAt hyperbola.function x) : x ≠ 0 := by
  have hx := h.notMem_singularPoints
  norm_num [function, singularPoints] at hx
  exact hx

/-- The inverse of the square root is regular to the right of zero. -/
theorem pos_of_sqrtHyperbola
    (h : Integrable.IsRegularAt sqrtHyperbola.function x) : 0 < x := by
  have hle := h.lowerEnd_le 0.0 (by simp [function])
  have hx := h.notMem_singularPoints
  norm_num [function, singularPoints] at hle hx
  exact lt_of_le_of_ne hle (Ne.symm hx)

theorem one_add_mul_self_pos (x : ℝ) : (0 : ℝ) < 1.0 + x * x := by
  have := mul_self_nonneg x
  norm_num
  positivity

theorem hasDerivAt_sqrt_one_add_mul_self (x : ℝ) :
    HasDerivAt (fun t : ℝ => √(1.0 + t * t)) (x / √(1.0 + x * x)) x := by
  have h :=
    ((hasDerivAt_mul_self x).const_add 1.0).sqrt (one_add_mul_self_pos x).ne'
  exact h.congr_deriv (mul_div_mul_left x _ two_ne_zero)

/-- A power of a positive number with the exponent `-1.5`. -/
theorem rpow_neg_three_halves {a : ℝ} (ha : 0 < a) :
    a ^ (-1.5 : ℝ) = (a * √a)⁻¹ := by
  have hexponent : (-1.5 : ℝ) = -(1 + 1 / 2) := by norm_num
  rw [hexponent, Real.rpow_neg ha.le, Real.rpow_add ha, Real.rpow_one,
    ← Real.sqrt_eq_rpow]

theorem hasDerivAt_antiderivative
    (f : Integrand) (hx : Integrable.IsRegularAt f.function x) :
    HasDerivAt (fun t : ℝ => f.antiderivative t) (f.evaluate x) x := by
  cases f with
  | polynomial =>
      have h :=
        ((((hasDerivAt_pow 4 x).const_mul 0.25).sub (hasDerivAt_pow 3 x)).add
        ((hasDerivAt_pow 2 x).const_mul 3.5)).sub
          ((hasDerivAt_id' x).const_mul 10.0)
      simp only [evaluate, antiderivative, Scalar.power_eq_pow]
      refine h.congr_deriv ?_
      norm_num
      ring
  | sine => exact (Real.hasDerivAt_cos x).neg.congr_deriv (neg_neg _)
  | linear =>
      have h := ((hasDerivAt_id' x).const_mul 0.5).mul (hasDerivAt_id' x)
      simp only [evaluate, antiderivative]
      refine h.congr_deriv ?_
      norm_num
      ring
  | scaledLogistic => exact hasDerivAt_sqrt_one_add_mul_self x
  | hyperbola =>
      have hlog : (fun t : ℝ => hyperbola.antiderivative t) = Real.log :=
        funext Real.log_abs
      rw [hlog]
      refine (Real.hasDerivAt_log (ne_zero_of_hyperbola hx)).congr_deriv ?_
      norm_num [evaluate]
  | sqrtHyperbola =>
      have h :=
        ((hasDerivAt_id' x).sqrt (pos_of_sqrtHyperbola hx).ne').const_mul 2.0
      simp only [evaluate, antiderivative, Scalar.sqrt_eq_sqrt]
      refine h.congr_deriv ?_
      norm_num
      ring

theorem hasDerivAt_evaluate
    (f : Integrand) (hx : Integrable.IsRegularAt f.function x) :
    HasDerivAt (fun t : ℝ => f.evaluate t) (f.derivative x) x := by
  cases f with
  | polynomial =>
      have h :=
        (((hasDerivAt_pow 3 x).sub ((hasDerivAt_pow 2 x).const_mul 3.0)).add
        ((hasDerivAt_id' x).const_mul 7.0)).sub_const 10.0
      simp only [evaluate, derivative, Scalar.power_eq_pow]
      refine h.congr_deriv ?_
      norm_num
      ring
  | sine => exact Real.hasDerivAt_sin x
  | linear => exact (hasDerivAt_id' x).congr_deriv (by norm_num [derivative])
  | scaledLogistic =>
      have hpositive := one_add_mul_self_pos x
      have hroot := Real.sqrt_pos.mpr hpositive
      have h :=
        (hasDerivAt_id' x).div (hasDerivAt_sqrt_one_add_mul_self x) hroot.ne'
      refine h.congr_deriv ?_
      change _ = (1.0 + x * x) ^ (-1.5 : ℝ)
      have hnumerator : 1 * √(1.0 + x * x) - x * (x / √(1.0 + x * x)) =
          1 / √(1.0 + x * x) := by
        rw [eq_div_iff hroot.ne', sub_mul, one_mul,
          Real.mul_self_sqrt hpositive.le, mul_assoc,
          div_mul_cancel₀ _ hroot.ne']
        norm_num
      rw [hnumerator, rpow_neg_three_halves hpositive,
        Real.sq_sqrt hpositive.le, div_div, mul_comm, one_div]
  | hyperbola =>
      have h := (hasDerivAt_inv (ne_zero_of_hyperbola hx)).const_mul 1.0
      simp only [evaluate, derivative, div_eq_mul_inv]
      refine h.congr_deriv ?_
      norm_num
      ring
  | sqrtHyperbola =>
      have hpositive := pos_of_sqrtHyperbola hx
      have hroot := Real.sqrt_pos.mpr hpositive
      have h :=
        (((hasDerivAt_id' x).sqrt hpositive.ne').inv hroot.ne').const_mul 1.0
      simp only [evaluate, div_eq_mul_inv, Scalar.sqrt_eq_sqrt]
      refine h.congr_deriv ?_
      change _ = -0.5 * x ^ (-1.5 : ℝ)
      rw [rpow_neg_three_halves hpositive, Real.sq_sqrt hpositive.le]
      norm_num
      field_simp

theorem differentiatesAt_function
    (f : Integrand) (hx : Integrable.IsRegularAt f.function x) :
    ScalarFunction.DifferentiatesAt
      (Integrable.toScalarFunction f.function) x where
  derivative := ⟨f.derivative x, rfl, f.hasDerivAt_evaluate hx⟩
  secondDerivative := nofun

theorem integratesAt_function
    (f : Integrand) (hx : Integrable.IsRegularAt f.function x) :
    Integrable.IntegratesAt f.function x :=
  ⟨f.antiderivative, fun _ => rfl, f.hasDerivAt_antiderivative hx⟩

end Integrand

/-! ## Functions to sample -/

namespace Sample

/-- The tangent is defined where the cosine does not vanish. -/
def IsDefinedAt (f : Sample) (x : ℝ) : Prop :=
  f = tangent → Real.cos x ≠ 0

theorem differentiatesAt_function
    (f : Sample) (hx : f.IsDefinedAt x) :
    ScalarFunction.DifferentiatesAt f.function x where
  derivative := by
    refine ⟨f.derivative x, rfl, ?_⟩
    cases f with
    | sine => exact Real.hasDerivAt_sin x
    | cosine => exact Real.hasDerivAt_cos x
    | tangent =>
        refine (Real.hasDerivAt_tan (hx rfl)).congr_deriv ?_
        norm_num [derivative]
  secondDerivative := nofun

end Sample

/-! ## Systems -/

namespace EquationSystem

theorem hasPartialsAt_system (s : EquationSystem) (x y : ℝ) :
    PlaneSystem.HasPartialsAt s.system x y := by
  cases s with
  | circleParabola =>
      have hparabola :=
        (((hasDerivAt_id' x).const_mul (-3.0)).mul
          (hasDerivAt_id' x)).add_const y
      refine ⟨?_, ?_, ?_, ?_⟩
      · exact (((hasDerivAt_mul_self x).add_const (y * y)).sub_const
          4.0).congr_deriv (by norm_num [system, jacobian])
      · exact (((hasDerivAt_mul_self y).const_add (x * x)).sub_const
          4.0).congr_deriv (by norm_num [system, jacobian])
      · refine hparabola.congr_deriv ?_
        norm_num [system, jacobian]
        ring
      · exact ((hasDerivAt_id' y).const_add (-3.0 * x * x)).congr_deriv
          (by norm_num [system, jacobian])
  | hyperbolic =>
      refine ⟨?_, ?_, ?_, ?_⟩
      · exact ((((hasDerivAt_mul_self x).add (hasDerivAt_id' x)).sub_const
          (y * y)).sub_const
          0.15).congr_deriv (by norm_num [system, jacobian])
      · exact (((hasDerivAt_mul_self y).const_sub (x * x + x)).sub_const
          0.15).congr_deriv (by norm_num [system, jacobian])
      · exact ((((hasDerivAt_mul_self x).sub_const y).add_const
          (y * y)).add_const
          0.17).congr_deriv (by norm_num [system, jacobian])
      · refine ((((hasDerivAt_id' y).const_sub (x * x)).add
          (hasDerivAt_mul_self y)).add_const 0.17).congr_deriv ?_
        norm_num [system, jacobian]
        ring
  | trigonometric =>
      refine ⟨?_, ?_, ?_, ?_⟩
      · refine (((hasDerivAt_id' x).add_const 1.0).cos.const_sub
          (2.0 * y)).congr_deriv ?_
        norm_num [system, jacobian]
      · refine (((hasDerivAt_id' y).const_mul 2.0).sub_const
          (Real.cos (x + 1.0))).congr_deriv ?_
        norm_num [system, jacobian]
      · exact (((hasDerivAt_id' x).add_const (Real.sin y)).add_const
          0.4).congr_deriv (by norm_num [system, jacobian])
      · exact ((Real.hasDerivAt_sin y).const_add x).add_const 0.4

end EquationSystem

/-! ## Differential equations -/

namespace OdeEquation

/-- A solution of a linear equation stays one with a multiple of the decay
added. -/
theorem hasDerivAt_add_mul_exp
    {p : ℝ → ℝ} {source : ℝ} (hp : HasDerivAt p (source - 2.0 * p x) x)
    (c : ℝ) :
    HasDerivAt (fun t => p t + c * Real.exp (-2.0 * t))
      (source - 2.0 * (p x + c * Real.exp (-2.0 * x))) x := by
  have h := hp.add ((((hasDerivAt_id' x).const_mul (-2.0)).exp).const_mul c)
  refine h.congr_deriv ?_
  norm_num
  ring

/-- The particular solution is a solution. -/
theorem hasDerivAt_particular (e : OdeEquation) (x : ℝ) :
    HasDerivAt (fun t : ℝ => e.particular t) (e.rhs x (e.particular x)) x := by
  cases e with
  | quadraticSource =>
      have h := ((((hasDerivAt_id' x).const_mul 0.5).mul (hasDerivAt_id' x)).sub
        ((hasDerivAt_id' x).const_mul 0.5)).add_const 0.25
      simp only [particular, rhs]
      refine h.congr_deriv ?_
      norm_num
      ring
  | cubicSource =>
      have h := ((((hasDerivAt_pow 3 x).const_mul 0.5).sub
        (((hasDerivAt_id' x).const_mul 0.75).mul (hasDerivAt_id' x))).add
          ((hasDerivAt_id' x).const_mul 0.75)).sub_const 0.375
      simp only [particular, rhs, Scalar.power_eq_pow]
      refine h.congr_deriv ?_
      norm_num
      ring
  | cosineGrowth =>
      refine (hasDerivAt_const x 0.0).congr_deriv ?_
      norm_num [particular, rhs]

theorem hasDerivAt_exactSolution (e : OdeEquation) (c x : ℝ) :
    HasDerivAt (fun t : ℝ => e.exactSolution t c)
      (e.rhs x (e.exactSolution x c)) x := by
  cases e with
  | quadraticSource =>
      exact hasDerivAt_add_mul_exp (quadraticSource.hasDerivAt_particular x) c
  | cubicSource =>
      exact hasDerivAt_add_mul_exp (cubicSource.hasDerivAt_particular x) c
  | cosineGrowth =>
      have h := (Real.hasDerivAt_sin x).exp.const_mul c
      exact h.congr_deriv (mul_assoc _ _ _).symm

theorem exactSolution_integrationConstant (e : OdeEquation) (x0 y0 : ℝ) :
    e.exactSolution x0 (e.integrationConstant x0 y0) = y0 := by
  have hcancel : ∀ r s a : ℝ, r + s = 0 → a * Real.exp r * Real.exp s = a := by
    intro r s a hsum
    rw [mul_assoc, ← Real.exp_add, hsum, Real.exp_zero, mul_one]
  have hdecay : (2.0 : ℝ) * x0 + -2.0 * x0 = 0 := by
    norm_num
  cases e with
  | quadraticSource =>
      exact (congrArg _ (hcancel _ _ _ hdecay)).trans (add_sub_cancel _ _)
  | cubicSource =>
      exact (congrArg _ (hcancel _ _ _ hdecay)).trans (add_sub_cancel _ _)
  | cosineGrowth => exact hcancel _ _ _ (neg_add_cancel _)

theorem isSolved_function (e : OdeEquation) :
    OdeFunction.IsSolved e.function where
  through x0 y0 :=
    ⟨e.integrationConstant x0 y0, rfl,
      congrArg some (e.exactSolution_integrationConstant x0 y0)⟩
  solves c :=
    ⟨fun x => e.exactSolution x c, fun _ => rfl, e.hasDerivAt_exactSolution c⟩

end OdeEquation

/-! ## All registries -/

/-- Every formula of a registry is what it is called, wherever its function is
defined.  Equations, integrands and functions to sample come with their
derivative, and equations with their second derivative; integrands come with an
antiderivative, systems with their partial derivatives.  A differential equation
comes with a solution through every point, and with solutions only. -/
theorem formulas_hold :
    (∀ (e : Equation) (x : ℝ), ScalarFunction.DifferentiatesAt e.function x ∧
      ∃ d, ScalarFunction.secondDerivative e.function x = some d) ∧
    (∀ (f : Integrand) (x : ℝ), Integrable.IsRegularAt f.function x →
      ScalarFunction.DifferentiatesAt
          (Integrable.toScalarFunction f.function) x ∧
        Integrable.IntegratesAt f.function x) ∧
    (∀ (f : Sample) (x : ℝ), f.IsDefinedAt x →
      ScalarFunction.DifferentiatesAt f.function x) ∧
    (∀ (s : EquationSystem) (x y : ℝ), PlaneSystem.HasPartialsAt s.system x y) ∧
    ∀ e : OdeEquation, OdeFunction.IsSolved e.function := by
  refine ⟨?_, ?_, ?_, EquationSystem.hasPartialsAt_system,
    OdeEquation.isSolved_function⟩
  · intro e x
    exact ⟨e.differentiatesAt_function x, e.secondDerivative x, rfl⟩
  · intro f x hx
    exact ⟨f.differentiatesAt_function hx, f.integratesAt_function hx⟩
  · intro f x hx
    exact f.differentiatesAt_function hx

/-- To the left of its pole, at a point to the right of it, and at the
origin. -/
theorem formulas_hold_besidePoles :
    Integrable.IsRegularAt Integrand.hyperbola.function (-2) ∧
      Integrable.IsRegularAt Integrand.sqrtHyperbola.function 4 ∧
      Sample.tangent.IsDefinedAt 0 ∧
      (∃ F : ℝ →
        ℝ, (∀ t, Integrable.antiderivative Integrand.hyperbola.function t =
          some (F t)) ∧
        HasDerivAt F (-1 / 2) (-2)) ∧
      (∃ F : ℝ → ℝ,
        (∀ t, Integrable.antiderivative Integrand.sqrtHyperbola.function t =
          some (F t)) ∧
          HasDerivAt F (1 / 2) 4) ∧
      HasDerivAt (ScalarFunction.evaluate (Sample.function .tangent))
        (1 : ℝ) 0 := by
  obtain ⟨-, hintegrands, hsamples, -, -⟩ := formulas_hold
  have hleft : Integrable.IsRegularAt Integrand.hyperbola.function (-2) :=
    ⟨by simp [Integrand.function], by simp [Integrand.function],
      by norm_num [Integrand.function, Integrand.singularPoints]⟩
  have hright : Integrable.IsRegularAt Integrand.sqrtHyperbola.function 4 :=
    ⟨by norm_num [Integrand.function], by simp [Integrand.function],
      by norm_num [Integrand.function, Integrand.singularPoints]⟩
  have horigin : Sample.tangent.IsDefinedAt 0 := fun _ => by simp
  obtain ⟨F, hF, hslope⟩ := (hintegrands .hyperbola (-2) hleft).2
  obtain ⟨G, hG, hrise⟩ := (hintegrands .sqrtHyperbola 4 hright).2
  obtain ⟨d, hd, htangent⟩ := (hsamples .tangent 0 horigin).derivative
  have hroot : √(4 : ℝ) = 2 := by
    rw [Real.sqrt_eq_iff_mul_self_eq (by norm_num) (by norm_num)]
    norm_num
  refine ⟨hleft, hright, horigin, ⟨F, hF, hslope.congr_deriv ?_⟩,
    ⟨G, hG, hrise.congr_deriv ?_⟩, htangent.congr_deriv ?_⟩
  · norm_num [Integrand.function, Integrand.evaluate]
  · norm_num [Integrand.function, Integrand.evaluate, hroot]
  · norm_num [Sample.function, Sample.derivative] at hd
    exact hd.symm

end Registry
end NumericalMethods
