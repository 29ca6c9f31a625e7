import Mathlib.Algebra.Polynomial.Derivative
import Mathlib.Analysis.Calculus.Deriv.Polynomial
import Mathlib.MeasureTheory.Integral.IntervalIntegral.FundThmCalculus
import Mathlib.Topology.Algebra.Polynomial

/-!
# Integrals of polynomials

A polynomial over a field of characteristic zero has a primitive, and two
primitives differ by a constant.  So its integral over an interval is defined
over every such field, and over the real numbers it is the integral of analysis.
-/

namespace NumericalMethods

open Polynomial

variable {K : Type} [Field K]

/-- The primitive without a constant term. -/
noncomputable def primitive (f : K[X]) : K[X] :=
  f.sum fun k c => C (c / (k + 1)) * X ^ (k + 1)

/-- The integral of a polynomial from `a` to `b`. -/
noncomputable def definiteIntegral (f : K[X]) (a b : K) : K :=
  (primitive f).eval b - (primitive f).eval a

theorem eval_primitive {f : K[X]} {n : ℕ} (hf : f.natDegree < n) (x : K) :
    (primitive f).eval x = ∑ k ∈
      Finset.range n, f.coeff k / (k + 1) * x ^ (k + 1) := by
  rw [primitive, sum_over_range' f _ n hf, eval_finsetSum]
  · simp
  · simp

theorem definiteIntegral_add (f : K[X]) (a b c : K) :
    definiteIntegral f a b + definiteIntegral f b c =
      definiteIntegral f a c := by
  simp only [definiteIntegral]
  ring

theorem sum_definiteIntegral (f : K[X]) (x : ℕ → K) (m : ℕ) :
    ∑ i ∈ Finset.range m, definiteIntegral f (x i) (x (i + 1)) =
      definiteIntegral f (x 0) (x m) :=
  Finset.sum_range_sub (fun i => (primitive f).eval (x i)) m

section CharZero

variable [CharZero K]

@[simp]
theorem derivative_primitive (f : K[X]) : derivative (primitive f) = f := by
  have hterm : ∀ k, derivative (C (f.coeff k / (k + 1)) * X ^ (k + 1)) =
      C (f.coeff k) * X ^ k := by
    intro k
    rw [derivative_C_mul_X_pow, Nat.add_sub_cancel, Nat.cast_add_one,
      div_mul_cancel₀ _ (Nat.cast_add_one_ne_zero k)]
  calc derivative (primitive f)
      = f.sum fun k c => derivative (C (c / (k + 1)) * X ^ (k + 1)) := by
        rw [primitive, Polynomial.sum, map_sum, Polynomial.sum]
    _ = f.sum fun k c => C c * X ^ k := Finset.sum_congr rfl fun k _ => hterm k
    _ = f := sum_C_mul_X_pow_eq f

/-- Every primitive gives the integral. -/
theorem definiteIntegral_eq_sub {f F : K[X]} (hF : derivative F = f) (a b : K) :
    definiteIntegral f a b = F.eval b - F.eval a := by
  have hconstant : derivative (F - primitive f) = 0 := by
    rw [derivative_sub, hF, derivative_primitive, sub_self]
  have heval : ∀ x, F.eval x =
      (primitive f).eval x + (F - primitive f).coeff 0 := by
    intro x
    have h := congrArg (eval x)
      (eq_C_of_natDegree_eq_zero (derivative_eq_zero.mp hconstant))
    rw [eval_sub, eval_C] at h
    rw [← h]
    ring
  rw [heval a, heval b, definiteIntegral]
  ring

end CharZero

/-- Over the real numbers the integral is the integral of analysis. -/
theorem definiteIntegral_eq_integral (f : ℝ[X]) (a b : ℝ) :
    definiteIntegral f a b = ∫ x in a..b, f.eval x := by
  symm
  apply intervalIntegral.integral_eq_sub_of_hasDerivAt
  · intro x _
    simpa using (primitive f).hasDerivAt x
  · exact f.continuous.intervalIntegrable a b

end NumericalMethods
