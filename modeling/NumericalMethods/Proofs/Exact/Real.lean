import Mathlib.Analysis.SpecialFunctions.Log.Basic
import Mathlib.Analysis.SpecialFunctions.Pow.Real
import Mathlib.Analysis.SpecialFunctions.Trigonometric.Basic
import NumericalMethods.Machine
import NumericalMethods.Proofs.Exact.Basic

/-!
# Real numbers as exact scalars

Over the real numbers the square root and the elementary functions are the
functions of analysis.  No real number is infinite or undefined; zero stands in
for both.
-/

namespace NumericalMethods

noncomputable instance : ExactArithmetic ℝ where
  sqrt := Real.sqrt
  infinity := 0
  undefined := 0
  whole x := min ⌊x⌋₊ (Machine.countBound - 1)

noncomputable instance : Elementary ℝ where
  toScalar := ExactArithmetic.toScalar
  exp := Real.exp
  ln := Real.log
  sin := Real.sin
  cos := Real.cos
  tan := Real.tan
  pow := fun a b => a ^ b
  pi := Real.pi

@[simp]
theorem Scalar.sqrt_eq_sqrt (x : ℝ) : Scalar.sqrt x = √x := rfl

end NumericalMethods
