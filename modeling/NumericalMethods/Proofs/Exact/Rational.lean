import Mathlib.Algebra.Order.Floor.Semiring
import Mathlib.Data.Rat.Floor
import Mathlib.Data.Rat.Sqrt
import NumericalMethods.Machine
import NumericalMethods.Proofs.Exact.Basic

/-!
# Rational arithmetic

The rational numbers as exact scalars.  Their square root is exact on squares,
and their arithmetic can be carried out, so a run on rational data is a
computation.
-/

namespace NumericalMethods

instance : ExactArithmetic ℚ where
  sqrt := Rat.sqrt
  infinity := 0
  undefined := 0
  whole x := min ⌊x⌋₊ (Machine.countBound - 1)

end NumericalMethods
