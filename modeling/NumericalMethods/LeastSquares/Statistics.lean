import NumericalMethods.Scalar

/-!
# Correlation

The correlation of two samples is the covariance over the geometric mean of the
variances.  A sample whose deviation is negligible beside its mean has none.
-/

namespace NumericalMethods
namespace LeastSquares

variable {α : Type} [Scalar α]

open Scalar

/-- The sum of the squared deviations from a value. -/
def squaredDeviations (xs : List α) (m : α) : α :=
  sum (xs.map fun x => power (x - m) 2)

/-- The sum of the products of deviations from two values. -/
def productDeviations (xs ys : List α) (mx my : α) : α :=
  sum (List.zipWith (fun x y => (x - mx) * (y - my)) xs ys)

/-- Whether a sum of squared deviations is negligible beside a mean. -/
def isFlat (deviations m count : α) : Bool :=
  decide (deviations / count ≤ power (1e-12 * larger (abs m) 1) 2)

/-- The correlation of two samples, within `[-1, 1]`. -/
def pearson (a b : List α) : Option α :=
  let ma := mean a
  let mb := mean b
  let va := squaredDeviations a ma
  let vb := squaredDeviations b mb
  let count : α := Scalar.ofNat a.length
  if isFlat va ma count || isFlat vb mb count then none
  else
    let r := productDeviations a b ma mb / sqrt (va * vb)
    if isFinite r then some (clamp r (-1) 1) else none

end LeastSquares
end NumericalMethods
