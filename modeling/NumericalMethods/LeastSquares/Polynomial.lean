import NumericalMethods.LinearSystem.Elimination

/-!
# Polynomial least squares

The coefficients of the best polynomial of a degree solve the normal equations,
whose entries are sums of powers of the abscissas.
-/

namespace NumericalMethods
namespace LeastSquares

variable {α : Type} [Scalar α]

open Scalar

/-- The sum of the powers of the abscissas with a given exponent. -/
def moment (x : List α) (exponent : Nat) : α :=
  sum (x.map fun v => power v exponent)

/-- The sum of the ordinates, each weighed with a power of its abscissa. -/
def weighedMoment (x y : List α) (exponent : Nat) : α :=
  sum (List.zipWith (fun v w => power v exponent * w) x y)

/-- The augmented rows of the normal equations for a polynomial with `count`
coefficients. -/
def normalEquations (x y : List α) (count : Nat) : List (List α) :=
  (List.range count).map fun i =>
    (List.range count).map (fun j => moment x (i + j)) ++ [weighedMoment x y i]

/-- The coefficients of the best polynomial of a degree, lowest power first. -/
def polynomialFit (x y : List α) (degree : Nat) : Option (List α) :=
  match Elimination.solve? (normalEquations x y (degree + 1)) with
  | some coefficients => if coefficients.all isFinite then
      some coefficients else none
  | none => none

end LeastSquares
end NumericalMethods
