import NumericalMethods.Function

/-!
# Families of functions

Polynomials, shifted logarithms, quadratic plane systems and two families of
differential equations, with the derivatives and exact solutions they come
with.  A caller builds a function by choosing coefficients.
-/

namespace NumericalMethods

open Scalar

namespace ScalarFunction

variable {α : Type}

/-- The polynomial with the given coefficients, lowest power first. -/
def polynomial [Scalar α] (coefficients : List α) (name : String) :
    ScalarFunction α where
  evaluate := horner coefficients
  name := name

/-- The function with a polynomial as its derivative. -/
def withDerivative [Scalar α] (f : ScalarFunction α) (coefficients : List α) :
    ScalarFunction α :=
  { f with derivative := fun x => some (horner coefficients x) }

/-- The function with a polynomial as its second derivative. -/
def withSecondDerivative [Scalar α] (f : ScalarFunction α)
    (coefficients : List α) :
    ScalarFunction α :=
  { f with secondDerivative := fun x => some (horner coefficients x) }

/-- The logarithm lowered by a constant.  Its derivative is known to the right
of zero only. -/
def shiftedLogarithm [Elementary α] (shift : α) : ScalarFunction α where
  evaluate x := Elementary.ln x - shift
  derivative x := if 0 < x then some (1 / x) else none

end ScalarFunction

namespace Integrable

variable {α : Type} [Scalar α]

/-- The function with a simple pole added. -/
def withPole (f : Integrable α) (pole : α) : Integrable α :=
  { f with evaluate := fun x => f.evaluate x / (x - pole) }

/-- The function with a polynomial as its antiderivative. -/
def withAntiderivative (f : Integrable α) (coefficients : List α) :
    Integrable α :=
  { f with antiderivative := fun x => some (horner coefficients x) }

/-- The function on a closed interval. -/
def withDomain (f : Integrable α) (low high : α) : Integrable α :=
  { f with lowerEnd := some low, upperEnd := some high }

/-- The function with a list of singular points. -/
def withSingularPoints (f : Integrable α) (points : List α) : Integrable α :=
  { f with singularPoints := points }

end Integrable

/-- The quadratic form `c₀ + c₁x + c₂y + c₃x² + c₄xy + c₅y²`. -/
structure Quadratic (α : Type) where
  /-- The constant term. -/
  c0 : α
  /-- The coefficient of `x`. -/
  c1 : α
  /-- The coefficient of `y`. -/
  c2 : α
  /-- The coefficient of `x²`. -/
  c3 : α
  /-- The coefficient of `xy`. -/
  c4 : α
  /-- The coefficient of `y²`. -/
  c5 : α
  deriving Repr, DecidableEq

namespace Quadratic

variable {α : Type} [Scalar α]

/-- The value, summed from left to right. -/
def evaluate (q : Quadratic α) (x y : α) : α :=
  q.c0 + q.c1 * x + q.c2 * y + q.c3 * x * x + q.c4 * x * y + q.c5 * y * y

def slopeX (q : Quadratic α) (x y : α) : α :=
  q.c1 + 2.0 * q.c3 * x + q.c4 * y

def slopeY (q : Quadratic α) (x y : α) : α :=
  q.c2 + q.c4 * x + 2.0 * q.c5 * y

end Quadratic

/-- Two quadratic forms with their partial derivatives. -/
def PlaneSystem.quadratic {α : Type} [Scalar α] (f g : Quadratic α) :
    PlaneSystem α where
  values x y := (f.evaluate x y, g.evaluate x y)
  jacobian x y := ⟨f.slopeX x y, f.slopeY x y, g.slopeX x y, g.slopeY x y⟩

/-- The system with a constant matrix in the place of its partial
derivatives. -/
def PlaneSystem.withJacobian {α : Type} (f : PlaneSystem α) (j : Matrix2 α) :
    PlaneSystem α :=
  { f with jacobian := fun _ _ => j }

namespace OdeFunction

variable {α : Type}

/-- A quadratic right-hand side, undefined to the right of `limit`. -/
def quadratic [Scalar α] (q : Quadratic α) (name : String) (limit : Option α) :
    OdeFunction α where
  rhs x y :=
    match limit with
    | some u => if u < x then undefined else q.evaluate x y
    | none => q.evaluate x y
  name := name

/-- Exponential decay at a rate, with its exact solution up to `limit`. -/
def decay [Elementary α] (rate : α) (limit : Option α) : OdeFunction α where
  rhs _ y := -rate * y
  integrationConstant x y := some (y * Elementary.exp (rate * x))
  exactSolution x c :=
    let value := c * Elementary.exp (-rate * x)
    match limit with
    | some u => if x ≤ u then some value else none
    | none => some value

end OdeFunction
end NumericalMethods
