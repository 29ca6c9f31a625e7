import NumericalMethods.Scalar

/-!
# Functions the solvers work on

A solver is given a function together with whatever else is known about it:
derivatives, an antiderivative, a domain, singular points, an exact solution.
All of that is optional, and a solver that needs it says so.
-/

namespace NumericalMethods

/-- A function of one variable. -/
structure ScalarFunction (α : Type) where
  evaluate : α → α
  /-- Its first derivative, where it is known. -/
  derivative : α → Option α := fun _ => none
  secondDerivative : α → Option α := fun _ => none
  name : String := "unnamed_function"

/-- A function that can be integrated. -/
structure Integrable (α : Type) extends ScalarFunction α where
  antiderivative : α → Option α := fun _ => none
  /-- The end below which the function is undefined, if there is one. -/
  lowerEnd : Option α := none
  /-- The end above which the function is undefined, if there is one. -/
  upperEnd : Option α := none
  singularPoints : List α := []

/-- The closed interval outside of which an integrand is undefined. -/
def Integrable.domain {α : Type} [Scalar α] (f : Integrable α) : α × α :=
  (f.lowerEnd.getD (-Scalar.infinity), f.upperEnd.getD Scalar.infinity)

/-- A two by two matrix, by rows. -/
structure Matrix2 (α : Type) where
  /-- First row, first column. -/
  a : α
  /-- First row, second column. -/
  b : α
  /-- Second row, first column. -/
  c : α
  /-- Second row, second column. -/
  d : α
  deriving Repr, DecidableEq

/-- Two functions of two variables. -/
structure PlaneSystem (α : Type) where
  values : α → α → α × α
  jacobian : α → α → Matrix2 α
  name : String := "unnamed_system"

/-- A formula with one place for an integration constant. -/
structure ConstantFormula where
  /-- The text in front of the constant. -/
  before : String
  /-- Whether the constant is written with its sign in every case. -/
  signed : Bool
  /-- The text behind the constant. -/
  after : String
  deriving Repr, DecidableEq

/-- The right-hand side of `y' = f(x, y)`, and what is known of its
solutions. -/
structure OdeFunction (α : Type) where
  rhs : α → α → α
  name : String := "y' = f(x, y)"
  /-- The constant of the solution through a point. -/
  integrationConstant : α → α → Option α := fun _ _ => none
  /-- The solution with a given constant. -/
  exactSolution : α → α → Option α := fun _ _ => none
  /-- A formula for that solution. -/
  exactFormula : Option ConstantFormula := none

end NumericalMethods
