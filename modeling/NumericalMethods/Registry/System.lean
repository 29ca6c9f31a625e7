import NumericalMethods.Function
import NumericalMethods.Registry.Lookup

/-!
# Registered systems

Pairs of equations in two unknowns that can be asked for by number, with their
partial derivatives.
-/

namespace NumericalMethods
namespace Registry

inductive EquationSystem where
  | circleParabola
  | hyperbolic
  | trigonometric
  deriving Repr, DecidableEq

namespace EquationSystem

def registry : String :=
  "system"

/-- All systems in the order of their numbers. -/
def all : List EquationSystem :=
  [circleParabola, hyperbolic, trigonometric]

def id : EquationSystem → Nat
  | circleParabola => 0
  | hyperbolic => 1
  | trigonometric => 2

def name : EquationSystem → String
  | circleParabola => "CircleParabola"
  | hyperbolic => "Hyperbolic"
  | trigonometric => "Trigonometric"

/-- Two equations set out as cases. -/
def cases (first second : String) : String :=
  "\\begin\x7bcases\x7d " ++ first ++ " = 0 \\\\ " ++ second ++
    " = 0 \\end\x7bcases\x7d"

/-- The formulas of a system. -/
def display : EquationSystem → String
  | circleParabola => cases "x^2 + y^2 - 4" "-3x^2 + y"
  | hyperbolic => cases "x^2 + x - y^2 - 0.15" "x^2 - y + y^2 + 0.17"
  | trigonometric => cases "2y - \\cos(x + 1)" "x + \\sin(y) + 0.4"

/-- The system with a number, or an error. -/
def lookup {α : Type} (n : Nat) : Except (EngineError α) EquationSystem :=
  find registry all n

variable {α : Type} [Elementary α]

open Elementary

def values (s : EquationSystem) (x y : α) : α × α :=
  match s with
  | circleParabola => (x * x + y * y - 4.0, -3.0 * x * x + y)
  | hyperbolic => (x * x + x - y * y - 0.15, x * x - y + y * y + 0.17)
  | trigonometric => (2.0 * y - cos (x + 1.0), x + sin y + 0.4)

def jacobian (s : EquationSystem) (x y : α) : Matrix2 α :=
  match s with
  | circleParabola => ⟨2.0 * x, 2.0 * y, -6.0 * x, 1.0⟩
  | hyperbolic => ⟨2.0 * x + 1.0, -2.0 * y, 2.0 * x, 2.0 * y - 1.0⟩
  | trigonometric => ⟨sin (x + 1.0), 2.0, 1.0, cos y⟩

def system (s : EquationSystem) : PlaneSystem α where
  values := s.values
  jacobian := s.jacobian
  name := s.display

end EquationSystem
end Registry
end NumericalMethods
