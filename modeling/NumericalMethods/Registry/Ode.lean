import NumericalMethods.Function
import NumericalMethods.Registry.Lookup

/-!
# Registered differential equations

Right-hand sides of `y' = f(x, y)` that can be asked for by number, with their
general solutions.  The first two are linear with a polynomial source; a
solution is a particular solution plus a multiple of `e^(-2x)`.
-/

namespace NumericalMethods
namespace Registry

inductive OdeEquation where
  /-- Decay with a quadratic source. -/
  | quadraticSource
  /-- Decay with a cubic source. -/
  | cubicSource
  /-- Growth at a rate that follows a cosine. -/
  | cosineGrowth
  deriving Repr, DecidableEq

namespace OdeEquation

def registry : String :=
  "ode"

/-- All equations in the order of their numbers. -/
def all : List OdeEquation :=
  [quadraticSource, cubicSource, cosineGrowth]

def id : OdeEquation → Nat
  | quadraticSource => 0
  | cubicSource => 1
  | cosineGrowth => 2

def name : OdeEquation → String
  | quadraticSource => "QuadraticSource"
  | cubicSource => "CubicSource"
  | cosineGrowth => "CosineGrowth"

/-- The equation in symbols. -/
def display : OdeEquation → String
  | quadraticSource => "y' = x^2 - 2y"
  | cubicSource => "y' = x^3 - 2y"
  | cosineGrowth => "y' = y \\cos(x)"

/-- The equation with a number, or an error. -/
def lookup {α : Type} (n : Nat) : Except (EngineError α) OdeEquation :=
  find registry all n

/-- A fraction in symbols. -/
def fraction (numerator denominator : String) : String :=
  "\\frac\x7b" ++ numerator ++ "\x7d\x7b" ++ denominator ++ "\x7d"

def solutionFormula : OdeEquation → ConstantFormula
  | quadraticSource =>
    { before := "y = " ++ fraction "x^2" "2" ++ " - " ++
      fraction "x" "2" ++ " + " ++
        fraction "1" "4" ++ " "
      signed := true
      after := "e^\x7b-2x\x7d" }
  | cubicSource =>
    { before := "y = " ++ fraction "x^3" "2" ++ " - " ++
      fraction "3x^2" "4" ++ " + " ++
        fraction "3x" "4" ++ " - " ++ fraction "3" "8" ++ " "
      signed := true
      after := "e^\x7b-2x\x7d" }
  | cosineGrowth =>
    { before := "y = "
      signed := false
      after := "e^\x7b\\sin(x)\x7d" }

variable {α : Type} [Elementary α]

open Scalar Elementary

/-- The solution without a multiple of `e^(-2x)`. -/
def particular (e : OdeEquation) (x : α) : α :=
  match e with
  | quadraticSource => 0.5 * x * x - 0.5 * x + 0.25
  | cubicSource => 0.5 * power x 3 - 0.75 * x * x + 0.75 * x - 0.375
  | cosineGrowth => 0.0

def rhs (e : OdeEquation) (x y : α) : α :=
  match e with
  | quadraticSource => x * x - 2.0 * y
  | cubicSource => power x 3 - 2.0 * y
  | cosineGrowth => y * cos x

/-- The constant of the solution through a point. -/
def integrationConstant (e : OdeEquation) (x0 y0 : α) : α :=
  match e with
  | quadraticSource | cubicSource => (y0 - e.particular x0) * exp (2.0 * x0)
  | cosineGrowth => y0 * exp (-sin x0)

/-- The solution with a constant. -/
def exactSolution (e : OdeEquation) (x c : α) : α :=
  match e with
  | quadraticSource | cubicSource => e.particular x + c * exp (-2.0 * x)
  | cosineGrowth => c * exp (sin x)

/-- A registered equation as an equation to solve.  Its constant is known only
where it is finite. -/
def function (e : OdeEquation) : OdeFunction α where
  rhs := e.rhs
  name := e.display
  integrationConstant x0 y0 :=
    let c := e.integrationConstant x0 y0
    if isFinite c then some c else none
  exactSolution x c := some (e.exactSolution x c)
  exactFormula := some e.solutionFormula

end OdeEquation
end Registry
end NumericalMethods
