import NumericalMethods.Function
import NumericalMethods.Registry.Lookup

/-!
# Registered integrands

Functions whose integrals can be asked for by number, with a derivative and an
antiderivative.  Two of them are unbounded at zero; one is defined to the right
of it only.
-/

namespace NumericalMethods
namespace Registry

inductive Integrand where
  | polynomial
  | sine
  /-- The variable itself. -/
  | linear
  /-- An odd function with two horizontal asymptotes. -/
  | scaledLogistic
  | hyperbola
  | sqrtHyperbola
  deriving Repr, DecidableEq

namespace Integrand

def registry : String :=
  "integrand"

/-- All integrands in the order of their numbers. -/
def all : List Integrand :=
  [polynomial, sine, linear, scaledLogistic, hyperbola, sqrtHyperbola]

def id : Integrand → Nat
  | polynomial => 0
  | sine => 1
  | linear => 2
  | scaledLogistic => 3
  | hyperbola => 4
  | sqrtHyperbola => 5

def name : Integrand → String
  | polynomial => "Polynomial"
  | sine => "Sine"
  | linear => "Linear"
  | scaledLogistic => "ScaledLogistic"
  | hyperbola => "Hyperbola"
  | sqrtHyperbola => "SqrtHyperbola"

def display : Integrand → String
  | polynomial => "x^3 - 3x^2 + 7x - 10"
  | sine => "\\sin(x)"
  | linear => "x"
  | scaledLogistic => "\\frac\x7bx\x7d\x7b\\sqrt\x7b1 + x^2\x7d\x7d"
  | hyperbola => "\\frac\x7b1\x7d\x7bx\x7d"
  | sqrtHyperbola => "\\frac\x7b1\x7d\x7b\\sqrt\x7bx\x7d\x7d"

/-- The integrand with a number, or an error. -/
def lookup {α : Type} (n : Nat) : Except (EngineError α) Integrand :=
  find registry all n

variable {α : Type} [Elementary α]

open Scalar Elementary

def evaluate (f : Integrand) (x : α) : α :=
  match f with
  | polynomial => power x 3 - 3.0 * power x 2 + 7.0 * x - 10.0
  | sine => sin x
  | linear => x
  | scaledLogistic => x / sqrt (1.0 + x * x)
  | hyperbola => 1.0 / x
  | sqrtHyperbola => 1.0 / sqrt x

def derivative (f : Integrand) (x : α) : α :=
  match f with
  | polynomial => 3.0 * power x 2 - 6.0 * x + 7.0
  | sine => cos x
  | linear => 1.0
  | scaledLogistic => pow (1.0 + x * x) (-1.5)
  | hyperbola => -1.0 / (x * x)
  | sqrtHyperbola => -0.5 * pow x (-1.5)

def antiderivative (f : Integrand) (x : α) : α :=
  match f with
  | polynomial => 0.25 * power x 4 - power x 3 + 3.5 * power x 2 - 10.0 * x
  | sine => -cos x
  | linear => 0.5 * x * x
  | scaledLogistic => sqrt (1.0 + x * x)
  | hyperbola => ln (abs x)
  | sqrtHyperbola => 2.0 * sqrt x

/-- The points at which an integrand is unbounded. -/
def singularPoints (f : Integrand) : List α :=
  match f with
  | hyperbola | sqrtHyperbola => [0.0]
  | _ => []

def function (f : Integrand) : Integrable α where
  evaluate := f.evaluate
  derivative x := some (f.derivative x)
  name := f.display
  antiderivative x := some (f.antiderivative x)
  lowerEnd := if f = sqrtHyperbola then some 0.0 else none
  singularPoints := f.singularPoints

end Integrand
end Registry
end NumericalMethods
