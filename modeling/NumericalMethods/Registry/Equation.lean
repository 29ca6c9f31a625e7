import NumericalMethods.Function
import NumericalMethods.Registry.Lookup

/-!
# Registered equations

Functions of one variable whose roots can be asked for by number, with their
first and second derivatives.
-/

namespace NumericalMethods
namespace Registry

inductive Equation where
  | cubic
  /-- A cubic polynomial with one real root. -/
  | shiftedCubic
  /-- The exponential function, lowered. -/
  | exponential
  /-- A sine, raised. -/
  | sine
  deriving Repr, DecidableEq

namespace Equation

def registry : String :=
  "equation"

/-- All equations in the order of their numbers. -/
def all : List Equation :=
  [cubic, shiftedCubic, exponential, sine]

def id : Equation → Nat
  | cubic => 0
  | shiftedCubic => 1
  | exponential => 2
  | sine => 3

def name : Equation → String
  | cubic => "Cubic"
  | shiftedCubic => "ShiftedCubic"
  | exponential => "Exponential"
  | sine => "Sine"

def display : Equation → String
  | cubic => "1.62x^3 - 8.15x^2 + 4.39x + 4.29"
  | shiftedCubic => "x^3 - x + 4"
  | exponential => "e^x - 5"
  | sine => "\\sin(2x) + \\frac\x7b\\pi\x7d\x7b4\x7d"

/-- The equation with a number, or an error. -/
def lookup {α : Type} (n : Nat) : Except (EngineError α) Equation :=
  find registry all n

variable {α : Type} [Elementary α]

open Scalar Elementary

def evaluate (e : Equation) (x : α) : α :=
  match e with
  | cubic => 1.62 * power x 3 - 8.15 * power x 2 + 4.39 * x + 4.29
  | shiftedCubic => power x 3 - x + 4.0
  | exponential => exp x - 5.0
  | sine => sin (2.0 * x) + pi / 4.0

def derivative (e : Equation) (x : α) : α :=
  match e with
  | cubic => 4.86 * power x 2 - 16.3 * x + 4.39
  | shiftedCubic => 3.0 * power x 2 - 1.0
  | exponential => exp x
  | sine => 2.0 * cos (2.0 * x)

def secondDerivative (e : Equation) (x : α) : α :=
  match e with
  | cubic => 9.72 * x - 16.3
  | shiftedCubic => 6.0 * x
  | exponential => exp x
  | sine => -4.0 * sin (2.0 * x)

/-- An equation as a function to solve. -/
def function (e : Equation) : ScalarFunction α where
  evaluate := e.evaluate
  derivative x := some (e.derivative x)
  secondDerivative x := some (e.secondDerivative x)
  name := e.display

end Equation
end Registry
end NumericalMethods
