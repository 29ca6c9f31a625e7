import NumericalMethods.Function
import NumericalMethods.Registry.Lookup

/-!
# Registered functions to sample

Functions whose values at equally spaced nodes can be asked for by number, as
data for interpolation.
-/

namespace NumericalMethods
namespace Registry

inductive Sample where
  | sine
  | cosine
  | tangent
  deriving Repr, DecidableEq

namespace Sample

def registry : String :=
  "sample function"

/-- All functions in the order of their numbers. -/
def all : List Sample :=
  [sine, cosine, tangent]

def id : Sample → Nat
  | sine => 0
  | cosine => 1
  | tangent => 2

def name : Sample → String
  | sine => "Sin"
  | cosine => "Cos"
  | tangent => "Tan"

def display : Sample → String
  | sine => "\\sin(x)"
  | cosine => "\\cos(x)"
  | tangent => "\\tan(x)"

/-- The function with a number, or an error. -/
def lookup {α : Type} (n : Nat) : Except (EngineError α) Sample :=
  find registry all n

variable {α : Type} [Elementary α]

open Scalar Elementary

def evaluate (f : Sample) (x : α) : α :=
  match f with
  | sine => sin x
  | cosine => cos x
  | tangent => tan x

def derivative (f : Sample) (x : α) : α :=
  match f with
  | sine => cos x
  | cosine => -sin x
  | tangent => 1.0 / power (cos x) 2

def function (f : Sample) : ScalarFunction α where
  evaluate := f.evaluate
  derivative x := some (f.derivative x)
  name := f.display

end Sample
end Registry
end NumericalMethods
