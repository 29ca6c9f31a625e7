import NumericalMethods.Error
import NumericalMethods.Function
import NumericalMethods.Iteration

/-!
# Initial value problems

A problem asks for the solution of `y' = f(x, y)` through a point, on an
interval to the right of it, at equal steps.  The grid holds the whole steps
that fit into the interval, up to a billionth of a step; its nodes are computed
from the start and not from each other, so all methods share them.
-/

namespace NumericalMethods

/-- A method for initial value problems. -/
inductive OdeMethod where
  /-- Steps along the slope at their start. -/
  | euler
  /-- Steps along the slope at their middle. -/
  | extendedEuler
  /-- A prediction from four points, corrected until it settles. -/
  | milne
  deriving Repr, DecidableEq

namespace OdeMethod

/-- All methods in the order of their numbers. -/
def all : List OdeMethod :=
  [euler, extendedEuler, milne]

def id : OdeMethod → Nat
  | euler => 0
  | extendedEuler => 1
  | milne => 2

def ofId? (n : Nat) : Option OdeMethod :=
  all[n]?

def name : OdeMethod → String
  | euler => "Euler"
  | extendedEuler => "ExtendedEuler"
  | milne => "Milne"

/-- The method with a number, or an error. -/
def lookup {α : Type} (n : Nat) : Except (EngineError α) OdeMethod :=
  match ofId? n with
  | some method => .ok method
  | none => .error (.unknownMethodId "ode" n)

def order : OdeMethod → Nat
  | euler => 1
  | extendedEuler => 2
  | milne => 4

end OdeMethod

/-- An initial value problem, but for its right-hand side. -/
structure InitialValueProblem (α : Type) where
  x0 : α
  y0 : α
  /-- The end of the interval. -/
  xn : α
  step : α
  tolerance : α
  deriving Repr, DecidableEq

namespace InitialValue

variable {α : Type} [Scalar α]

/-- The number of whole steps in an interval. -/
def gridSize (x0 xn h : α) : Nat :=
  Scalar.whole ((xn - x0) / h + 1e-9)

def node (x0 h : α) (i : Nat) : α :=
  x0 + Scalar.ofNat i * h

end InitialValue

/-- Whether a problem can be solved as it stands. -/
def InitialValueProblem.validate {α : Type} [Scalar α]
    (p : InitialValueProblem α) :
    Except (EngineError α) Unit := do
  if !(Scalar.isFinite p.x0 && Scalar.isFinite p.y0 &&
      Scalar.isFinite p.xn) then
    throw (.invalidParameter .initialValueNotFinite)
  if !Scalar.isPositiveFinite p.step then
    throw (.invalidParameter (.stepNotPositive p.step))
  if !Scalar.isPositiveFinite p.tolerance then
    throw (.invalidParameter (.tolerance p.tolerance))
  if p.xn ≤ p.x0 then
    throw (.invalidParameter (.emptyInterval p.x0 p.xn))
  if InitialValue.gridSize p.x0 p.xn p.step = 0 then
    throw (.invalidParameter (.stepTooLarge p.step p.x0 p.xn))

namespace InitialValue

variable {α : Type}

/-- The points of a solution that starts at a point, from the run that computed
the others.  A run that broke down leaves the points it had reached. -/
def collect {σ : Type} (start : α × α) :
    Except (Breakdown α × List (α × α)) (Run (α × α) σ) →
      Except (EngineError α) (List (α × α))
  | .ok run => .ok (start :: run.entries)
  | .error (cause, made) => .error (.breakdown cause (.points (start :: made)))

end InitialValue
end NumericalMethods
