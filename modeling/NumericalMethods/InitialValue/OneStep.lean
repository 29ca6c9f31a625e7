import NumericalMethods.InitialValue.Basic

/-!
# One-step methods

A one-step method computes the ordinate at the next node from the ordinate at
the last one.  `march` repeats such a step along the grid, and stops when an
ordinate is not finite.
-/

namespace NumericalMethods
namespace InitialValue

variable {α : Type} [Scalar α]

/-- A step along the slope at its start. -/
def eulerStep (f : α → α → α) (h x y : α) : α :=
  y + h * f x y

/-- A step along the slope at its middle. -/
def midpointStep (f : α → α → α) (h x y : α) : α :=
  let middle := y + h / 2.0 * f x y
  y + h * f (x + h / 2.0) middle

/-- A step along the weighted mean of four slopes. -/
def rungeKuttaStep (f : α → α → α) (h x y : α) : α :=
  let k1 := h * f x y
  let k2 := h * f (x + h / 2.0) (y + k1 / 2.0)
  let k3 := h * f (x + h / 2.0) (y + k2 / 2.0)
  let k4 := h * f (x + h) (y + k3)
  y + (k1 + 2.0 * k2 + 2.0 * k3 + k4) / 6.0

structure Position (α : Type) where
  index : Nat
  y : α
  deriving Repr, DecidableEq

/-- One step from node to node, with `step x y` the next ordinate. -/
@[specialize] def advance (method : OdeMethod) (step : α → α → α) (x0 h : α)
    (s : Position α) : Round (Breakdown α) (α × α) (Position α) :=
  let y := step (node x0 h s.index) s.y
  if Scalar.isFinite y then .step (node x0 h (s.index + 1), y) ⟨s.index + 1, y⟩
  else .fail (.solutionNotFinite method.name)

/-- The points of a solution at `n` steps from its start. -/
@[specialize] def march (method : OdeMethod) (step : α → α → α)
    (x0 y0 h : α) (n : Nat) :
    Except (EngineError α) (List (α × α)) :=
  collect (x0, y0) (iterate (advance method step x0 h) n ⟨0, y0⟩)

def eulerPoints (f : OdeFunction α) (x0 y0 h : α) (n : Nat) :
    Except (EngineError α) (List (α × α)) :=
  march .euler (eulerStep f.rhs h) x0 y0 h n

/-- The points of the extended method of Euler. -/
def extendedEulerPoints (f : OdeFunction α) (x0 y0 h : α) (n : Nat) :
    Except (EngineError α) (List (α × α)) :=
  march .extendedEuler (midpointStep f.rhs h) x0 y0 h n

end InitialValue
end NumericalMethods
