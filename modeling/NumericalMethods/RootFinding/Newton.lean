import NumericalMethods.Iteration
import NumericalMethods.RootFinding.Basic

/-!
# Newton's method

Each step follows the tangent to its zero.  Inside a bracket the search starts
at an end where the function and its second derivative have equal signs, or else
in the middle.
-/

namespace NumericalMethods
namespace RootFinding

variable {α : Type} [Scalar α]

/-- Whether the function and its second derivative have equal signs at a
point. -/
def curvesAway (f : ScalarFunction α) (x : α) : Bool :=
  match f.secondDerivative x with
  | some d => decide (0 < f.evaluate x * d)
  | none => false

/-- The starting point inside a bracket. -/
def tangentStart (f : ScalarFunction α) : RootStart α → α
  | .bracket a b =>
    if curvesAway f a then a else if curvesAway f b then b else (a + b) / 2.0
  | .estimate x => x

/-- One step along the tangent. -/
@[specialize] def followTangent (settings : RootSettings α)
    (f : ScalarFunction α) (tolerance : α) (s : Iterate α) :
    Round (Breakdown α) (NewtonStep α) (Iterate α) :=
  let fx := f.evaluate s.x
  match f.derivative s.x with
  | none => .fail (.slopeUndefined s.x)
  | some slope =>
    if settings.derivativeFloor ≤ Scalar.abs slope then
      let next := s.x - fx / slope
      if inBound settings next then
        let moved := Scalar.abs (next - s.x)
        let entry : NewtonStep α :=
          { x := s.x, fx := fx, slope := slope, next := next, absDiff := moved }
        if moved < tolerance then
          .last entry ⟨next, moved⟩
        else .step entry ⟨next, moved⟩
      else .fail (.leftBound settings.divergenceBound)
    else .fail (.slopeVanished s.x slope)

@[specialize] def newton (settings : RootSettings α) (f : ScalarFunction α)
    (start : RootStart α) (tolerance : α) :
    Except (EngineError α) (SolveResult α) :=
  let x := tangentStart f start
  if (f.derivative x).isNone then
    .error (.invalidParameter (.derivativeNeededAt f.name x))
  else
    match iterate (followTangent settings f tolerance) settings.maxIterations
        ⟨x, Scalar.infinity⟩ with
    | .ok run =>
      .ok (result .newton f run.state.x run.state.moved
        (run.entries.map .newton)
        (capWarning settings run.settled))
    | .error (cause, made) => .error (.ofSteps cause (made.map .newton))

end RootFinding
end NumericalMethods
