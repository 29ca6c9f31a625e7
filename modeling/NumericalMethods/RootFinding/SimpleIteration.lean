import NumericalMethods.Iteration
import NumericalMethods.RootFinding.Basic

/-!
# Simple iteration

The equation `f(x) = 0` is turned into `x = x + λ f(x)`, with `λ` the negative
reciprocal of the derivative at the start.  A bracket starts at the end with the
steeper derivative.  A warning is attached when the iteration function is not
seen to contract at the ends of the start.
-/

namespace NumericalMethods
namespace RootFinding

variable {α : Type} [Scalar α]

/-- Where an iteration starts: its first point with the derivative there, and
the derivatives at all ends of the start. -/
structure SlopedStart (α : Type) where
  x : α
  slope : α
  /-- The derivatives at the ends. -/
  slopes : List α
  deriving Repr, DecidableEq

/-- The derivative at a point, or the error that it is missing. -/
def slopeAt (f : ScalarFunction α) (x : α) : Except (EngineError α) α :=
  match f.derivative x with
  | some d => .ok d
  | none => .error (.invalidParameter (.derivativeNeeded f.name))

/-- The end with the steeper derivative, the first one on a tie. -/
def slopedStart (f : ScalarFunction α) :
    RootStart α → Except (EngineError α) (SlopedStart α)
  | .bracket a b => do
    let da ← slopeAt f a
    let db ← slopeAt f b
    if Scalar.abs db ≤ Scalar.abs da then return ⟨a, da, [da, db]⟩
    else return ⟨b, db, [da, db]⟩
  | .estimate x => do
    let d ← slopeAt f x
    return ⟨x, d, [d]⟩

/-- The largest slope of the iteration function at the ends of a start. -/
def contraction (lambda : α) (slopes : List α) : α :=
  slopes.foldl (fun q d => Scalar.larger q (Scalar.abs (1 + lambda * d))) 0

/-- One application of the iteration function. -/
@[specialize] def applyOnce (settings : RootSettings α) (f : α → α)
    (lambda tolerance : α) (s : Iterate α) :
    Round (Breakdown α) (SimpleIterationStep α) (Iterate α) :=
  let next := s.x + lambda * f s.x
  let moved := Scalar.abs (next - s.x)
  if inBound settings next then
    let entry : SimpleIterationStep α :=
      { x := s.x, next := next, phi := next, fNext := f next, absDiff := moved }
    if moved < tolerance then
      .last entry ⟨next, moved⟩
    else .step entry ⟨next, moved⟩
  else .fail (.leftBound settings.divergenceBound)

@[specialize] def simpleIteration (settings : RootSettings α)
    (f : ScalarFunction α) (start : RootStart α) (tolerance : α) :
    Except (EngineError α) (SolveResult α) := do
  let s ← slopedStart f start
  if Scalar.abs s.slope < settings.derivativeFloor then
    throw (.ofSteps (.slopeTooSmall s.x s.slope) [])
  let lambda := -1 / s.slope
  let q := contraction lambda s.slopes
  let warnings := if 1 ≤ q then [Warning.contractionNotGuaranteed q] else []
  match iterate (applyOnce settings f.evaluate lambda tolerance)
      settings.maxIterations
      ⟨s.x, Scalar.infinity⟩ with
  | .ok run =>
    return result .simpleIteration f run.state.x run.state.moved
      (run.entries.map .simpleIteration)
        (warnings ++ capWarning settings run.settled)
  | .error (cause, made) => throw (.ofSteps cause (made.map .simpleIteration))

end RootFinding
end NumericalMethods
