import NumericalMethods.Iteration
import NumericalMethods.RootFinding.Basic

/-!
# The secant method

Each step follows the chord through the last two iterates to its zero.  A single
estimate is paired with a second point a hundredth of its magnitude away.
-/

namespace NumericalMethods
namespace RootFinding

variable {α : Type} [Scalar α]

/-- Two iterates with the function there, and the last distance moved. -/
structure Chord (α : Type) where
  previous : α
  x : α
  fPrevious : α
  fx : α
  moved : α
  deriving Repr, DecidableEq

/-- The two points a search starts from. -/
def chordEnds : RootStart α → α × α
  | .bracket a b => (a, b)
  | .estimate x => (x, x + 0.01 * Scalar.larger (Scalar.abs x) 1)

/-- One step along the chord. -/
@[specialize] def followChord (settings : RootSettings α) (f : α → α)
    (tolerance : α) (s : Chord α) :
    Round (Breakdown α) (SecantStep α) (Chord α) :=
  let difference := s.fx - s.fPrevious
  if settings.divisorFloor ≤ Scalar.abs difference then
    let next := s.x - s.fx * (s.x - s.previous) / difference
    if inBound settings next then
      let fNext := f next
      let moved := Scalar.abs (next - s.x)
      let entry : SecantStep α :=
        { previous := s.previous, x := s.x, next := next, fNext := fNext,
          absDiff := moved }
      let chord : Chord α := ⟨s.x, next, s.fx, fNext, moved⟩
      if moved < tolerance then .last entry chord else .step entry chord
    else .fail (.leftBound settings.divergenceBound)
  else .fail (.chordFlat s.x s.previous difference)

@[specialize] def secant (settings : RootSettings α) (f : ScalarFunction α)
    (start : RootStart α) (tolerance : α) :
    Except (EngineError α) (SolveResult α) :=
  let (previous, x) := chordEnds start
  let chord : Chord α :=
    ⟨previous, x, f.evaluate previous, f.evaluate x, Scalar.infinity⟩
  match iterate (followChord settings f.evaluate tolerance)
      settings.maxIterations chord with
  | .ok run =>
    .ok (result .secant f run.state.x run.state.moved (run.entries.map .secant)
      (capWarning settings run.settled))
  | .error (cause, made) => .error (.ofSteps cause (made.map .secant))

end RootFinding
end NumericalMethods
