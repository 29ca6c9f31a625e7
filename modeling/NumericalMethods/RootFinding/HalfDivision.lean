import NumericalMethods.Iteration
import NumericalMethods.RootFinding.Basic

/-!
# Half-division

A bracket with a strict change of sign is halved until it is narrower than the
tolerance.  The half that keeps the change of sign is kept; the values at the
ends are carried along with them.  A midpoint that is a root ends the search at
once.
-/

namespace NumericalMethods
namespace RootFinding

variable {α : Type} [Scalar α]

/-- An interval with the function at its ends. -/
structure Bracket (α : Type) where
  a : α
  b : α
  fa : α
  fb : α
  deriving Repr, DecidableEq

namespace Bracket

def width (s : Bracket α) : α :=
  Scalar.abs (s.b - s.a)

def middle (s : Bracket α) : α :=
  (s.a + s.b) / 2.0

end Bracket

/-- One halving, if the bracket is still as wide as the tolerance. -/
@[specialize] def halve (f : α → α) (tolerance : α) (s : Bracket α) :
    Round Empty (HalfDivisionStep α) (Bracket α) :=
  if tolerance ≤ s.width then
    let x := s.middle
    let fx := f x
    let entry : HalfDivisionStep α :=
      { a := s.a, b := s.b, x := x, fa := s.fa, fb := s.fb, fx := fx
        absDiff := Scalar.abs (s.a - s.b) }
    if fx == 0 then .last entry { s with a := x, b := x }
    else if Scalar.sameSign fx s.fa then .step entry { s with a := x, fa := fx }
    else .step entry { s with b := x, fb := fx }
  else .halt

/-- The result of a search that ended with a bracket. -/
def halfDivisionResult (settings : RootSettings α) (f : ScalarFunction α)
    (tolerance : α) (run : Run (HalfDivisionStep α) (Bracket α)) :
    SolveResult α :=
  let width := run.state.width
  result .halfDivision f run.state.middle width (run.entries.map .halfDivision)
    (capWarning settings (!decide (tolerance ≤ width)))

/-- Half-division of a bracket, whose ends may be given in either order. -/
@[specialize] def halfDivision (settings : RootSettings α)
    (f : ScalarFunction α) (a b tolerance : α) :
    Except (EngineError α) (SolveResult α) :=
  let (a, b) := if b < a then (b, a) else (a, b)
  let fa := f.evaluate a
  let fb := f.evaluate b
  if fa * fb < 0 then
    match iterate (halve f.evaluate tolerance) settings.maxIterations
        ⟨a, b, fa, fb⟩ with
    | .ok run => .ok (halfDivisionResult settings f tolerance run)
    | .error (cause, _) => nomatch cause
  else .error (.invalidBracket a b fa fb)

end RootFinding
end NumericalMethods
