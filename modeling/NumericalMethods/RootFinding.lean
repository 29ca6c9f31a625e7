import NumericalMethods.RootFinding.HalfDivision
import NumericalMethods.RootFinding.SimpleIteration
import NumericalMethods.RootFinding.Newton
import NumericalMethods.RootFinding.Secant

/-!
# Root finding

A search by any of the four methods.  The tolerance and the start are checked
before the method is.
-/

namespace NumericalMethods
namespace RootFinding

variable {α : Type} [Scalar α]

/-- Runs a method without the checks of `solve`. -/
@[specialize] def run (settings : RootSettings α) (method : RootMethod)
    (f : ScalarFunction α) (start : RootStart α) (tolerance : α) :
    Except (EngineError α) (SolveResult α) :=
  match method, start with
  | .halfDivision, .bracket a b => halfDivision settings f a b tolerance
  | .halfDivision, .estimate _ => .error (.invalidParameter .bracketNeeded)
  | .simpleIteration, start => simpleIteration settings f start tolerance
  | .newton, start => newton settings f start tolerance
  | .secant, start => secant settings f start tolerance

/-- Searches for a root of a function. -/
@[specialize] def solve (settings : RootSettings α) (method : RootMethod)
    (f : ScalarFunction α) (start : RootStart α) (tolerance : α) :
    Except (EngineError α) (SolveResult α) :=
  if !Scalar.isPositiveFinite tolerance then
    .error (.invalidParameter (.tolerance tolerance))
  else if !start.isFinite then .error (.invalidParameter .startNotFinite)
  else run settings method f start tolerance

end RootFinding
end NumericalMethods
