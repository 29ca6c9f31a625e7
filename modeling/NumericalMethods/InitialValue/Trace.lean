import NumericalMethods.InitialValue.Milne
import NumericalMethods.SolveResult

/-!
# One method over the whole interval

A solution is computed twice, with a step and with half of it.  Their difference
at the last common node estimates the error of the finer one.  A one-step method
can be told to halve its step until that estimate meets the tolerance.
-/

namespace NumericalMethods

/-- The points one method computed. -/
structure OdeTrace (α : Type) where
  method : OdeMethod
  step : α
  points : List (α × α)
  displayEquation : String
  rungeError : α
  /-- The largest distance from the exact solution, where that is known. -/
  maxAbsError : Option α
  warnings : List (Warning α)
  deriving Repr, DecidableEq

namespace OdeTrace

variable {α : Type}

def last? (t : OdeTrace α) : Option (α × α) :=
  t.points.getLast?

def converged (t : OdeTrace α) : Bool :=
  !(Warning.occurs t.warnings .stepToleranceNotMet ||
    Warning.occurs t.warnings .stepRefinementExhausted)

end OdeTrace

namespace InitialValue

variable {α : Type} [Scalar α]

/-- The limits a solution observes. -/
structure Settings where
  maxCorrectorIterations : Nat
  refineStep : Bool
  maxStepHalvings : Nat
  deriving Repr, DecidableEq

/-- The points of a method at `n` steps from a starting point.  The list of
points is reserved before the first one is computed.  Where `n` is the largest
count, the number of points is no machine word, and arithmetic on counts is
checked, so the computation ends there as it does for all other lists that are
too large. -/
@[specialize] def solutionPoints (settings : Settings) (method : OdeMethod)
    (f : OdeFunction α) (x0 y0 h : α) (n : Nat) (tolerance : α) :
    Except (Failure α) (List (α × α)) := do
  reserve (n + 1) 16
  liftError <| match method with
    | .euler => eulerPoints f x0 y0 h n
    | .extendedEuler => extendedEulerPoints f x0 y0 h n
    | .milne =>
      milnePoints f settings.maxCorrectorIterations x0 y0 h n tolerance

/-- The points of a method at the nodes of a problem, with a step of its own. -/
@[specialize] def run (settings : Settings) (method : OdeMethod)
    (f : OdeFunction α) (p : InitialValueProblem α) (h : α) :
    Except (Failure α) (List (α × α)) :=
  solutionPoints settings method f p.x0 p.y0 h
    (gridSize p.x0 p.xn h) p.tolerance

/-- The estimated error of a solution, from points at steps of which the second
one is half of the first. -/
def rungeError (method : OdeMethod) (coarse fine : List (α × α)) : α :=
  let coarseEnd := (coarse.getLast?.map Prod.snd).getD Scalar.undefined
  let fineEnd :=
    (fine[2 * (coarse.length - 1)]?.map Prod.snd).getD Scalar.undefined
  Scalar.abs (coarseEnd - fineEnd) / Scalar.rungeDivisor method.order

/-- A step with its points and their estimated error. -/
structure Refinement (α : Type) where
  step : α
  points : List (α × α)
  rungeError : α
  deriving Repr, DecidableEq

/-- Halves a step until the estimated error meets the tolerance, at most `left`
times.  `points` belong to the step and `fine` to half of it. -/
def refine (points : α → Except (Failure α) (List (α × α)))
    (estimate : List (α × α) → List (α × α) → α) (tolerance : α) :
    (left : Nat) → (h : α) → (coarse fine : List (α × α)) →
      Except (Failure α) (Refinement α)
  | 0, h, coarse, fine => .ok ⟨h, coarse, estimate coarse fine⟩
  | left + 1, h, coarse, fine =>
    let error := estimate coarse fine
    if error ≤ tolerance then .ok ⟨h, coarse, error⟩
    else
      match points (h / 2.0 / 2.0) with
      | .ok finer => refine points estimate tolerance left (h / 2.0) fine finer
      | .error failure => .error failure

/-- Whether a method is to halve its step. -/
def refines (settings : Settings) (method : OdeMethod) : Bool :=
  settings.refineStep && method != .milne

/-- What to say of an estimated error. -/
def toleranceWarning (settings : Settings) (method : OdeMethod)
    (error tolerance : α) :
    List (Warning α) :=
  if error ≤ tolerance then []
  else if refines settings method then
    [.stepRefinementExhausted settings.maxStepHalvings]
  else [.stepToleranceNotMet error tolerance]

/-- The largest distance of points from a solution, if it is known at all
of them. -/
def maxAbsError (exact : α → Option α) (points : List (α × α)) : Option α :=
  points.foldlM
    (fun largest (x, y) => (exact x).map fun e =>
      Scalar.larger largest (Scalar.abs (e - y)))
    0

/-- Solves a problem by one method. -/
@[specialize] def trace (settings : Settings) (method : OdeMethod)
    (f : OdeFunction α) (p : InitialValueProblem α) :
    Except (Failure α) (OdeTrace α) := do
  let points := run settings method f p
  let coarse ← points p.step
  let fine ← points (p.step / 2.0)
  let halvings :=
    if refines settings method then settings.maxStepHalvings else 0
  let found ← refine points (rungeError method) p.tolerance halvings
    p.step coarse fine
  return {
    method := method
    step := found.step
    points := found.points
    displayEquation := f.name
    rungeError := found.rungeError
    maxAbsError := (f.integrationConstant p.x0 p.y0).bind fun c =>
      maxAbsError (fun x => f.exactSolution x c) found.points
    warnings := toleranceWarning settings method found.rungeError p.tolerance }

end InitialValue
end NumericalMethods
