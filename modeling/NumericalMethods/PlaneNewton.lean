import NumericalMethods.Iteration
import NumericalMethods.SolveResult
import NumericalMethods.Function

/-!
# Newton's method for two equations

A step solves the linearised system by the inverse of the two by two matrix of
partial derivatives.  The search ends when a step is shorter than the tolerance.
-/

namespace NumericalMethods

/-- The outcome of a search for a common root of two functions. -/
structure SystemSolveResult (α : Type) where
  functionId : Option Nat
  x : α
  y : α
  iterations : Nat
  /-- The length of the last step. -/
  errorValue : α
  /-- The length of the pair of function values at the point found. -/
  residualNorm : α
  steps : List (Step α)
  warnings : List (Warning α)
  deriving Repr, DecidableEq

namespace SystemSolveResult

variable {α : Type}

def converged (r : SystemSolveResult α) : Bool :=
  !Warning.occurs r.warnings .iterationLimitExceeded

def registered (r : SystemSolveResult α) (id : Nat) : SystemSolveResult α :=
  { r with functionId := some id }

end SystemSolveResult

namespace Matrix2

variable {α : Type} [Scalar α]

def determinant (m : Matrix2 α) : α :=
  m.a * m.d - m.c * m.b

/-- The adjugate over the determinant, unless that is zero. -/
def inverse? (m : Matrix2 α) : Option (Matrix2 α) :=
  let det := m.determinant
  if det == 0 then none else some ⟨m.d / det, -m.b / det, -m.c / det, m.a / det⟩

/-- The product with a column, the second term added to the first. -/
def apply (m : Matrix2 α) (v : α × α) : α × α :=
  (m.b * v.2 + m.a * v.1, m.d * v.2 + m.c * v.1)

end Matrix2

namespace PlaneNewton

variable {α : Type} [Scalar α]

/-- The limits a search observes. -/
structure Settings (α : Type) where
  maxIterations : Nat
  determinantFloor : α
  divergenceBound : α
  deriving Repr, DecidableEq

/-- A point, and the length of the step that led to it. -/
structure State (α : Type) where
  x : α
  y : α
  /-- The length of the step. -/
  moved : α
  deriving Repr, DecidableEq

/-- The length of a pair. -/
def pairNorm (v : α × α) : α :=
  Scalar.norm [v.1, v.2]

/-- Whether a coordinate is finite and within the bound. -/
def inBound (settings : Settings α) (v : α) : Bool :=
  Scalar.isFinite v && !decide (settings.divergenceBound < Scalar.abs v)

/-- One step of the linearised system. -/
def linearStep (settings : Settings α) (system : PlaneSystem α) (tolerance : α)
    (s : State α) : Round (Breakdown α) (SystemStep α) (State α) :=
  let jacobian := system.jacobian s.x s.y
  let determinant := jacobian.determinant
  if settings.determinantFloor ≤ Scalar.abs determinant then
    match jacobian.inverse? with
    | none => .fail (.jacobianNotInvertible s.x s.y)
    | some inverse =>
      let delta := inverse.apply (system.values s.x s.y)
      let x := s.x - delta.1
      let y := s.y - delta.2
      if inBound settings x && inBound settings y then
        let moved := pairNorm delta
        let entry : SystemStep α :=
          { x := x, y := y, dx := -delta.1, dy := -delta.2, updateNorm := moved
            residualNorm := pairNorm (system.values x y) }
        if moved < tolerance then
          .last entry ⟨x, y, moved⟩
        else .step entry ⟨x, y, moved⟩
      else .fail (.leftBound settings.divergenceBound)
  else .fail (.jacobianSingular determinant s.x s.y)

def result (settings : Settings α) (system : PlaneSystem α)
    (run : Run (SystemStep α) (State α)) : SystemSolveResult α where
  functionId := none
  x := run.state.x
  y := run.state.y
  iterations := run.entries.length
  errorValue := run.state.moved
  residualNorm := pairNorm (system.values run.state.x run.state.y)
  steps := Step.number (run.entries.map .system)
  warnings :=
    if run.settled then [] else [.iterationLimitExceeded settings.maxIterations]

/-- Searches for a common root from a guess. -/
def solve (settings : Settings α) (system : PlaneSystem α) (guess : α × α)
    (tolerance : α) : Except (EngineError α) (SystemSolveResult α) :=
  if !Scalar.isPositiveFinite tolerance then
    .error (.invalidParameter (.tolerance tolerance))
  else if !(Scalar.isFinite guess.1 && Scalar.isFinite guess.2) then
    .error (.invalidParameter .guessNotFinite)
  else
    match iterate (linearStep settings system tolerance) settings.maxIterations
        ⟨guess.1, guess.2, Scalar.infinity⟩ with
    | .ok run => .ok (result settings system run)
    | .error (cause, made) => .error (.ofSteps cause (made.map .system))

end PlaneNewton
end NumericalMethods
