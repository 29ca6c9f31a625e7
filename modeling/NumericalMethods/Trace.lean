/-!
# Traces

Every solver records what it did as a list of steps in chronological order.
Each method has its own kind of step; a `Step` numbers one of them.  Numbers
start at one and are given by position, so a trace has no gaps.
-/

namespace NumericalMethods

/-- One halving of a bracket. -/
structure HalfDivisionStep (α : Type) where
  a : α
  b : α
  x : α
  fa : α
  fb : α
  fx : α
  /-- The width of the bracket. -/
  absDiff : α
  deriving Repr, DecidableEq

/-- One application of the iteration function. -/
structure SimpleIterationStep (α : Type) where
  x : α
  next : α
  /-- The iteration function at the start. -/
  phi : α
  fNext : α
  /-- The distance moved. -/
  absDiff : α
  deriving Repr, DecidableEq

/-- One step along a tangent. -/
structure NewtonStep (α : Type) where
  x : α
  fx : α
  /-- The derivative there. -/
  slope : α
  next : α
  /-- The distance moved. -/
  absDiff : α
  deriving Repr, DecidableEq

/-- One step along a chord. -/
structure SecantStep (α : Type) where
  previous : α
  x : α
  next : α
  fNext : α
  /-- The distance moved. -/
  absDiff : α
  deriving Repr, DecidableEq

/-- One step of the method for two equations. -/
structure SystemStep (α : Type) where
  x : α
  y : α
  dx : α
  dy : α
  /-- The length of the change. -/
  updateNorm : α
  /-- The length of the pair of function values at the new point. -/
  residualNorm : α
  deriving Repr, DecidableEq

/-- One doubling of the number of subintervals. -/
structure QuadratureStep (α : Type) where
  subintervals : Nat
  value : α
  rungeError : α
  deriving Repr, DecidableEq

/-- One sweep over all equations of a linear system. -/
structure SweepStep (α : Type) where
  x : List α
  /-- The largest change of an unknown. -/
  maxError : α
  deriving Repr, DecidableEq

/-- What happened in one step of a solver. -/
inductive StepData (α : Type) where
  | halfDivision (data : HalfDivisionStep α)
  | simpleIteration (data : SimpleIterationStep α)
  | newton (data : NewtonStep α)
  | secant (data : SecantStep α)
  | system (data : SystemStep α)
  | quadrature (data : QuadratureStep α)
  | sweep (data : SweepStep α)
  deriving Repr, DecidableEq

structure Step (α : Type) where
  /-- Its position in the trace, from one on. -/
  iteration : Nat
  data : StepData α
  deriving Repr, DecidableEq

/-- The trace with the given steps, numbered by position. -/
def Step.number {α : Type} (steps : List (StepData α)) : List (Step α) :=
  steps.zipIdx.map fun (data, i) => ⟨i + 1, data⟩

/-- What had been computed when a solver broke down. -/
inductive PartialTrace (α : Type) where
  | steps (made : List (Step α))
  | points (reached : List (α × α))
  deriving Repr, DecidableEq

/-- The number of completed steps or points. -/
def PartialTrace.length {α : Type} : PartialTrace α → Nat
  | .steps made => made.length
  | .points reached => reached.length

/-- Whether nothing had been completed. -/
def PartialTrace.isEmpty {α : Type} (t : PartialTrace α) : Bool :=
  t.length == 0

end NumericalMethods
