import NumericalMethods.Iteration
import NumericalMethods.SolveResult
import NumericalMethods.LinearSystem.Basic
import NumericalMethods.LinearSystem.Elimination

/-!
# Simultaneous iteration for linear systems

The rows are ordered towards diagonal dominance if they can be, and
`x ↦ C x + d` is iterated from zero until no unknown moves by more than the
tolerance.  Whether a matrix is singular is judged by its determinant relative
to the product of its row norms, which bounds it.
-/

namespace NumericalMethods

/-- The solution of a linear system. -/
structure LinearSolveResult (α : Type) where
  solution : List α
  /-- How far each unknown moved in the last sweep. -/
  errors : List α
  iterations : Nat
  determinant : α
  /-- The row each given row was moved to. -/
  permutation : List Nat
  /-- The coefficients in the order of the iteration. -/
  matrix : List (List α)
  rhs : List α
  cMatrix : List (List α)
  steps : List (Step α)
  /-- Conditions a caller should know of. -/
  warnings : List (Warning α)
  deriving Repr, DecidableEq

namespace LinearSolveResult

variable {α : Type}

def converged (r : LinearSolveResult α) : Bool :=
  !Warning.occurs r.warnings .iterationLimitExceeded

/-- Whether a warning of a kind was attached. -/
def hasWarning (r : LinearSolveResult α) (kind : ErrorKind) : Bool :=
  Warning.occurs r.warnings kind

end LinearSolveResult

namespace Jacobi

variable {α : Type} [Scalar α] {n : Nat}

/-- The limits an iteration observes. -/
structure Settings (α : Type) where
  maxIterations : Nat
  /-- The least usable determinant relative to the product of the row norms. -/
  determinantFloor : α
  divisorFloor : α
  divergenceBound : α
  deriving Repr, DecidableEq

/-- A system in the order of its iteration. -/
structure Arrangement (α : Type) (n : Nat) where
  /-- The row each given row was moved to. -/
  permutation : List (Fin n)
  system : LinearSystem α n
  /-- What became of the attempt. -/
  warnings : List (Warning α)

/-- Orders the rows towards diagonal dominance if they are not so already. -/
def arrange (s : LinearSystem α n) : Arrangement α n :=
  if s.isDominant then ⟨List.finRange n, s, []⟩
  else
    match s.dominantPermutation with
    | some target => ⟨target, s.permuted target, []⟩
    | none => ⟨List.finRange n, s, [.diagonalDominanceNotReached]⟩

/-- The unknowns, and how far each moved. -/
structure State (α : Type) (n : Nat) where
  x : Vector α n
  /-- How far each moved. -/
  errors : Vector α n

def maxError (errors : Vector α n) : α :=
  match errors.toList with
  | [] => 0
  | first :: rest => Scalar.maximum first rest

/-- Whether an unknown is finite and within the bound. -/
def inBound (settings : Settings α) (v : α) : Bool :=
  Scalar.isFinite v && !decide (settings.divergenceBound < Scalar.abs v)

/-- One sweep with an iteration matrix and an offset. -/
def sweep (settings : Settings α) (c : Grid α n n) (d : Vector α n)
    (tolerance : α) (s : State α n) :
    Round (Breakdown α) (SweepStep α) (State α n) :=
  let next := Vector.zipWith (· + ·) (c.apply s.x) d
  let errors := (Vector.zipWith (· - ·) next s.x).map Scalar.abs
  if next.toList.all (inBound settings) then
    let largest := maxError errors
    let entry : SweepStep α := { x := next.toList, maxError := largest }
    if largest ≤ tolerance then
      .last entry ⟨next, errors⟩
    else .step entry ⟨next, errors⟩
  else .fail (.leftBound settings.divergenceBound)

/-- The first row whose diagonal coefficient is too small to divide by. -/
def smallPivot? (settings : Settings α) (s : LinearSystem α n) :
    Option (Fin n) :=
  (List.finRange n).find? fun i =>
    !decide (settings.divisorFloor ≤ Scalar.abs (s.entry i i))

/-- Whether the determinant is negligible beside the product of the row
norms. -/
def isSingular (settings : Settings α) (s : LinearSystem α n)
    (determinant : α) : Bool :=
  let bound := Scalar.product s.matrix.rowNorms
  !decide (settings.determinantFloor * bound < Scalar.abs determinant)

/-- The result of a run over an arranged system. -/
def result (settings : Settings α) (determinant : α) (a : Arrangement α n)
    (run : Run (SweepStep α) (State α n)) : LinearSolveResult α where
  solution := run.state.x.toList
  errors := run.state.errors.toList
  iterations := run.entries.length
  determinant := determinant
  permutation := a.permutation.map Fin.val
  matrix := a.system.matrix.toLists
  rhs := a.system.rhs.toList
  cMatrix := a.system.iterationMatrix.toLists
  steps := Step.number (run.entries.map .sweep)
  warnings := a.warnings ++
    if run.settled then [] else [.iterationLimitExceeded settings.maxIterations]

/-- Solves a linear system. -/
def solve (settings : Settings α) (s : LinearSystem α n) (tolerance : α) :
    Except (EngineError α) (LinearSolveResult α) :=
  if !Scalar.isPositiveFinite tolerance then
    .error (.invalidParameter (.tolerance tolerance))
  else
    let determinant := Elimination.determinant s.matrix.toLists
    if isSingular settings s determinant then
      .error (.singularMatrix determinant)
    else
      let a := arrange s
      match smallPivot? settings a.system with
      | some i =>
        .error (.ofSteps (.diagonalVanished (i + 1) (a.system.entry i i)) [])
      | none =>
        let c := a.system.iterationMatrix
        let d := Vector.ofFn fun i => a.system.rhs.get i / a.system.entry i i
        let start : State α n :=
          ⟨Vector.ofFn fun _ => 0, Vector.ofFn fun _ => Scalar.infinity⟩
        match iterate (sweep settings c d tolerance)
            settings.maxIterations start with
        | .ok run => .ok (result settings determinant a run)
        | .error (cause, made) => .error (.ofSteps cause (made.map .sweep))

end Jacobi
end NumericalMethods
