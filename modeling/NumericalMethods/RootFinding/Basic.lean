import NumericalMethods.SolveResult
import NumericalMethods.Function

/-!
# Root finding: methods, starts and settings

What the four root finders have in common: how they are numbered, where a
search starts, which limits it observes, and what its result looks like.
-/

namespace NumericalMethods

/-- A method for one equation in one unknown. -/
inductive RootMethod where
  | halfDivision
  /-- Iteration towards a fixed point. -/
  | simpleIteration
  /-- Steps along tangents. -/
  | newton
  /-- Steps along chords. -/
  | secant
  deriving Repr, DecidableEq

namespace RootMethod

/-- All methods in the order of their numbers. -/
def all : List RootMethod :=
  [halfDivision, simpleIteration, newton, secant]

def id : RootMethod → Nat
  | halfDivision => 0
  | simpleIteration => 1
  | newton => 2
  | secant => 3

def ofId? (n : Nat) : Option RootMethod :=
  all[n]?

def name : RootMethod → String
  | halfDivision => "HalfDivision"
  | simpleIteration => "SimpleIteration"
  | newton => "Newton"
  | secant => "Secant"

/-- The method with a number, or an error. -/
def lookup {α : Type} (n : Nat) : Except (EngineError α) RootMethod :=
  match ofId? n with
  | some method => .ok method
  | none => .error (.unknownMethodId "root finder" n)

end RootMethod

/-- Where a search starts. -/
inductive RootStart (α : Type) where
  | bracket (a b : α)
  | estimate (x : α)
  deriving Repr, DecidableEq

/-- Whether a start has finite coordinates. -/
def RootStart.isFinite {α : Type} [Scalar α] : RootStart α → Bool
  | bracket a b => Scalar.isFinite a && Scalar.isFinite b
  | estimate x => Scalar.isFinite x

/-- The limits a search observes. -/
structure RootSettings (α : Type) where
  maxIterations : Nat
  derivativeFloor : α
  divisorFloor : α
  divergenceBound : α
  deriving Repr, DecidableEq

namespace RootFinding

variable {α : Type}

/-- Whether an iterate is finite and within the bound. -/
def inBound [Scalar α] (settings : RootSettings α) (x : α) : Bool :=
  Scalar.isFinite x && !decide (settings.divergenceBound < Scalar.abs x)

/-- The result of a search that ended at `root`. -/
def result (method : RootMethod) (f : ScalarFunction α) (root errorValue : α)
    (steps : List (StepData α)) (warnings : List (Warning α)) :
    SolveResult α where
  methodId := method.id
  functionId := none
  value := root
  functionValue := some (f.evaluate root)
  iterations := steps.length
  errorValue := errorValue
  steps := Step.number steps
  warnings := warnings
  exactValue := none

/-- The warning of a search that did not settle. -/
def capWarning (settings : RootSettings α) (settled : Bool) :
    List (Warning α) :=
  if settled then [] else [.iterationLimitExceeded settings.maxIterations]

/-- An iterate, and the distance of the step that led to it. -/
structure Iterate (α : Type) where
  x : α
  moved : α
  deriving Repr, DecidableEq

end RootFinding
end NumericalMethods
