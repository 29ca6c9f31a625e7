import NumericalMethods.InitialValue
import NumericalMethods.LinearSystem.Jacobi
import NumericalMethods.LogLevel
import NumericalMethods.PlaneNewton
import NumericalMethods.Quadrature
import NumericalMethods.RootFinding

/-!
# Configuration

All limits the methods observe, in one record.  `standard` is the configuration
a caller gets without asking for anything else.  A configuration is usable when
its floors, its bound and its offset are positive and finite, its caps are
positive, and its names and ranges make sense; the first violation is reported.
-/

namespace NumericalMethods

/-- The limits all methods observe. -/
structure Config (α : Type) where
  maxIterations : Nat
  derivativeFloor : α
  divisorFloor : α
  determinantFloor : α
  divergenceBound : α
  /-- The number of subintervals a quadrature starts with. -/
  initialSubintervals : Nat
  maxSubintervals : Nat
  singularityOffset : α
  maxCorrectorIterations : Nat
  refineOdeStep : Bool
  maxStepHalvings : Nat
  /-- The correlation below which a fit is called weak. -/
  weakCorrelation : α
  logLevel : String
  /-- The file the log is written to. -/
  logFile : Option String
  deriving Repr, DecidableEq

namespace Config

variable {α : Type} [Scalar α]

/-- The configuration without any choice of a caller. -/
def standard : Config α where
  maxIterations := 100
  derivativeFloor := 1e-12
  divisorFloor := 1e-15
  determinantFloor := 1e-12
  divergenceBound := 1e12
  initialSubintervals := 4
  maxSubintervals := 1048576
  singularityOffset := 1e-9
  maxCorrectorIterations := 50
  refineOdeStep := false
  maxStepHalvings := 10
  weakCorrelation := 0.8
  logLevel := "info"
  logFile := none

/-- The settings that have to be positive and finite, by name. -/
def positives (c : Config α) : List (String × α) :=
  [("derivative_floor", c.derivativeFloor), ("divisor_floor", c.divisorFloor),
    ("determinant_floor", c.determinantFloor),
    ("divergence_bound", c.divergenceBound),
    ("singularity_offset", c.singularityOffset)]

/-- The caps that have to be positive, by name. -/
def caps (c : Config α) : List (String × Nat) :=
  [("max_iterations", c.maxIterations),
    ("initial_subintervals", c.initialSubintervals),
    ("max_corrector_iterations", c.maxCorrectorIterations)]

/-- Whether a configuration is usable. -/
def validate (c : Config α) : Except (EngineError α) Unit :=
  match c.positives.find? fun (_, value) => !Scalar.isPositiveFinite value with
  | some (name, value) =>
    .error (.invalidParameter (.settingNotPositive name value))
  | none =>
    match c.caps.find? fun (_, value) => value = 0 with
    | some (name, _) => .error (.invalidParameter (.capNotPositive name))
    | none =>
      if c.maxSubintervals < c.initialSubintervals then
        .error (.invalidParameter .subintervalsOutOfOrder)
      else if 0 ≤ c.weakCorrelation ∧ c.weakCorrelation ≤ 1 then
        (LogLevel.lookup c.logLevel).map fun _ => ()
      else .error (.invalidParameter .correlationBound)

def agrees (c d : Config α) : Bool :=
  c.maxIterations == d.maxIterations &&
    c.derivativeFloor == d.derivativeFloor &&
    c.divisorFloor == d.divisorFloor &&
    c.determinantFloor == d.determinantFloor &&
    c.divergenceBound == d.divergenceBound &&
    c.initialSubintervals == d.initialSubintervals &&
    c.maxSubintervals == d.maxSubintervals &&
    c.singularityOffset == d.singularityOffset &&
    c.maxCorrectorIterations == d.maxCorrectorIterations &&
    c.refineOdeStep == d.refineOdeStep &&
    c.maxStepHalvings == d.maxStepHalvings &&
    c.weakCorrelation == d.weakCorrelation && c.logLevel == d.logLevel &&
    c.logFile == d.logFile

/-- The limits of root finding. -/
def rootFinding (c : Config α) : RootSettings α where
  maxIterations := c.maxIterations
  derivativeFloor := c.derivativeFloor
  divisorFloor := c.divisorFloor
  divergenceBound := c.divergenceBound

/-- The limits of the method for two equations. -/
def planeNewton (c : Config α) : PlaneNewton.Settings α where
  maxIterations := c.maxIterations
  determinantFloor := c.determinantFloor
  divergenceBound := c.divergenceBound

/-- The limits of the iteration for linear systems. -/
def jacobi (c : Config α) : Jacobi.Settings α where
  maxIterations := c.maxIterations
  determinantFloor := c.determinantFloor
  divisorFloor := c.divisorFloor
  divergenceBound := c.divergenceBound

/-- The limits of quadrature. -/
def quadrature (c : Config α) : Quadrature.Settings α where
  initialSubintervals := c.initialSubintervals
  maxSubintervals := c.maxSubintervals
  singularityOffset := c.singularityOffset

/-- The limits of initial value problems. -/
def initialValue (c : Config α) : InitialValue.Settings where
  maxCorrectorIterations := c.maxCorrectorIterations
  refineStep := c.refineOdeStep
  maxStepHalvings := c.maxStepHalvings

end Config
end NumericalMethods
