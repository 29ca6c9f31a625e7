import NumericalMethods.Machine
import NumericalMethods.Trace
import NumericalMethods.LeastSquares.Model

/-!
# Errors and warnings

An error says what was wrong with the input, or why a computation broke
down and what it had produced by then.  A warning is attached to a result
that was returned all the same.  Both keep the facts; their wording is a
function of them.
-/

namespace NumericalMethods

/-- The kinds of error and warning a caller can distinguish. -/
inductive ErrorKind where
  | invalidBracket
  | insufficientData
  | duplicateNodes
  | unknownFunctionId
  | unknownMethodId
  | invalidParameter
  | outOfDomain
  | divergentIntegral
  | unequalSpacing
  | noApplicableModel
  | singularMatrix
  | zeroDerivative
  | zeroDivisor
  | singularJacobian
  | correctorDivergence
  | divergenceDetected
  | iterationLimitExceeded
  | convergenceFailure
  | extrapolationWarning
  | weakCorrelation
  | stepRefinementExhausted
  | stepToleranceNotMet
  | contractionNotGuaranteed
  | diagonalDominanceNotReached
  deriving Repr, DecidableEq

def ErrorKind.name : ErrorKind → String
  | invalidBracket => "InvalidBracket"
  | insufficientData => "InsufficientData"
  | duplicateNodes => "DuplicateNodes"
  | unknownFunctionId => "UnknownFunctionId"
  | unknownMethodId => "UnknownMethodId"
  | invalidParameter => "InvalidParameter"
  | outOfDomain => "OutOfDomain"
  | divergentIntegral => "DivergentIntegral"
  | unequalSpacing => "UnequalSpacing"
  | noApplicableModel => "NoApplicableModel"
  | singularMatrix => "SingularMatrix"
  | zeroDerivative => "ZeroDerivative"
  | zeroDivisor => "ZeroDivisor"
  | singularJacobian => "SingularJacobian"
  | correctorDivergence => "CorrectorDivergence"
  | divergenceDetected => "DivergenceDetected"
  | iterationLimitExceeded => "IterationLimitExceeded"
  | convergenceFailure => "ConvergenceFailure"
  | extrapolationWarning => "ExtrapolationWarning"
  | weakCorrelation => "WeakCorrelation"
  | stepRefinementExhausted => "StepRefinementExhausted"
  | stepToleranceNotMet => "StepToleranceNotMet"
  | contractionNotGuaranteed => "ContractionNotGuaranteed"
  | diagonalDominanceNotReached => "DiagonalDominanceNotReached"

/-- Why there is too little data. -/
inductive Shortage where
  | unequalLengths (x y : Nat)
  | noEquations
  | missingOrder
  | missingRow (row order : Nat)
  | missingTolerance
  | tooFewPoints (count : Nat)
  /-- The data do not suit a model. -/
  | inapplicable (obstacle : Model.Obstacle)
  | singularNormalEquations (model : Model)
  | noNodes
  /-- A reason a caller gives in words. -/
  | other (reason : String)
  deriving Repr, DecidableEq

/-- What is wrong with a parameter. -/
inductive InvalidParameter (α : Type) where
  | tolerance (value : α)
  | startNotFinite
  | bracketNeeded
  | derivativeNeeded (function : String)
  | derivativeNeededAt (function : String) (x : α)
  | guessNotFinite
  | notSquare (rows columns : Nat)
  | rightHandSideLength (entries equations : Nat)
  | coefficientNotFinite
  | rowLength (order entries : Nat)
  | orderText (token : String)
  | coefficientText (token : String)
  | toleranceText (token : String)
  | rowEntries (row order entries : Nat)
  | integrationBounds (lower upper : α)
  | intervalTooNarrow
  | dataNotFinite
  | noNodesKept
  | pointNotFinite
  | tooFewSamples
  | samplingInterval (start stop : α)
  | initialValueNotFinite
  | stepNotPositive (step : α)
  | emptyInterval (start stop : α)
  | stepTooLarge (step start stop : α)
  | settingNotPositive (name : String) (value : α)
  | capNotPositive (name : String)
  | subintervalsOutOfOrder
  | correlationBound
  | logLevel (name : String)
  | malformedConfig
  | unreadableConfig
  | unencodableConfig
  /-- A reason a caller gives in words. -/
  | other (reason : String)
  deriving Repr, DecidableEq

/-- The kinds of breakdown. -/
inductive BreakdownKind where
  | zeroDerivative
  | zeroDivisor
  | singularJacobian
  | correctorDivergence
  | divergenceDetected
  deriving Repr, DecidableEq

def BreakdownKind.all : List BreakdownKind :=
  [zeroDerivative, zeroDivisor, singularJacobian, correctorDivergence,
    divergenceDetected]

/-- A kind of breakdown as a kind of error. -/
def BreakdownKind.errorKind : BreakdownKind → ErrorKind
  | zeroDerivative => .zeroDerivative
  | zeroDivisor => .zeroDivisor
  | singularJacobian => .singularJacobian
  | correctorDivergence => .correctorDivergence
  | divergenceDetected => .divergenceDetected

instance : Coe BreakdownKind ErrorKind :=
  ⟨BreakdownKind.errorKind⟩

/-- Why a computation could not go on. -/
inductive Breakdown (α : Type) where
  /-- The derivative at the start is too small for an iteration function. -/
  | slopeTooSmall (x slope : α)
  | slopeUndefined (x : α)
  | slopeVanished (x slope : α)
  /-- The function takes nearly equal values at two iterates. -/
  | chordFlat (x previous difference : α)
  | diagonalVanished (row : Nat) (coefficient : α)
  | jacobianSingular (determinant x y : α)
  | jacobianNotInvertible (x y : α)
  | correctorUnsettled (x : α) (rounds : Nat)
  /-- An iterate left the bound. -/
  | leftBound (bound : α)
  | integrandNotFinite (lower upper : α)
  | solutionNotFinite (method : String)
  /-- A reason a caller gives in words. -/
  | other (kind : ErrorKind) (reason : String)
  deriving Repr, DecidableEq

def Breakdown.kind {α : Type} : Breakdown α → ErrorKind
  | slopeTooSmall .. | slopeUndefined .. | slopeVanished .. => .zeroDerivative
  | chordFlat .. | diagonalVanished .. => .zeroDivisor
  | jacobianSingular .. | jacobianNotInvertible .. => .singularJacobian
  | correctorUnsettled .. => .correctorDivergence
  | leftBound .. | integrandNotFinite .. | solutionNotFinite .. =>
    .divergenceDetected
  | other kind _ => kind

/-- Everything an operation can report instead of a result. -/
inductive EngineError (α : Type) where
  | invalidBracket (a b fa fb : α)
  | insufficientData (reason : Shortage)
  | duplicateNodes (x : α)
  | unknownFunctionId (registry : String) (id : Nat)
  | unknownMethodId (component : String) (id : Nat)
  | invalidParameter (reason : InvalidParameter α)
  | outOfDomain (lower upper : α) (function : String)
  | divergentIntegral (point : α) (function : String)
  | unequalSpacing
  | noApplicableModel
  | singularMatrix (determinant : α)
  | breakdown (cause : Breakdown α) (completed : PartialTrace α)
  deriving Repr, DecidableEq

namespace EngineError

variable {α : Type}

def kind : EngineError α → ErrorKind
  | invalidBracket .. => .invalidBracket
  | insufficientData .. => .insufficientData
  | duplicateNodes .. => .duplicateNodes
  | unknownFunctionId .. => .unknownFunctionId
  | unknownMethodId .. => .unknownMethodId
  | invalidParameter .. => .invalidParameter
  | outOfDomain .. => .outOfDomain
  | divergentIntegral .. => .divergentIntegral
  | unequalSpacing => .unequalSpacing
  | noApplicableModel => .noApplicableModel
  | singularMatrix .. => .singularMatrix
  | breakdown cause _ => cause.kind

/-- What had been computed before a breakdown; other errors have nothing. -/
def partialTrace? : EngineError α → Option (PartialTrace α)
  | breakdown _ completed => some completed
  | _ => none

/-- A breakdown of a solver that records steps. -/
def ofSteps (cause : Breakdown α) (steps : List (StepData α)) : EngineError α :=
  breakdown cause (.steps (Step.number steps))

end EngineError

/-- A condition attached to a result. -/
inductive Warning (α : Type) where
  | iterationLimitExceeded (cap : Nat)
  | convergenceFailure (subintervals : Nat)
  | extrapolationWarning (point min max : α)
  | weakCorrelation (r : α)
  | stepRefinementExhausted (halvings : Nat)
  | stepToleranceNotMet (rungeError tolerance : α)
  | contractionNotGuaranteed (q : α)
  | diagonalDominanceNotReached
  deriving Repr, DecidableEq

def Warning.kind {α : Type} : Warning α → ErrorKind
  | iterationLimitExceeded .. => .iterationLimitExceeded
  | convergenceFailure .. => .convergenceFailure
  | extrapolationWarning .. => .extrapolationWarning
  | weakCorrelation .. => .weakCorrelation
  | stepRefinementExhausted .. => .stepRefinementExhausted
  | stepToleranceNotMet .. => .stepToleranceNotMet
  | contractionNotGuaranteed .. => .contractionNotGuaranteed
  | diagonalDominanceNotReached => .diagonalDominanceNotReached

/-- Ways to end without an answer: a request no memory could hold, an access
beyond the end of a list, arithmetic on counts beyond the machine words, or a
number a document cannot hold. -/
inductive Abort where
  /-- More storage was requested than can be addressed.  The number of entries
  that was asked for need not be a machine word. -/
  | capacityExceeded
  | indexOutOfRange
  /-- A count left the range of the machine words. -/
  | countOverflow
  /-- A whole number was too large to be written. -/
  | unwritableNumber
  deriving Repr, DecidableEq

/-- Why an operation has no result. -/
inductive Failure (α : Type) where
  | error (reason : EngineError α)
  | abort (reason : Abort)
  deriving Repr, DecidableEq

/-- The result of an operation that always answers, inside one that may not. -/
def liftError {α β : Type} : Except (EngineError α) β → Except (Failure α) β
  | .ok result => .ok result
  | .error reason => .error (.error reason)

/-- The abort a computation ended with. -/
def aborted? {α β : Type} : Except (Failure α) β → Option Abort
  | .ok _ => none
  | .error (.error _) => none
  | .error (.abort reason) => some reason

/-- Waits for computations that run side by side.  An abort of one of them ends
them all, while an error is left to whoever asks for the result. -/
def await {α β : Type} (runs : List (Except (Failure α) β)) :
    Except (Failure α) Unit :=
  match runs.findSome? aborted? with
  | some reason => .error (.abort reason)
  | none => .ok ()

/-- The number of bytes that can be addressed in one block. -/
def largestBlock : Nat :=
  Machine.signedBound - 1

/-- Reserves a list of `length` entries of `bytes` bytes each.  A length beyond
the machine words is refused like all others that are too large. -/
def reserve {α : Type} (length bytes : Nat) : Except (Failure α) Unit :=
  if length * bytes ≤ largestBlock then
    .ok ()
  else .error (.abort .capacityExceeded)

end NumericalMethods
