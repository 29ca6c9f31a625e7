import NumericalMethods.Error

/-!
# Results of root finding and quadrature

A result keeps the value found, an estimate of its error, the whole trace and
the warnings.  It has converged unless a warning says that the solver stopped at
one of its caps.
-/

namespace NumericalMethods

/-- The outcome of a search for a root or of a numerical integration. -/
structure SolveResult (α : Type) where
  methodId : Nat
  functionId : Option Nat
  /-- The root, or the integral. -/
  value : α
  /-- The function at the root; an integral has none. -/
  functionValue : Option α
  /-- The number of steps, or of subintervals. -/
  iterations : Nat
  /-- The last movement, or the estimate of the quadrature error. -/
  errorValue : α
  steps : List (Step α)
  warnings : List (Warning α)
  /-- The value an antiderivative gives, for an integral. -/
  exactValue : Option α
  deriving Repr, DecidableEq

/-- Whether a warning of a kind is among others. -/
def Warning.occurs {α : Type} (warnings : List (Warning α))
    (kind : ErrorKind) : Bool :=
  warnings.any fun w => w.kind == kind

namespace SolveResult

variable {α : Type}

def converged (r : SolveResult α) : Bool :=
  !(Warning.occurs r.warnings .iterationLimitExceeded ||
    Warning.occurs r.warnings .convergenceFailure)

/-- Whether a warning of a kind was attached. -/
def hasWarning (r : SolveResult α) (kind : ErrorKind) : Bool :=
  Warning.occurs r.warnings kind

def registered (r : SolveResult α) (id : Nat) : SolveResult α :=
  { r with functionId := some id }

end SolveResult
end NumericalMethods
