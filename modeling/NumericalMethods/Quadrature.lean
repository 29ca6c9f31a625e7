import NumericalMethods.Iteration
import NumericalMethods.SolveResult
import NumericalMethods.Quadrature.Pieces
import NumericalMethods.Quadrature.Rule

/-!
# Adaptive quadrature

On each piece of the interval the number of subintervals is doubled until the
estimated error is below the tolerance, or until the next doubling would exceed
the cap.  The estimate compares two values of a rule of order `p`: their
difference over `2 ^ p - 1`.

Counts of subintervals are machine words, and arithmetic on them is checked: a
count beyond that range ends the integral.
-/

namespace NumericalMethods
namespace Quadrature

variable {α : Type} [Scalar α]

/-- The limits a quadrature observes. -/
structure Settings (α : Type) where
  initialSubintervals : Nat
  maxSubintervals : Nat
  /-- The margin left out around a singular point. -/
  singularityOffset : α
  deriving Repr, DecidableEq

/-- How often a count can double without exceeding a cap. -/
def doublings (n cap : Nat) : Nat :=
  if cap < n then 0 else (cap / n).log2

/-- A number of subintervals with the value of the rule and its estimated
error. -/
structure Estimate (α : Type) where
  subintervals : Nat
  value : α
  rungeError : α
  deriving Repr, DecidableEq

/-- One doubling of the number of subintervals, with `value n` the value of the
rule on `n` of them. -/
@[specialize] def double (value : Nat → α) (divisor tolerance a b : α)
    (s : Estimate α) :
    Round (Breakdown α) (QuadratureStep α) (Estimate α) :=
  let n := 2 * s.subintervals
  let current := value n
  if Scalar.isFinite current then
    let rungeError := Scalar.abs (current - s.value) / divisor
    let entry : QuadratureStep α :=
      { subintervals := n, value := current, rungeError := rungeError }
    let next : Estimate α := ⟨n, current, rungeError⟩
    if rungeError < tolerance then .last entry next else .step entry next
  else .fail (.integrandNotFinite a b)

/-- Why the run on a piece has no result. -/
inductive Interruption (α : Type) where
  /-- A breakdown, with what the run had left in the trace. -/
  | breakdown (cause : Breakdown α) (made : List (QuadratureStep α))
  | abort (reason : Abort)
  deriving Repr, DecidableEq

/-- What doublings come to.  The next count is computed before it is compared
with the cap, so doublings that end at the cap need a machine word for it. -/
def conclude :
    Except (Breakdown α × List (QuadratureStep α))
        (Run (QuadratureStep α) (Estimate α)) →
      Except (Interruption α) (Run (QuadratureStep α) (Estimate α))
  | .ok run =>
    if run.settled = false ∧ Machine.countBound ≤
        2 * run.state.subintervals then
      .error (.abort .countOverflow)
    else .ok run
  | .error (cause, made) => .error (.breakdown cause made)

/-- The run of doublings on one piece. -/
@[specialize] def refinePiece (settings : Settings α)
    (rule : QuadratureRule) (f : α → α) (a b tolerance : α) :
    Except (Interruption α) (Run (QuadratureStep α) (Estimate α)) :=
  let n := rule.startingCount settings.initialSubintervals
  if Machine.countBound ≤ n then .error (.abort .countOverflow)
  else
    let value := rule.composite f a b
    let first := value n
    if Scalar.isFinite first then
      conclude
        (iterate (double value (Scalar.rungeDivisor rule.order) tolerance a b)
        (doublings n settings.maxSubintervals) ⟨n, first, Scalar.infinity⟩)
    else .error (.breakdown (.integrandNotFinite a b) [])

/-- What the pieces so far add up to. -/
structure Total (α : Type) where
  value : α
  /-- The sum of the estimated errors. -/
  errorValue : α
  subintervals : Nat
  entries : List (QuadratureStep α)
  warnings : List (Warning α)
  deriving Repr, DecidableEq

/-- Adds the run on one piece. -/
def Total.add (t : Total α) (run : Run (QuadratureStep α) (Estimate α)) :
    Total α where
  value := t.value + run.state.value
  errorValue := t.errorValue + run.state.rungeError
  subintervals := t.subintervals + run.state.subintervals
  entries := t.entries ++ run.entries
  warnings := t.warnings ++
    if run.settled then [] else [.convergenceFailure run.state.subintervals]

/-- Integrates over pieces, one after the other. -/
@[specialize] def overPieces (settings : Settings α)
    (rule : QuadratureRule) (f : α → α) (tolerance : α) :
    Total α → List (α × α) → Except (Failure α) (Total α)
  | total, [] => .ok total
  | total, (a, b) :: rest =>
    match refinePiece settings rule f a b tolerance with
    | .ok run =>
      let next := total.add run
      if Machine.countBound ≤ next.subintervals then
        .error (.abort .countOverflow)
      else overPieces settings rule f tolerance next rest
    | .error (.breakdown cause made) =>
      .error (.error (.ofSteps cause ((total.entries ++ made).map .quadrature)))
    | .error (.abort reason) => .error (.abort reason)

/-- The value an antiderivative gives, if it is finite at both ends. -/
def exactValue? (f : Integrable α) (lower upper : α) : Option α :=
  match f.antiderivative lower, f.antiderivative upper with
  | some low, some high =>
    if Scalar.isFinite low && Scalar.isFinite high then
      some (high - low)
    else none
  | _, _ => none

/-- Whether an interval leaves the domain of a function. -/
def leavesDomain (f : Integrable α) (lower upper : α) : Bool :=
  (match f.lowerEnd with
    | some e => decide (lower < e)
    | none => false) ||
  match f.upperEnd with
    | some e => decide (e < upper)
    | none => false

def result (rule : QuadratureRule) (f : Integrable α) (lower upper : α)
    (t : Total α) :
    SolveResult α where
  methodId := rule.id
  functionId := none
  value := t.value
  functionValue := none
  iterations := t.subintervals
  errorValue := t.errorValue
  steps := Step.number (t.entries.map .quadrature)
  warnings := t.warnings
  exactValue := exactValue? f lower upper

/-- Integrates a function over an interval. -/
@[specialize] def integrate (settings : Settings α) (rule : QuadratureRule)
    (f : Integrable α) (lower upper tolerance : α) :
    Except (Failure α) (SolveResult α) := do
  if !Scalar.isPositiveFinite tolerance then
    throw (.error (.invalidParameter (.tolerance tolerance)))
  if !(Scalar.isFinite lower && Scalar.isFinite upper) ||
      decide (upper ≤ lower) then
    throw (.error (.invalidParameter (.integrationBounds lower upper)))
  if leavesDomain f lower upper then
    throw (.error (.outOfDomain lower upper "integrand"))
  let parts ← liftError (pieces f settings.singularityOffset lower upper)
  let total ← overPieces settings rule f.evaluate tolerance
    ⟨0, 0, 0, [], []⟩ parts
  return result rule f lower upper total

end Quadrature
end NumericalMethods
