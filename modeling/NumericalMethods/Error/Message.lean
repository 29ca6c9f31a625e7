import NumericalMethods.Error
import NumericalMethods.Decimal.Layout

/-!
# The wording of errors and warnings

Messages are functions of the facts an error or a warning keeps.  Numbers in
them are written with the fewest digits that read back, never with an exponent.
-/

namespace NumericalMethods

open Decimal (text)

def Model.Obstacle.message : Model.Obstacle → String
  | tooFewDistinct model distinct =>
    s!"{model.name} needs {model.parameters} distinct x values, got {distinct}"
  | exponentialSign => "exponential model needs y > 0"
  | logarithmicSign => "logarithmic model needs x > 0"
  | powerSign => "power model needs x > 0 and y > 0"

def Shortage.message : Shortage → String
  | unequalLengths x y => s!"x and y must have the same length, got {x} and {y}"
  | noEquations => "linear system needs at least one equation"
  | missingOrder => "missing system order"
  | missingRow row order => s!"missing row {row} of {order}"
  | missingTolerance => "missing tolerance"
  | tooFewPoints count => s!"approximation needs at least 2 points, got {count}"
  | inapplicable obstacle => obstacle.message
  | singularNormalEquations model =>
    s!"normal equations of {model.name} are singular"
  | noNodes => "interpolation needs at least one node"
  | other reason => reason

/-- The wording of what is wrong with a parameter. -/
def InvalidParameter.message : InvalidParameter Float → String
  | tolerance value => s!"tolerance must be positive, got {text value}"
  | startNotFinite => "starting values must be finite"
  | bracketNeeded => "half-division needs an interval [a, b]"
  | derivativeNeeded function =>
    s!"simple iteration needs the derivative of {function}"
  | derivativeNeededAt function x =>
    s!"Newton's method needs the derivative of {function} at x = {text x}"
  | guessNotFinite => "initial guess must be finite"
  | notSquare rows columns =>
    s!"coefficient matrix must be square, got {rows}x{columns}"
  | rightHandSideLength entries equations =>
    s!"right-hand side has {entries} entries for {equations} equations"
  | coefficientNotFinite => "coefficients must be finite numbers"
  | rowLength order entries =>
    s!"every row must have {order} coefficients, got {entries}"
  | orderText token => s!"invalid system order: '{token}'"
  | coefficientText token => s!"invalid coefficient: '{token}'"
  | toleranceText token => s!"invalid tolerance: '{token}'"
  | rowEntries row order entries =>
    s!"row {row} must hold {order} coefficients and b, got {entries} numbers"
  | integrationBounds lower upper =>
    s!"integration bounds must satisfy lower < upper, got [{text lower}, {text upper}]"
  | intervalTooNarrow => "interval is too narrow around a singular point"
  | dataNotFinite => "data must contain only finite numbers"
  | noNodesKept => "nodes_amount must be positive"
  | pointNotFinite => "interpolation point must be finite"
  | tooFewSamples => "at least 2 nodes are needed to sample a function"
  | samplingInterval start stop =>
    s!"sampling interval must satisfy start < end, got [{text start}, {text stop}]"
  | initialValueNotFinite => "x0, y0 and xn must be finite"
  | stepNotPositive step => s!"step must be positive, got {text step}"
  | emptyInterval start stop =>
    s!"interval must satisfy x0 < xn, got [{text start}, {text stop}]"
  | stepTooLarge step start stop =>
    s!"step {text step} is larger than the interval [{text start}, {text stop}]"
  | settingNotPositive name value =>
    s!"{name} must be a positive number, got {text value}"
  | capNotPositive name => s!"{name} must be positive"
  | subintervalsOutOfOrder =>
    "max_subintervals must not be smaller than initial_subintervals"
  | correlationBound => "weak_correlation must lie in [0, 1]"
  | logLevel name =>
    s!"loglevel must be debug, info, warn, error or off, got {name}"
  | malformedConfig => "malformed config"
  | unreadableConfig => "cannot read"
  | unencodableConfig => "cannot encode config"
  | other reason => reason

def Breakdown.message : Breakdown Float → String
  | slopeTooSmall x slope =>
    s!"f'({text x}) = {text slope} is too small to build φ"
  | slopeUndefined x => s!"f'({text x}) is undefined"
  | slopeVanished x slope => s!"f'({text x}) = {text slope}"
  | chordFlat x previous difference =>
    s!"f({text x}) - f({text previous}) = {text difference}"
  | diagonalVanished row coefficient => s!"a_{row}{row} = {text coefficient}"
  | jacobianSingular determinant x y =>
    s!"det(J) = {text determinant} at ({text x}, {text y})"
  | jacobianNotInvertible x y =>
    s!"Jacobian cannot be inverted at ({text x}, {text y})"
  | correctorUnsettled x rounds =>
    s!"corrector did not settle at x = {text x} after {rounds} iterations"
  | leftBound bound => s!"iterates left the bound {text bound}"
  | integrandNotFinite lower upper =>
    s!"integrand is not finite on the grid over [{text lower}, {text upper}]"
  | solutionNotFinite method => s!"{method} produced a non-finite value"
  | other _ reason => reason

def EngineError.message : EngineError Float → String
  | invalidBracket a b fa fb =>
    "function values at the interval endpoints must have opposite signs: " ++
      s!"f({text a}) = {text fa}, f({text b}) = {text fb}"
  | insufficientData reason => s!"insufficient data: {reason.message}"
  | duplicateNodes x =>
    s!"interpolation nodes must be distinct, x = {text x} occurs more than once"
  | unknownFunctionId registry id => s!"unknown {registry} id {id}"
  | unknownMethodId component id => s!"unknown {component} method id {id}"
  | invalidParameter reason => s!"invalid parameter: {reason.message}"
  | outOfDomain lower upper function =>
    s!"interval [{text lower}, {text upper}] is outside the domain of {function}"
  | divergentIntegral point function =>
    s!"integral of {function} diverges at x = {text point}"
  | unequalSpacing => "finite differences need equally spaced nodes"
  | noApplicableModel => "no approximation model could be fitted to the data"
  | singularMatrix determinant =>
    s!"matrix of the linear system is singular, det = {text determinant}"
  | breakdown cause _ => s!"{cause.kind.name}: {cause.message}"

def Warning.message : Warning Float → String
  | iterationLimitExceeded cap =>
    s!"iteration limit of {cap} reached before tolerance was met"
  | convergenceFailure subintervals =>
    s!"tolerance not met with {subintervals} subintervals, returning best estimate"
  | extrapolationWarning point min max =>
    s!"point {text point} lies outside the data range [{text min}, {text max}]"
  | weakCorrelation r => s!"no strong linear dependency detected, r = {text r}"
  | stepRefinementExhausted halvings =>
    s!"step was halved {halvings} times without meeting tolerance"
  | stepToleranceNotMet rungeError tolerance =>
    s!"Runge error {text rungeError} exceeds tolerance {text tolerance} at the requested step"
  | contractionNotGuaranteed q =>
    s!"iteration function is not a contraction on the interval, q = {text q}"
  | diagonalDominanceNotReached =>
    "rows cannot be permuted to a diagonally dominant matrix, iterations may diverge"

/-- The wording of several warnings, or nothing without one. -/
def Warning.summary? (warnings : List (Warning Float)) : Option String :=
  if warnings.isEmpty then none
  else some (String.intercalate "; " (warnings.map Warning.message))

end NumericalMethods
