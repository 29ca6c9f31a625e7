import NumericalMethods.DataSet
import NumericalMethods.LeastSquares.Model
import NumericalMethods.LeastSquares.Polynomial
import NumericalMethods.LeastSquares.Statistics

/-!
# Least-squares approximation

Each model is fitted through normal equations; the exponential and the power
curve become straight lines by taking logarithms.  The best of several fits has
the least standard deviation, and a later model has to be better by more than a
rounding margin.
-/

namespace NumericalMethods

/-- The model with a number, or an error. -/
def Model.lookup {α : Type} (n : Nat) : Except (EngineError α) Model :=
  match ofId? n with
  | some model => .ok model
  | none => .error (.unknownMethodId "approximation" n)

/-- A fitted model. -/
structure Fit (α : Type) where
  model : Model
  coefficients : List α
  data : DataSet α
  /-- Its values at the abscissas of the data. -/
  phiValues : List α
  /-- The ordinates of the data less those values. -/
  differences : List α
  standardDeviation : α
  pearsonCorrelation : Option α
  /-- The share of the variance that the model explains. -/
  coefficientOfDetermination : Option α
  warnings : List (Warning α)
  deriving Repr, DecidableEq

/-- Why a report leaves a model out. -/
inductive SkipReason (α : Type) where
  | failed (reason : EngineError α)
  /-- The standard deviation of the fit is not finite. -/
  | deviation (value : α)
  deriving Repr, DecidableEq

/-- A model that a report leaves out. -/
structure SkippedModel (α : Type) where
  model : Model
  reason : SkipReason α
  deriving Repr, DecidableEq

/-- All fits to some data. -/
structure FitReport (α : Type) where
  best : Fit α
  candidates : List (Fit α)
  /-- The models left out, in the same order. -/
  skipped : List (SkippedModel α)
  deriving Repr, DecidableEq

namespace Fit

variable {α : Type} [Elementary α]

def evaluate (fit : Fit α) (x : α) : α :=
  fit.model.evaluate fit.coefficients x

/-- The fitted model at equally spaced points. -/
def curve (fit : Fit α) (start stop : α) (samples : Nat) :
    Except (Failure α) (List (α × α)) :=
  if samples < 2 then .ok [(start, fit.evaluate start)]
  else
    DataSet.equallySpaced fit.evaluate start
      ((stop - start) / Scalar.ofNat (samples - 1)) samples

end Fit

namespace LeastSquares

variable {α : Type} [Elementary α]

open Scalar

/-- The number of distinguishable scalars in a list. -/
def distinctCount (xs : List α) : Nat :=
  (xs.foldl (fun seen v => if seen.any (identical v) then seen else v :: seen)
    []).length

/-- Why a model cannot be fitted to data, if there is a reason. -/
def obstacle? (model : Model) (data : DataSet α) : Option Model.Obstacle :=
  let distinct := distinctCount data.x
  if distinct < model.parameters then some (.tooFewDistinct model distinct)
  else
    let xPositive := data.x.all fun v => decide (0 < v)
    let yPositive := data.y.all fun v => decide (0 < v)
    match model with
    | .exponential => if yPositive then none else some .exponentialSign
    | .logarithmic => if xPositive then none else some .logarithmicSign
    | .power => if xPositive && yPositive then none else some .powerSign
    | _ => none

/-- The coefficients of a curve from those of its line through logarithms: the
first one is the logarithm of the factor. -/
def fromLogarithms : List α → List α
  | first :: rest => Elementary.exp first :: rest
  | [] => []

/-- The coefficients of the best model of a family. -/
def coefficients? (model : Model) (data : DataSet α) : Option (List α) :=
  let logs (xs : List α) : List α := xs.map Elementary.ln
  match model with
  | .linear => polynomialFit data.x data.y 1
  | .quadratic => polynomialFit data.x data.y 2
  | .cubic => polynomialFit data.x data.y 3
  | .exponential => (polynomialFit data.x (logs data.y) 1).map fromLogarithms
  | .logarithmic => polynomialFit (logs data.x) data.y 1
  | .power => (polynomialFit (logs data.x) (logs data.y) 1).map fromLogarithms

/-- The statistics of a model with given coefficients. -/
def describe (weakCorrelation : α) (model : Model) (coefficients : List α)
    (data : DataSet α) : Fit α :=
  let phiValues := data.x.map (model.evaluate coefficients)
  let differences := List.zipWith (fun y phi => y - phi) data.y phiValues
  let residual := sum (differences.map fun e => e * e)
  let total := squaredDeviations data.y (mean data.y)
  let correlation := pearson data.y phiValues
  { model := model
    coefficients := coefficients
    data := data
    phiValues := phiValues
    differences := differences
    standardDeviation := sqrt (residual / Scalar.ofNat data.length)
    pearsonCorrelation := correlation
    coefficientOfDetermination :=
      if 0 < total then some (1 - residual / total) else none
    warnings := match correlation with
      | some r => if abs r < weakCorrelation then [.weakCorrelation r] else []
      | none => [] }

/-- Fits one model. -/
def fit (weakCorrelation : α) (model : Model) (data : DataSet α) :
    Except (EngineError α) (Fit α) :=
  if data.length < 2 then .error (.insufficientData (.tooFewPoints data.length))
  else
    match obstacle? model data with
    | some obstacle => .error (.insufficientData (.inapplicable obstacle))
    | none =>
      match coefficients? model data with
      | none => .error (.insufficientData (.singularNormalEquations model))
      | some coefficients =>
        .ok (describe weakCorrelation model coefficients data)

/-- The better of the best fit so far and a later one. -/
def better (best : Option (Fit α)) (candidate : Fit α) : Option (Fit α) :=
  match best with
  | none => some candidate
  | some current =>
    let margin := 1e-12 * larger current.standardDeviation 1
    if candidate.standardDeviation < current.standardDeviation - margin then
      some candidate
    else some current

/-- The fits and the models left out, for a list of models. -/
def attempts (weakCorrelation : α) (data : DataSet α) :
    List Model → List (Fit α) × List (SkippedModel α)
  | [] => ([], [])
  | model :: models =>
    let (fits, skipped) := attempts weakCorrelation data models
    match fit weakCorrelation model data with
    | .ok f =>
      if isFinite f.standardDeviation then (f :: fits, skipped)
      else (fits, ⟨model, .deviation f.standardDeviation⟩ :: skipped)
    | .error e => (fits, ⟨model, .failed e⟩ :: skipped)

/-- Fits every model and picks the best one. -/
def report (weakCorrelation : α) (data : DataSet α) :
    Except (EngineError α) (FitReport α) :=
  if data.length < 2 then .error (.insufficientData (.tooFewPoints data.length))
  else
    let (candidates, skipped) := attempts weakCorrelation data Model.all
    match candidates.foldl better none with
    | none => .error .noApplicableModel
    | some best => .ok ⟨best, candidates, skipped⟩

end LeastSquares
end NumericalMethods
