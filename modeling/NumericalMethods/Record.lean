import NumericalMethods.Config
import NumericalMethods.Error.Message
import NumericalMethods.Interpolation.Formula
import NumericalMethods.Json
import NumericalMethods.LeastSquares.Formula

/-!
# Records of results

Every result as a structured value.  Its fields are the facts the result keeps
together with the texts and numbers that follow from them.
-/

namespace NumericalMethods

open Json

/-- The fields of a step behind its number. -/
def StepData.fields : StepData Float → List (String × Json)
  | .halfDivision s =>
    [("a", number s.a), ("b", number s.b), ("x", number s.x),
      ("fa", number s.fa), ("fb", number s.fb), ("fx", number s.fx),
      ("abs_diff", number s.absDiff)]
  | .simpleIteration s =>
    [("x_k", number s.x), ("x_k_plus_one", number s.next),
      ("phi_x_k", number s.phi), ("f_x_k_plus_one", number s.fNext),
      ("abs_diff", number s.absDiff)]
  | .newton s =>
    [("x_k", number s.x), ("f_x_k", number s.fx),
      ("f_prime_x_k", number s.slope), ("x_k_plus_one", number s.next),
      ("abs_diff", number s.absDiff)]
  | .secant s =>
    [("x_k_minus_one", number s.previous), ("x_k", number s.x),
      ("x_k_plus_one", number s.next), ("f_x_k_plus_one", number s.fNext),
      ("abs_diff", number s.absDiff)]
  | .system s =>
    [("x_k", number s.x), ("y_k", number s.y), ("dx", number s.dx),
      ("dy", number s.dy), ("update_norm", number s.updateNorm),
      ("residual_norm", number s.residualNorm)]
  | .quadrature s =>
    [("subintervals", count s.subintervals), ("value", number s.value),
      ("runge_error", number s.rungeError)]
  | .sweep s => [("x", numbers s.x), ("max_error", number s.maxError)]

def Step.toJson (s : Step Float) : Json :=
  record (("iteration", count s.iteration) :: s.data.fields)

def Step.listToJson (steps : List (Step Float)) : Json :=
  list (steps.map Step.toJson)

/-- The fields of a warning behind its kind. -/
def Warning.fields : Warning Float → List (String × Json)
  | .iterationLimitExceeded cap => [("cap", count cap)]
  | .convergenceFailure subintervals => [("subintervals", count subintervals)]
  | .extrapolationWarning point min max =>
    [("point", number point), ("min", number min), ("max", number max)]
  | .weakCorrelation r => [("r", number r)]
  | .stepRefinementExhausted halvings => [("halvings", count halvings)]
  | .stepToleranceNotMet rungeError tolerance =>
    [("runge_error", number rungeError), ("tolerance", number tolerance)]
  | .contractionNotGuaranteed q => [("q", number q)]
  | .diagonalDominanceNotReached => []

def Warning.toJson (w : Warning Float) : Json :=
  record (("kind", text w.kind.name) :: w.fields)

def Warning.listToJson (warnings : List (Warning Float)) : Json :=
  list (warnings.map Warning.toJson)

def SolveResult.toJson (r : SolveResult Float) : Json :=
  record
    [("method_id", count r.methodId),
      ("function_id", ofOption count r.functionId), ("value", number r.value),
      ("function_value", ofOption number r.functionValue),
      ("iterations", count r.iterations), ("error_value", number r.errorValue),
      ("steps", Step.listToJson r.steps),
      ("message", ofOption text (Warning.summary? r.warnings)),
      ("warnings", Warning.listToJson r.warnings),
      ("exact_value", ofOption number r.exactValue)]

def SystemSolveResult.toJson (r : SystemSolveResult Float) : Json :=
  record
    [("function_id", ofOption count r.functionId), ("x", number r.x),
      ("y", number r.y), ("iterations", count r.iterations),
      ("error_value", number r.errorValue),
      ("residual_norm", number r.residualNorm),
      ("steps", Step.listToJson r.steps),
      ("warnings", Warning.listToJson r.warnings)]

def LinearSolveResult.toJson (r : LinearSolveResult Float) : Json :=
  record
    [("solution", numbers r.solution), ("errors", numbers r.errors),
      ("iterations", count r.iterations), ("determinant", number r.determinant),
      ("permutation", list (r.permutation.map count)),
      ("matrix", grid r.matrix), ("rhs", numbers r.rhs),
      ("c_matrix", grid r.cMatrix), ("steps", Step.listToJson r.steps),
      ("warnings", Warning.listToJson r.warnings)]

/-- The record of tabulated data. -/
def DataSet.toJson (d : DataSet Float) : Json :=
  record [("x", numbers d.x), ("y", numbers d.y)]

namespace Fit

def pointToJson (p : Float × Float) (phi difference : Float) : Json :=
  record
    [("x", number p.1), ("y", number p.2), ("phi_x", number phi),
      ("epsilon", number difference)]

def toJson (fit : Fit Float) : Json :=
  record
    [("model", text fit.model.name), ("model_id", count fit.model.id),
      ("coefficients", numbers fit.coefficients),
      ("phi_values", numbers fit.phiValues),
      ("differences", numbers fit.differences),
      ("standard_deviation", number fit.standardDeviation),
      ("pearson_correlation", ofOption number fit.pearsonCorrelation),
      ("coefficient_of_determination",
        ofOption number fit.coefficientOfDetermination),
      ("display_formula", text fit.displayFormula),
      ("data_points",
        list ((fit.data.points.zip (fit.phiValues.zip fit.differences)).map
          fun (p, phi, difference) => pointToJson p phi difference)),
      ("warnings", Warning.listToJson fit.warnings)]

end Fit

def SkippedModel.toJson (s : SkippedModel Float) : Json :=
  record [("model", text s.model.name), ("reason", text s.reason.message)]

/-- The record of all fits to some data. -/
def FitReport.toJson (r : FitReport Float) : Json :=
  record
    [("best", r.best.toJson),
      ("candidates", list (r.candidates.map Fit.toJson)),
      ("skipped", list (r.skipped.map SkippedModel.toJson))]

def InterpolationResult.toJson (r : InterpolationResult Float) : Json :=
  record
    [("method", text r.method.name), ("method_id", count r.method.id),
      ("point", number r.point),
      ("interpolated_value", number r.interpolatedValue),
      ("difference_table", grid r.differenceTable),
      ("divided_differences", numbers r.dividedDifferences),
      ("nodes", r.nodes.toJson), ("display_formula", text r.displayFormula),
      ("warnings", Warning.listToJson r.warnings)]

def OdeTrace.toJson (t : OdeTrace Float) : Json :=
  record
    [("method_name", text t.method.name), ("step", number t.step),
      ("points", Json.points t.points),
      ("display_equation", text t.displayEquation),
      ("runge_error", number t.rungeError),
      ("max_abs_error", ofOption number t.maxAbsError),
      ("warnings", Warning.listToJson t.warnings)]

/-- A formula with its constant, which is written with ten places. -/
def ConstantFormula.render (f : ConstantFormula) (c : Float) : String :=
  f.before ++ Decimal.fixed 10 c f.signed ++ f.after

/-- The exact solution written out, if it is known. -/
def OdeSolution.exactDisplay? (s : OdeSolution Float) : Option String :=
  s.integrationConstant.bind fun c => s.exactFormula.map fun f => f.render c

def OdeSolution.toJson (s : OdeSolution Float) : Json :=
  record
    [("Euler", s.euler.toJson), ("ExtendedEuler", s.extendedEuler.toJson),
      ("Milne", s.milne.toJson),
      ("integration_constant", ofOption number s.integrationConstant),
      ("exact_display", ofOption text s.exactDisplay?),
      ("exact_points", ofOption points s.exactPoints)]

def Config.toJson (c : Config Float) : Json :=
  record
    [("max_iterations", count c.maxIterations),
      ("derivative_floor", number c.derivativeFloor),
      ("divisor_floor", number c.divisorFloor),
      ("determinant_floor", number c.determinantFloor),
      ("divergence_bound", number c.divergenceBound),
      ("initial_subintervals", count c.initialSubintervals),
      ("max_subintervals", count c.maxSubintervals),
      ("singularity_offset", number c.singularityOffset),
      ("max_corrector_iterations", count c.maxCorrectorIterations),
      ("refine_ode_step", bool c.refineOdeStep),
      ("max_step_halvings", count c.maxStepHalvings),
      ("weak_correlation", number c.weakCorrelation),
      ("log_level", text c.logLevel), ("log_file", ofOption text c.logFile)]

end NumericalMethods
