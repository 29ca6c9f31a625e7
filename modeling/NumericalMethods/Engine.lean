import NumericalMethods.Config
import NumericalMethods.DataSet
import NumericalMethods.Interpolation
import NumericalMethods.LeastSquares
import NumericalMethods.LinearSystem.Document
import NumericalMethods.Registry.Equation
import NumericalMethods.Registry.Integrand
import NumericalMethods.Registry.Ode
import NumericalMethods.Registry.Sample
import NumericalMethods.Registry.System

/-!
# The engine

An engine holds a usable configuration and answers questions that name methods
and functions by number.  Numbers are looked up before anything else is checked.
-/

namespace NumericalMethods

/-- An engine with its configuration. -/
structure Engine (α : Type) where
  config : Config α

namespace Engine

section Operations

variable {α : Type} [Elementary α]

/-- The engine with a configuration, if that is usable. -/
def make (config : Config α) : Except (EngineError α) (Engine α) :=
  config.validate.map fun _ => ⟨config⟩

/-- Searches for a root of a registered equation. -/
@[specialize] def solveEquation (engine : Engine α) (methodId functionId : Nat)
    (start : RootStart α) (tolerance : α) :
    Except (EngineError α) (SolveResult α) := do
  let method ← RootMethod.lookup methodId
  let equation ← Registry.Equation.lookup functionId
  let result ←
    RootFinding.solve engine.config.rootFinding method equation.function
      start tolerance
  return result.registered functionId

/-- Searches for a common root of a registered system. -/
@[specialize] def solveSystem (engine : Engine α) (functionId : Nat)
    (guess : α × α) (tolerance : α) :
    Except (EngineError α) (SystemSolveResult α) := do
  let system ← Registry.EquationSystem.lookup functionId
  let result ← PlaneNewton.solve engine.config.planeNewton system.system
    guess tolerance
  return result.registered functionId

/-- Solves a linear system given by its rows. -/
@[specialize] def solveLinear (engine : Engine α) (rows : List (List α))
    (rhs : List α) (tolerance : α) :
    Except (EngineError α) (LinearSolveResult α) := do
  let system ← LinearSystem.ofRows rows rhs
  Jacobi.solve engine.config.jacobi system tolerance

/-- Integrates a registered integrand. -/
@[specialize] def integrate (engine : Engine α) (methodId functionId : Nat)
    (lower upper tolerance : α) : Except (Failure α) (SolveResult α) := do
  let rule ← liftError (QuadratureRule.lookup methodId)
  let integrand ← liftError (Registry.Integrand.lookup functionId)
  let result ←
    Quadrature.integrate engine.config.quadrature rule integrand.function lower
      upper tolerance
  return result.registered functionId

/-- Fits every model to data. -/
@[specialize] def approximate (engine : Engine α) (x y : List α) :
    Except (EngineError α) (FitReport α) := do
  let data ← DataSet.ofLists x y
  LeastSquares.report engine.config.weakCorrelation data

/-- Fits one model to data. -/
@[specialize] def approximateWith (engine : Engine α) (modelId : Nat)
    (x y : List α) :
    Except (EngineError α) (Fit α) := do
  let model ← Model.lookup modelId
  let data ← DataSet.ofLists x y
  LeastSquares.fit engine.config.weakCorrelation model data

@[specialize] def interpolate (_engine : Engine α) (methodId : Nat)
    (x y : List α) (point : α) (nodes : Option Nat) :
    Except (EngineError α) (InterpolationResult α) := do
  let method ← InterpolationMethod.lookup methodId
  let data ← DataSet.ofLists x y
  Interpolation.interpolate method data point nodes

/-- Samples a registered function at equally spaced nodes. -/
@[specialize] def sampleFunction (_engine : Engine α) (functionId : Nat)
    (start stop : α) (nodes : Nat) : Except (Failure α) (DataSet α) := do
  let function ← liftError (Registry.Sample.lookup functionId)
  DataSet.sample function.function start stop nodes

/-- Samples a registered function and interpolates it at a point. -/
@[specialize] def interpolateFunction (engine : Engine α)
    (methodId functionId : Nat) (start stop : α) (nodes : Nat) (point : α) :
    Except (Failure α) (InterpolationResult α) := do
  let method ← liftError (InterpolationMethod.lookup methodId)
  let data ← engine.sampleFunction functionId start stop nodes
  liftError (Interpolation.interpolate method data point none)

/-- Solves a registered differential equation by all methods. -/
@[specialize] def solveOde (engine : Engine α) (functionId : Nat)
    (problem : InitialValueProblem α) : Except (Failure α) (OdeSolution α) := do
  let equation ← liftError (Registry.OdeEquation.lookup functionId)
  InitialValue.solve engine.config.initialValue equation.function problem

end Operations

/-- Solves a linear system given as a document. -/
def solveLinearText (engine : Engine Float) (document : String) :
    Except (Failure Float) (LinearSolveResult Float) := do
  let ⟨_, system, tolerance⟩ ← LinearSystem.parse document
  liftError (Jacobi.solve engine.config.jacobi system tolerance)

end Engine
end NumericalMethods
