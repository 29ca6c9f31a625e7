import NumericalMethods.Engine
import NumericalMethods.Proofs.Errors.InitialValue
import NumericalMethods.Proofs.Errors.Solvers

/-!
# The errors of an engine

An operation of an engine looks up what it is asked for and calls a solver, so
its errors are those of the lookups and of the solver.
-/

namespace NumericalMethods

open EngineError

/-! ## Lookups -/

section Lookups

variable {α : Type} {kept : PartialTrace α → Prop}

theorem raises_lookup_rootMethod (id : ℕ) :
    Raises (Reported [.unknownMethodId] kept)
      (RootMethod.lookup (α := α) id) := by
  rw [RootMethod.lookup]
  split
  · exact raises_ok _
  · exact raises_plain (by simp [kind]) rfl

theorem raises_lookup_quadratureRule (id : ℕ) :
    Raises (Reported [.unknownMethodId] kept)
      (QuadratureRule.lookup (α := α) id) := by
  rw [QuadratureRule.lookup]
  split
  · exact raises_ok _
  · exact raises_plain (by simp [kind]) rfl

theorem raises_lookup_model (id : ℕ) :
    Raises (Reported [.unknownMethodId] kept) (Model.lookup (α := α) id) := by
  rw [Model.lookup]
  split
  · exact raises_ok _
  · exact raises_plain (by simp [kind]) rfl

theorem raises_lookup_interpolationMethod (id : ℕ) :
    Raises (Reported [.unknownMethodId] kept)
      (InterpolationMethod.lookup (α := α) id) := by
  rw [InterpolationMethod.lookup]
  split
  · exact raises_ok _
  · exact raises_plain (by simp [kind]) rfl

theorem raises_find {β : Type} (registry : String) (entries : List β) (id : ℕ) :
    Raises (Reported [.unknownFunctionId] kept)
      (Registry.find (α := α) registry entries id) := by
  rw [Registry.find]
  split
  · exact raises_ok _
  · exact raises_plain (by simp [kind]) rfl

theorem raises_lookup_logLevel (name : String) :
    Raises (Reported [.invalidParameter] kept)
      (LogLevel.lookup (α := α) name) := by
  rw [LogLevel.lookup]
  split
  · exact raises_ok _
  · exact raises_plain (by simp [kind]) rfl

theorem raises_validate_config [Scalar α] (config : Config α) :
    Raises (Reported [.invalidParameter] kept) config.validate := by
  rw [Config.validate]
  split
  · exact raises_plain (by simp [kind]) rfl
  · split
    · exact raises_plain (by simp [kind]) rfl
    · split
      · exact raises_plain (by simp [kind]) rfl
      · split
        · exact (raises_lookup_logLevel _).map _
        · exact raises_plain (by simp [kind]) rfl

end Lookups

/-! ## Operations -/

namespace Engine

variable {α : Type} [Elementary α]

theorem raises_make {kept : PartialTrace α → Prop} (config : Config α) :
    Raises (Reported [.invalidParameter] kept) (make config) :=
  (raises_validate_config config).map _

theorem raises_solveEquation
    (engine : Engine α) (methodId functionId : ℕ) (start : RootStart α)
    (tolerance : α) :
    Raises (Reported [.unknownMethodId, .unknownFunctionId, .invalidParameter,
      .invalidBracket,
        .zeroDerivative, .zeroDivisor, .divergenceDetected]
          PartialTrace.IsSteps)
      (engine.solveEquation methodId functionId start tolerance) := by
  refine ((raises_lookup_rootMethod methodId).widen (by simp)).bind
    fun method _ => ?_
  refine ((raises_find _ _ functionId).widen (by simp)).bind
    fun equation _ => ?_
  have hkinds : RootFinding.errorKinds method ⊆
      [.unknownMethodId, .unknownFunctionId,
      .invalidParameter, .invalidBracket, .zeroDerivative, .zeroDivisor,
      .divergenceDetected] := by
    cases method <;> simp [RootFinding.errorKinds]
  exact ((RootFinding.raises_solve _ _ _ _ _).widen hkinds).bind fun result _ =>
    raises_ok _

theorem raises_solveSystem
    (engine : Engine α) (functionId : ℕ) (guess : α × α) (tolerance : α) :
    Raises (Reported [.unknownFunctionId, .invalidParameter, .singularJacobian,
        .divergenceDetected] PartialTrace.IsSteps)
      (engine.solveSystem functionId guess tolerance) := by
  refine ((raises_find _ _ functionId).widen (by simp)).bind fun system _ => ?_
  exact ((PlaneNewton.raises_solve _ _ _ _).widen (by simp)).bind fun result
    _ => raises_ok _

theorem raises_solveLinear
    (engine : Engine α) (rows : List (List α)) (rhs : List α) (tolerance : α) :
    Raises (Reported [.insufficientData, .invalidParameter, .singularMatrix,
      .zeroDivisor,
        .divergenceDetected] PartialTrace.IsSteps)
      (engine.solveLinear rows rhs tolerance) := by
  refine ((LinearSystem.raises_ofRows rows rhs).widen (by simp)).bind
    fun system _ => ?_
  exact (Jacobi.raises_solve _ _ _).widen (by simp)

theorem raises_solveLinearText (engine : Engine Float) (document : String) :
    Raises (Failure.ErrorHas
      (Reported [.insufficientData, .invalidParameter, .singularMatrix,
        .zeroDivisor, .divergenceDetected] PartialTrace.IsSteps))
      (engine.solveLinearText document) := by
  refine ((LinearSystem.raises_parse document).widenError (by simp)).bind
    fun d _ => ?_
  refine raises_liftError ?_
  exact (Jacobi.raises_solve _ _ _).widen (by simp)

theorem raises_integrate
    (engine : Engine α) (methodId functionId : ℕ) (lower upper tolerance : α) :
    Raises (Failure.ErrorHas (Reported [.unknownMethodId, .unknownFunctionId,
        .invalidParameter, .outOfDomain, .divergentIntegral,
        .divergenceDetected]
        PartialTrace.IsSteps))
      (engine.integrate methodId functionId lower upper tolerance) := by
  refine (raises_liftError
    ((raises_lookup_quadratureRule methodId).widen (by simp))).bind
      fun rule _ => ?_
  refine (raises_liftError
    ((raises_find _ _ functionId).widen (by simp))).bind fun integrand _ => ?_
  refine ((Quadrature.raises_integrate _ _ _ _ _ _).widenError
    (by simp)).bind fun result _ => ?_
  exact raises_ok _

theorem raises_approximate (engine : Engine α) (x y : List α) :
    Raises (Reported [.insufficientData, .invalidParameter, .noApplicableModel]
        PartialTrace.IsSteps) (engine.approximate x y) := by
  refine ((DataSet.raises_ofLists x y).widen (by simp)).bind fun data _ => ?_
  exact (LeastSquares.raises_report _ _).widen (by simp)

theorem raises_approximateWith (engine : Engine α) (modelId : ℕ)
    (x y : List α) :
    Raises (Reported [.unknownMethodId, .insufficientData, .invalidParameter]
        PartialTrace.IsSteps) (engine.approximateWith modelId x y) := by
  refine ((raises_lookup_model modelId).widen (by simp)).bind fun model _ => ?_
  refine ((DataSet.raises_ofLists x y).widen (by simp)).bind fun data _ => ?_
  exact (LeastSquares.raises_fit _ _ _).widen (by simp)

theorem raises_interpolate
    (engine : Engine α) (methodId : ℕ) (x y : List α) (point : α)
    (nodes : Option ℕ) :
    Raises (Reported [.unknownMethodId, .insufficientData, .duplicateNodes,
      .invalidParameter,
        .unequalSpacing] PartialTrace.IsSteps)
      (engine.interpolate methodId x y point nodes) := by
  refine ((raises_lookup_interpolationMethod methodId).widen (by simp)).bind
    fun method _ => ?_
  refine ((DataSet.raises_ofLists x y).widen (by simp)).bind fun data _ => ?_
  exact (Interpolation.raises_interpolate _ _ _ _).widen (by simp)

theorem raises_sampleFunction
    (engine : Engine α) (functionId : ℕ) (start stop : α) (nodes : ℕ) :
    Raises (Failure.ErrorHas (Reported [.unknownFunctionId, .invalidParameter]
        PartialTrace.IsSteps))
          (engine.sampleFunction functionId start stop nodes) := by
  refine (raises_liftError ((raises_find _ _ functionId).widen (by simp))).bind
    fun function _ => ?_
  exact (DataSet.raises_sample _ _ _ _).widenError (by simp)

theorem raises_interpolateFunction
    (engine : Engine α) (methodId functionId : ℕ) (start stop : α) (nodes : ℕ)
    (point : α) :
    Raises (Failure.ErrorHas (Reported [.unknownMethodId, .unknownFunctionId,
        .insufficientData, .duplicateNodes, .invalidParameter, .unequalSpacing]
        PartialTrace.IsSteps))
      (engine.interpolateFunction methodId functionId start stop
        nodes point) := by
  refine (raises_liftError
    ((raises_lookup_interpolationMethod methodId).widen (by simp))).bind
      fun method _ => ?_
  refine ((engine.raises_sampleFunction functionId start stop nodes).widenError
    (by simp)).bind fun data _ => ?_
  exact raises_liftError
    ((Interpolation.raises_interpolate _ _ _ _).widen (by simp))

theorem raises_solveOde
    (engine : Engine α) (functionId : ℕ) (problem : InitialValueProblem α) :
    Raises (Failure.ErrorHas (Reported [.unknownFunctionId, .invalidParameter,
        .divergenceDetected, .correctorDivergence]
        (PartialTrace.IsPointsFrom (problem.x0, problem.y0))))
      (engine.solveOde functionId problem) := by
  refine (raises_liftError ((raises_find _ _ functionId).widen (by simp))).bind
    fun equation _ => ?_
  exact (InitialValue.raises_solve _ _ _).widenError (by simp)

end Engine
end NumericalMethods
