import NumericalMethods.Proofs.Errors.Engine

/-!
# The errors of all operations

`Call` lists the solvers and the operations of an engine with their arguments,
the functions to be searched, integrated or solved among them.  The method of
Milne can also be called with a start and a number of steps of its own.  An
error of any call tells by its kind whether it keeps a partial trace, and by the
call which trace that is.
-/

namespace NumericalMethods

open EngineError

/-! ## Calls -/

/-- A call of a solver, or of an operation of an engine, with all its
arguments. -/
inductive Call where
  | halfDivision (settings : RootSettings Float) (f : ScalarFunction Float)
      (a b tolerance : Float)
  | simpleIteration (settings : RootSettings Float) (f : ScalarFunction Float)
      (start : RootStart Float) (tolerance : Float)
  | newton (settings : RootSettings Float) (f : ScalarFunction Float)
      (start : RootStart Float) (tolerance : Float)
  | secant (settings : RootSettings Float) (f : ScalarFunction Float)
      (start : RootStart Float) (tolerance : Float)
  | findRoot (settings : RootSettings Float) (method : RootMethod)
      (f : ScalarFunction Float)
      (start : RootStart Float) (tolerance : Float)
  | findCommonRoot (settings : PlaneNewton.Settings Float)
      (system : PlaneSystem Float)
      (guess : Float × Float) (tolerance : Float)
  | makeSystem (m n : ℕ) (matrix : Grid Float m n) (rhs : List Float)
  | systemOfRows (rows : List (List Float)) (rhs : List Float)
  | readSystem (document : String)
  | iterateSystem (n : ℕ) (settings : Jacobi.Settings Float)
      (s : LinearSystem Float n) (tolerance : Float)
  | integrate (settings : Quadrature.Settings Float) (rule : QuadratureRule)
      (f : Integrable Float) (lower upper tolerance : Float)
  | tabulate (x y : List Float)
  | sample (f : ScalarFunction Float) (start stop : Float) (count : ℕ)
  | fit (weakCorrelation : Float) (model : Model) (data : DataSet Float)
  | fitAll (weakCorrelation : Float) (data : DataSet Float)
  | selectNodes (data : DataSet Float) (point : Float) (amount : Option ℕ)
  | interpolate (method : InterpolationMethod) (data : DataSet Float)
      (point : Float) (amount : Option ℕ)
  | milnePoints (settings : InitialValue.Settings) (f : OdeFunction Float)
      (x0 y0 h : Float) (n : ℕ) (tolerance : Float)
  | traceOde (settings : InitialValue.Settings) (method : OdeMethod)
      (f : OdeFunction Float)
      (problem : InitialValueProblem Float)
  | solveOde (settings : InitialValue.Settings) (f : OdeFunction Float)
      (problem : InitialValueProblem Float)
  | makeEngine (config : Config Float)
  | engineEquation (engine : Engine Float) (methodId functionId : ℕ)
      (start : RootStart Float) (tolerance : Float)
  | engineSystem (engine : Engine Float) (functionId : ℕ)
      (guess : Float × Float) (tolerance : Float)
  | engineLinear (engine : Engine Float) (rows : List (List Float))
      (rhs : List Float) (tolerance : Float)
  | engineLinearText (engine : Engine Float) (document : String)
  | engineIntegral (engine : Engine Float) (methodId functionId : ℕ)
      (lower upper tolerance : Float)
  | engineFitAll (engine : Engine Float) (x y : List Float)
  | engineFit (engine : Engine Float) (modelId : ℕ) (x y : List Float)
  | engineInterpolation (engine : Engine Float) (methodId : ℕ)
      (x y : List Float) (point : Float) (nodes : Option ℕ)
  | engineSample (engine : Engine Float) (functionId : ℕ)
      (start stop : Float) (nodes : ℕ)
  | engineSampledInterpolation (engine : Engine Float) (methodId functionId : ℕ)
      (start stop : Float) (nodes : ℕ) (point : Float)
  | engineOde (engine : Engine Float) (functionId : ℕ)
      (problem : InitialValueProblem Float)

namespace Call

/-- How a call ends, whatever its result is. -/
def outcome : Call → Except (Failure Float) Unit
  | halfDivision settings f a b tolerance =>
    liftError
      ((RootFinding.halfDivision settings f a b tolerance).map fun _ => ())
  | simpleIteration settings f start tolerance =>
    liftError
      ((RootFinding.simpleIteration settings f start tolerance).map fun _ => ())
  | newton settings f start tolerance =>
    liftError ((RootFinding.newton settings f start tolerance).map fun _ => ())
  | secant settings f start tolerance =>
    liftError ((RootFinding.secant settings f start tolerance).map fun _ => ())
  | findRoot settings method f start tolerance =>
    liftError
      ((RootFinding.solve settings method f start tolerance).map fun _ => ())
  | findCommonRoot settings system guess tolerance =>
    liftError
      ((PlaneNewton.solve settings system guess tolerance).map fun _ => ())
  | makeSystem _ _ matrix rhs =>
    liftError ((LinearSystem.make matrix rhs).map fun _ => ())
  | systemOfRows rows rhs =>
    liftError ((LinearSystem.ofRows rows rhs).map fun _ => ())
  | readSystem document => (LinearSystem.parse document).map fun _ => ()
  | iterateSystem _ settings s tolerance =>
    liftError ((Jacobi.solve settings s tolerance).map fun _ => ())
  | integrate settings rule f lower upper tolerance =>
    (Quadrature.integrate settings rule f lower upper tolerance).map fun _ => ()
  | tabulate x y => liftError ((DataSet.ofLists x y).map fun _ => ())
  | sample f start stop count =>
    (DataSet.sample f start stop count).map fun _ => ()
  | fit weakCorrelation model data =>
    liftError ((LeastSquares.fit weakCorrelation model data).map fun _ => ())
  | fitAll weakCorrelation data =>
    liftError ((LeastSquares.report weakCorrelation data).map fun _ => ())
  | selectNodes data point amount =>
    liftError ((Interpolation.selectNodes data point amount).map fun _ => ())
  | interpolate method data point amount =>
    liftError
      ((Interpolation.interpolate method data point amount).map fun _ => ())
  | milnePoints settings f x0 y0 h n tolerance =>
    (InitialValue.solutionPoints settings .milne f x0 y0 h n tolerance).map
      fun _ => ()
  | traceOde settings method f problem =>
    (InitialValue.trace settings method f problem).map fun _ => ()
  | solveOde settings f problem =>
    (InitialValue.solve settings f problem).map fun _ => ()
  | makeEngine config => liftError ((Engine.make config).map fun _ => ())
  | engineEquation engine methodId functionId start tolerance =>
    liftError
      ((engine.solveEquation methodId functionId start tolerance).map
        fun _ => ())
  | engineSystem engine functionId guess tolerance =>
    liftError ((engine.solveSystem functionId guess tolerance).map fun _ => ())
  | engineLinear engine rows rhs tolerance =>
    liftError ((engine.solveLinear rows rhs tolerance).map fun _ => ())
  | engineLinearText engine document =>
    (engine.solveLinearText document).map fun _ => ()
  | engineIntegral engine methodId functionId lower upper tolerance =>
    (engine.integrate methodId functionId lower upper tolerance).map fun _ => ()
  | engineFitAll engine x y =>
    liftError ((engine.approximate x y).map fun _ => ())
  | engineFit engine modelId x y =>
    liftError ((engine.approximateWith modelId x y).map fun _ => ())
  | engineInterpolation engine methodId x y point nodes =>
    liftError ((engine.interpolate methodId x y point nodes).map fun _ => ())
  | engineSample engine functionId start stop nodes =>
    (engine.sampleFunction functionId start stop nodes).map fun _ => ()
  | engineSampledInterpolation engine methodId functionId start stop
      nodes point =>
    (engine.interpolateFunction methodId functionId start stop nodes point).map
      fun _ => ()
  | engineOde engine functionId problem =>
    (engine.solveOde functionId problem).map fun _ => ()

/-- The point a call starts from, if it solves a differential equation. -/
def start? : Call → Option (Float × Float)
  | milnePoints _ _ x0 y0 _ _ _ => some (x0, y0)
  | traceOde _ _ _ problem | solveOde _ _ problem | engineOde _ _ problem =>
    some (problem.x0, problem.y0)
  | _ => none

/-- The kinds of error a call can end with. -/
def errorKinds : Call → List ErrorKind
  | halfDivision .. => [.invalidBracket]
  | simpleIteration .. | newton .. =>
    [.invalidParameter, .zeroDerivative, .divergenceDetected]
  | secant .. => [.zeroDivisor, .divergenceDetected]
  | findRoot _ method .. => RootFinding.errorKinds method
  | findCommonRoot .. =>
    [.invalidParameter, .singularJacobian, .divergenceDetected]
  | makeSystem .. | systemOfRows .. | readSystem .. | tabulate .. =>
    [.insufficientData, .invalidParameter]
  | iterateSystem .. =>
    [.invalidParameter, .singularMatrix, .zeroDivisor, .divergenceDetected]
  | integrate .. =>
    [.invalidParameter, .outOfDomain, .divergentIntegral, .divergenceDetected]
  | sample .. | makeEngine .. => [.invalidParameter]
  | fit .. => [.insufficientData]
  | fitAll .. => [.insufficientData, .noApplicableModel]
  | selectNodes .. => [.insufficientData, .duplicateNodes, .invalidParameter]
  | interpolate .. =>
    [.insufficientData, .duplicateNodes, .invalidParameter, .unequalSpacing]
  | milnePoints .. => InitialValue.errorKinds .milne
  | traceOde _ method .. => InitialValue.errorKinds method
  | solveOde .. =>
    [.invalidParameter, .divergenceDetected, .correctorDivergence]
  | engineEquation .. =>
    [.unknownMethodId, .unknownFunctionId, .invalidParameter, .invalidBracket,
      .zeroDerivative, .zeroDivisor, .divergenceDetected]
  | engineSystem .. =>
    [.unknownFunctionId, .invalidParameter, .singularJacobian,
      .divergenceDetected]
  | engineLinear .. | engineLinearText .. =>
    [.insufficientData, .invalidParameter, .singularMatrix, .zeroDivisor,
      .divergenceDetected]
  | engineIntegral .. =>
    [.unknownMethodId, .unknownFunctionId, .invalidParameter, .outOfDomain,
      .divergentIntegral, .divergenceDetected]
  | engineFitAll .. =>
    [.insufficientData, .invalidParameter, .noApplicableModel]
  | engineFit .. => [.unknownMethodId, .insufficientData, .invalidParameter]
  | engineInterpolation .. =>
    [.unknownMethodId, .insufficientData, .duplicateNodes, .invalidParameter,
      .unequalSpacing]
  | engineSample .. => [.unknownFunctionId, .invalidParameter]
  | engineSampledInterpolation .. =>
    [.unknownMethodId, .unknownFunctionId, .insufficientData, .duplicateNodes,
      .invalidParameter, .unequalSpacing]
  | engineOde .. =>
    [.unknownFunctionId, .invalidParameter, .divergenceDetected,
      .correctorDivergence]

/-- What a call keeps when it breaks down. -/
def Keeps (call : Call) (t : PartialTrace Float) : Prop :=
  match call.start? with
  | some start => t.IsPointsFrom start
  | none => t.IsSteps

theorem raises_outcome (call : Call) :
    Raises (Failure.ErrorHas (Reported call.errorKinds call.Keeps))
      call.outcome := by
  cases call with
  | halfDivision =>
      exact raises_liftError ((RootFinding.raises_halfDivision _ _ _ _ _).map _)
  | simpleIteration =>
      exact raises_liftError
        ((RootFinding.raises_simpleIteration _ _ _ _).map _)
  | newton => exact raises_liftError ((RootFinding.raises_newton _ _ _ _).map _)
  | secant => exact raises_liftError ((RootFinding.raises_secant _ _ _ _).map _)
  | findRoot =>
      exact raises_liftError ((RootFinding.raises_solve _ _ _ _ _).map _)
  | findCommonRoot =>
      exact raises_liftError ((PlaneNewton.raises_solve _ _ _ _).map _)
  | makeSystem => exact raises_liftError ((LinearSystem.raises_make _ _).map _)
  | systemOfRows =>
      exact raises_liftError ((LinearSystem.raises_ofRows _ _).map _)
  | readSystem => exact (LinearSystem.raises_parse _).map _
  | iterateSystem => exact raises_liftError ((Jacobi.raises_solve _ _ _).map _)
  | integrate => exact (Quadrature.raises_integrate _ _ _ _ _ _).map _
  | tabulate => exact raises_liftError ((DataSet.raises_ofLists _ _).map _)
  | sample => exact (DataSet.raises_sample _ _ _ _).map _
  | fit => exact raises_liftError ((LeastSquares.raises_fit _ _ _).map _)
  | fitAll => exact raises_liftError ((LeastSquares.raises_report _ _).map _)
  | selectNodes =>
      exact raises_liftError ((Interpolation.raises_selectNodes _ _ _).map _)
  | interpolate =>
      exact raises_liftError ((Interpolation.raises_interpolate _ _ _ _).map _)
  | milnePoints =>
      exact (InitialValue.raises_solutionPoints _ _ _ _ _ _ _ _).map _
  | traceOde => exact (InitialValue.raises_trace _ _ _ _).map _
  | solveOde => exact (InitialValue.raises_solve _ _ _).map _
  | makeEngine => exact raises_liftError ((Engine.raises_make _).map _)
  | engineEquation =>
      exact raises_liftError ((Engine.raises_solveEquation _ _ _ _ _).map _)
  | engineSystem =>
      exact raises_liftError ((Engine.raises_solveSystem _ _ _ _).map _)
  | engineLinear =>
      exact raises_liftError ((Engine.raises_solveLinear _ _ _ _).map _)
  | engineLinearText => exact (Engine.raises_solveLinearText _ _).map _
  | engineIntegral => exact (Engine.raises_integrate _ _ _ _ _ _).map _
  | engineFitAll =>
      exact raises_liftError ((Engine.raises_approximate _ _ _).map _)
  | engineFit =>
      exact raises_liftError ((Engine.raises_approximateWith _ _ _ _).map _)
  | engineInterpolation =>
      exact raises_liftError ((Engine.raises_interpolate _ _ _ _ _ _).map _)
  | engineSample => exact (Engine.raises_sampleFunction _ _ _ _ _).map _
  | engineSampledInterpolation =>
      exact (Engine.raises_interpolateFunction _ _ _ _ _ _ _).map _
  | engineOde => exact (Engine.raises_solveOde _ _ _).map _

/-- An error keeps a partial trace exactly if its kind is one of the five kinds
of breakdown.  The trace consists of points if the call solves a differential
equation, the first one being its start, and their ordinates are finite if that
one is; otherwise it consists of steps.  The kinds of warnings are never those
of an error. -/
theorem error_disciplined
    (call : Call) {e : EngineError Float}
    (he : call.outcome = .error (.error e)) :
    (e.partialTrace?.isSome = true ↔
      e.kind ∈ [ErrorKind.zeroDerivative, .zeroDivisor,
      .singularJacobian, .correctorDivergence, .divergenceDetected]) ∧
    (∀ t, e.partialTrace? = some t →
      match call.start? with
      | some start => ∃ points, t = .points points ∧ points.head? = some start ∧
        (start.2.isFinite = true → ∀ point ∈ points, point.2.isFinite = true)
      | none => ∃ steps, t = .steps steps) ∧
    e.kind ∉ ErrorKind.advisory ∧ e.kind ∈ call.errorKinds := by
  have hreported : e.Reported call.errorKinds call.Keeps :=
    call.raises_outcome (.error e) he
  refine ⟨hreported.isSome_partialTrace?_iff, ?_,
    hreported.kind_not_mem_advisory, hreported.kind_mem⟩
  intro t ht
  have hkept := hreported.kept_of_partialTrace?_eq_some ht
  rw [Keeps] at hkept
  cases hcall : call.start? with
  | none =>
      rw [hcall] at hkept
      obtain ⟨made, hmade⟩ := hkept
      exact ⟨_, hmade⟩
  | some start =>
      rw [hcall] at hkept
      obtain ⟨made, hpoints, hfinite⟩ := hkept
      refine ⟨_, hpoints, rfl, fun hstart point hpoint => ?_⟩
      rcases List.mem_cons.mp hpoint with rfl | hmade
      · exact hstart
      · exact hfinite point hmade

/-- A right-hand side without a value anywhere. -/
def undefinedSlope : OdeFunction Float where
  rhs _ _ := Scalar.undefined
  name := "y' = ?"
  integrationConstant _ _ := none
  exactSolution _ _ := none
  exactFormula := none

/-- A call that cannot make a single step. -/
def stuckAtStart : Call :=
  .traceOde ⟨100, false, 0⟩ .milne undefinedSlope ⟨0, 1, 1, 0.5, 0.01⟩

/-- The method of Milne by itself, as many steps as it is told to. -/
def stuckByItself : Call :=
  .milnePoints ⟨100, false, 0⟩ undefinedSlope 0 1 0.5 7 0.01

/-- A call breaks down, and the points it keeps are finite. -/
def KeepsFinitePoints (call : Call) : Prop :=
  ∃ e, call.outcome = .error (.error e) ∧ e.kind = .divergenceDetected ∧
    ∃ points, e.partialTrace? = some (.points points) ∧
      ∀ point ∈ points, point.2.isFinite = true

theorem error_disciplined_stuckAtStart :
    KeepsFinitePoints stuckAtStart ∧ KeepsFinitePoints stuckByItself := by
  have houtcome : ∀ call ∈ [stuckAtStart, stuckByItself],
      call.outcome = .error (.error (.breakdown (.solutionNotFinite "Milne")
        (.points [(0, 1)]))) := by
    decide +kernel
  have hstart : ∀ call ∈ [stuckAtStart, stuckByItself],
      call.start? = some (0, 1) := by
    decide +kernel
  have hkeeps : ∀ call ∈ [stuckAtStart, stuckByItself],
      KeepsFinitePoints call := by
    intro call hcall
    obtain ⟨hsome, htrace, -, -⟩ := error_disciplined call (houtcome call hcall)
    obtain ⟨t, ht⟩ :=
      Option.isSome_iff_exists.mp (hsome.mpr (by simp [kind, Breakdown.kind]))
    have hpoints := htrace t ht
    rw [hstart call hcall] at hpoints
    obtain ⟨points, rfl, -, hfinite⟩ := hpoints
    exact ⟨_, houtcome call hcall, rfl, points, ht, hfinite (by decide +kernel)⟩
  exact ⟨hkeeps stuckAtStart (by simp), hkeeps stuckByItself (by simp)⟩

end Call
end NumericalMethods
