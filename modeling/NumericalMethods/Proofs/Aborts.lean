import NumericalMethods.Proofs.ByIndex.Fits
import NumericalMethods.Proofs.ByIndex.Formula
import NumericalMethods.Proofs.ByIndex.Milne
import NumericalMethods.Proofs.ByIndex.Systems
import NumericalMethods.Proofs.Errors.Calls
import NumericalMethods.Proofs.InitialValue.Prefix
import NumericalMethods.Proofs.InitialValue.Refinement
import NumericalMethods.Proofs.LinearSystem.Document.Parse
import NumericalMethods.Proofs.Quadrature.Overflow

/-!
# Calls without an answer

Storage is reserved for the rows of a document, for the nodes of a sampled
function and for the points of a solution, in a number that a caller names or
that follows from the step of a grid.  A solution is computed with several
steps, so it ends without an answer if the search for a step comes to one that
is too small.  An integral ends without an answer if one of its counts of
subintervals leaves the machine words, since arithmetic on counts is checked.
These are the only places where a call can end without an answer.

No call ends because an index is out of range: what the loops of the methods
read and write by index is inside their lists, for all sizes.
-/

namespace NumericalMethods

/-! ## Sampling -/

namespace DataSet

variable {α : Type} [Scalar α]

/-- More nodes are asked for than can be stored, on an interval that can be
sampled.  A node takes 8 bytes. -/
structure Oversized (start stop : α) (count : ℕ) : Prop where
  isFinite_start : Scalar.isFinite start = true
  isFinite_stop : Scalar.isFinite stop = true
  not_le : ¬ stop ≤ start
  exceeds : largestBlock < count * 8

theorem sample_eq_abort_iff
    {f : ScalarFunction α} {start stop : α} {count : ℕ} {reason : Abort} :
    sample f start stop count = .error (.abort reason) ↔
      reason = .capacityExceeded ∧ Oversized start stop count := by
  rw [sample]
  by_cases hfew : count < 2
  · have hstored : ¬ largestBlock < count * 8 := by
      have hblock : 16 ≤ largestBlock := by decide
      omega
    rw [if_pos hfew]
    exact iff_of_false (fun h => by cases h) fun h => hstored h.2.exceeds
  · rw [if_neg hfew]
    by_cases hinterval : (!(Scalar.isFinite start && Scalar.isFinite stop) ||
        decide (stop ≤ start)) = true
    · rw [if_pos hinterval]
      refine iff_of_false (fun h => by cases h) fun h => ?_
      simp [h.2.isFinite_start, h.2.isFinite_stop, h.2.not_le] at hinterval
    · rw [if_neg hinterval, reserve_bind_eq_abort_iff fun _ =>
        liftError_ne_abort _]
      simp only [Bool.or_eq_true, Bool.not_eq_true', Bool.and_eq_false_iff,
        decide_eq_true_eq, not_or, Bool.not_eq_false] at hinterval
      obtain ⟨⟨hstart, hstop⟩, hle⟩ := hinterval
      exact and_congr_right fun _ =>
        ⟨fun h => ⟨hstart, hstop, hle, h⟩, fun h => h.exceeds⟩

end DataSet

/-! ## Solutions -/

namespace InitialValue

variable {α : Type} [Scalar α]

theorem solutionPoints_eq_abort_iff
    {settings : Settings} {method : OdeMethod} {f : OdeFunction α}
    {x0 y0 h tolerance : α} {n : ℕ} {reason : Abort} :
    solutionPoints settings method f x0 y0 h n tolerance =
        .error (.abort reason) ↔
      reason = .capacityExceeded ∧ ¬ Storable n := by
  rw [solutionPoints.eq_def, reserve_bind_eq_abort_iff fun _ =>
    liftError_ne_abort _, Storable,
    Nat.not_le]

/-- The search for a step comes to one with more points than can be stored.  The
runs with the larger steps succeeded, and their estimates were not within the
tolerance. -/
def Outgrows (settings : Settings) (method : OdeMethod) (f : OdeFunction α)
    (p : InitialValueProblem α) : Prop :=
  let search := stepSearch settings method f p
  ∃ i ≤ search.limit + 1, (∀ j, j + 1 < i → search.Misses j) ∧
    (∀ j < i, ∃ points, search.runAt j = .ok points) ∧
    ¬ Storable (gridSize p.x0 p.xn (halved p.step i))

theorem trace_eq_abort_iff
    {settings : Settings} {method : OdeMethod} {f : OdeFunction α}
    {p : InitialValueProblem α} {reason : Abort} :
    trace settings method f p = .error (.abort reason) ↔
      reason = .capacityExceeded ∧ Outgrows settings method f p := by
  obtain ⟨outcome, hends, htrace⟩ := exists_ends_of_trace settings method f p
  rw [htrace, map_eq_error_iff, hends.eq_error_iff]
  constructor
  · rintro ⟨i, hfails⟩
    obtain ⟨hreason, hlarge⟩ := solutionPoints_eq_abort_iff.mp hfails.error
    exact ⟨hreason, i, hfails.le_limit, hfails.misses_of_lt,
      hfails.ok_of_lt, hlarge⟩
  · rintro ⟨hreason, i, hlimit, hmisses, hok, hlarge⟩
    exact ⟨i, hlimit, hmisses, hok,
      solutionPoints_eq_abort_iff.mpr ⟨hreason, hlarge⟩⟩

/-- A problem ends without an answer if the run of one of the methods does. -/
theorem solve_eq_abort_iff
    {settings : Settings} {f : OdeFunction α} {p : InitialValueProblem α}
    {reason : Abort} :
    solve settings f p = .error (.abort reason) ↔
      reason = .capacityExceeded ∧ p.validate = .ok () ∧
        ∃ method, Outgrows settings method f p := by
  let runs := OdeMethod.all.map fun method => trace settings method f p
  have hmem : ∀ method, trace settings method f p ∈ runs := by
    intro method
    refine List.mem_map_of_mem ?_
    cases method <;> decide
  have hlimit : ∀ run ∈ runs, ∀ other, run = .error (.abort other) →
      other = .capacityExceeded := by
    intro run hrun other habort
    obtain ⟨method, -, rfl⟩ := List.mem_map.mp hrun
    exact (trace_eq_abort_iff.mp habort).1
  have hruns : (∃ run ∈ runs, run = .error (.abort .capacityExceeded)) ↔
      ∃ method, Outgrows settings method f p := by
    constructor
    · rintro ⟨run, hrun, habort⟩
      obtain ⟨method, -, rfl⟩ := List.mem_map.mp hrun
      exact ⟨method, (trace_eq_abort_iff.mp habort).2⟩
    · rintro ⟨method, hlarge⟩
      exact ⟨_, hmem method, trace_eq_abort_iff.mpr ⟨rfl, hlarge⟩⟩
  have hawait : await runs = .error (.abort reason) ↔
      reason = .capacityExceeded ∧ ∃ method, Outgrows settings method f p := by
    rw [await_eq_abort_iff hlimit, hruns]
  rw [solve, liftError_bind_eq_abort_iff]
  constructor
  · rintro ⟨⟨⟩, hvalid, h⟩
    rcases bind_eq_abort_iff.mp h with habort | ⟨_, hok, h⟩
    · obtain ⟨hreason, hlarge⟩ := hawait.mp habort
      exact ⟨hreason, hvalid, hlarge⟩
    · have hnone : ∀ method, trace settings method f p ≠
          .error (.abort reason) :=
        fun method => ne_abort_of_await_eq_ok hok (hmem method)
      rcases bind_eq_abort_iff.mp h with h | ⟨_, -, h⟩
      · exact absurd h (hnone .euler)
      · rcases bind_eq_abort_iff.mp h with h | ⟨_, -, h⟩
        · exact absurd h (hnone .extendedEuler)
        · rcases bind_eq_abort_iff.mp h with h | ⟨_, -, h⟩
          · exact absurd h (hnone .milne)
          · cases h
  · rintro ⟨hreason, hvalid, hlarge⟩
    exact ⟨(), hvalid,
      bind_eq_abort_iff.mpr (.inl (hawait.mpr ⟨hreason, hlarge⟩))⟩

end InitialValue

/-! ## Reading -/

namespace LinearSystem

theorem parse_eq_abort_iff {document : String} {reason : Abort} :
    parse document = .error (.abort reason) ↔
      reason = .capacityExceeded ∧ Oversized document := by
  by_cases hoversized : Oversized document
  · rw [parse_of_oversized hoversized]
    simp [hoversized, eq_comm]
  · rw [parse_of_not_oversized hoversized]
    simp [hoversized, liftError_ne_abort]

end LinearSystem

/-! ## Calls -/

theorem Registry.find_eq_ok_iff
    {α β : Type} {registry : String} {entries : List β} {id : ℕ} {entry : β} :
    (find registry entries id : Except (EngineError α) β) = .ok entry ↔
      entries[id]? = some entry := by
  rw [find]
  cases entries[id]? with
  | none => simp
  | some found => simp

theorem InterpolationMethod.lookup_eq_ok_iff {α : Type} {id : ℕ}
    {method : InterpolationMethod} :
    (lookup id : Except (EngineError α) InterpolationMethod) = .ok method ↔
      ofId? id = some method := by
  rw [lookup]
  cases ofId? id with
  | none => simp
  | some found => simp

theorem QuadratureRule.lookup_eq_ok_iff {α : Type} {id : ℕ}
    {rule : QuadratureRule} :
    (lookup id : Except (EngineError α) QuadratureRule) = .ok rule ↔
      ofId? id = some rule := by
  rw [lookup]
  cases ofId? id with
  | none => simp
  | some found => simp

namespace Call

/-- The calls that ask for more storage than can be addressed, or compute a
count beyond the machine words. -/
def Overflows : Call → Prop
  | readSystem document | engineLinearText _ document =>
    LinearSystem.Oversized document
  | sample _ start stop count => DataSet.Oversized start stop count
  | engineSample _ functionId start stop nodes =>
    Registry.Sample.all[functionId]?.isSome ∧ DataSet.Oversized start stop nodes
  | engineSampledInterpolation _ methodId functionId start stop nodes _ =>
    (InterpolationMethod.ofId? methodId).isSome ∧
      Registry.Sample.all[functionId]?.isSome ∧
      DataSet.Oversized start stop nodes
  | integrate settings rule f lower upper tolerance =>
    Quadrature.Overflows settings rule f lower upper tolerance
  | engineIntegral engine methodId functionId lower upper tolerance =>
    ∃ rule integrand, QuadratureRule.ofId? methodId = some rule ∧
      Registry.Integrand.all[functionId]? = some integrand ∧
      Quadrature.Overflows engine.config.quadrature rule integrand.function
        lower upper tolerance
  | milnePoints _ _ _ _ _ n _ => ¬ InitialValue.Storable n
  | traceOde settings method f problem =>
    InitialValue.Outgrows settings method f problem
  | solveOde settings f problem =>
    problem.validate = .ok () ∧
    ∃ method, InitialValue.Outgrows settings method f problem
  | engineOde engine functionId problem =>
    ∃ equation, Registry.OdeEquation.all[functionId]? = some equation ∧
      problem.validate = .ok () ∧
        ∃ method,
          InitialValue.Outgrows engine.config.initialValue method
            equation.function problem
  | _ => False

/-- How a call ends that ends without an answer. -/
def abortReason : Call → Abort
  | integrate .. | engineIntegral .. => .countOverflow
  | _ => .capacityExceeded

theorem sampleFunction_eq_abort_iff
    (engine : Engine Float) {functionId nodes : ℕ} {start stop : Float}
    {reason : Abort} :
    engine.sampleFunction functionId start stop nodes = .error (.abort reason) ↔
      reason = .capacityExceeded ∧ Registry.Sample.all[functionId]?.isSome ∧
        DataSet.Oversized start stop nodes := by
  rw [Engine.sampleFunction, liftError_bind_eq_abort_iff]
  simp only [Registry.Sample.lookup, Registry.find_eq_ok_iff,
    DataSet.sample_eq_abort_iff, Option.isSome_iff_exists]
  exact ⟨fun ⟨f, hf, hreason, h⟩ => ⟨hreason, ⟨f, hf⟩, h⟩,
    fun ⟨hreason, ⟨f, hf⟩, h⟩ => ⟨f, hf, hreason, h⟩⟩

theorem integrate_eq_abort_iff
    (engine : Engine Float) {methodId functionId : ℕ}
    {lower upper tolerance : Float} {reason : Abort} :
    engine.integrate methodId functionId lower upper tolerance =
        .error (.abort reason) ↔
      reason = .countOverflow ∧ ∃ rule integrand,
      QuadratureRule.ofId? methodId = some rule ∧
        Registry.Integrand.all[functionId]? = some integrand ∧
        Quadrature.Overflows engine.config.quadrature rule integrand.function
          lower upper tolerance := by
  have hbehind : ∀ rule (integrand : Integrable Float),
      (Quadrature.integrate engine.config.quadrature rule integrand lower upper
        tolerance >>= fun r => pure (r.registered functionId)) =
          .error (.abort reason) ↔
      reason = .countOverflow ∧
        Quadrature.Overflows engine.config.quadrature rule integrand lower upper
          tolerance := by
    intro rule integrand
    rw [bind_eq_abort_iff, or_iff_left, Quadrature.integrate_eq_abort_iff]
    rintro ⟨_, -, h⟩
    cases h
  rw [Engine.integrate, liftError_bind_eq_abort_iff]
  simp only [liftError_bind_eq_abort_iff, hbehind,
    QuadratureRule.lookup_eq_ok_iff, Registry.Integrand.lookup,
    Registry.find_eq_ok_iff]
  constructor
  · rintro ⟨rule, hrule, integrand, hintegrand, hreason, hlarge⟩
    exact ⟨hreason, rule, integrand, hrule, hintegrand, hlarge⟩
  · rintro ⟨hreason, rule, integrand, hrule, hintegrand, hlarge⟩
    exact ⟨rule, hrule, integrand, hintegrand, hreason, hlarge⟩

/-- A call ends without an answer exactly if it asks for more storage than can
be addressed or computes a count beyond the machine words, and for no other
reason. -/
theorem outcome_eq_abort_iff (call : Call) (reason : Abort) :
    call.outcome = .error (.abort reason) ↔
      reason = call.abortReason ∧ call.Overflows := by
  cases call with
  | readSystem document =>
      exact (map_eq_error_iff _).trans LinearSystem.parse_eq_abort_iff
  | engineLinearText engine document =>
      refine (map_eq_error_iff _).trans ?_
      rw [Engine.solveLinearText, bind_eq_abort_iff]
      refine (or_iff_left ?_).trans LinearSystem.parse_eq_abort_iff
      rintro ⟨_, -, h⟩
      exact liftError_ne_abort _ h
  | sample f start stop count =>
      exact (map_eq_error_iff _).trans DataSet.sample_eq_abort_iff
  | engineSample engine functionId start stop nodes =>
      exact (map_eq_error_iff _).trans (sampleFunction_eq_abort_iff engine)
  | engineSampledInterpolation engine methodId functionId start stop
      nodes point =>
      refine (map_eq_error_iff _).trans ?_
      rw [Engine.interpolateFunction, liftError_bind_eq_abort_iff]
      have hbehind : ∀ method,
          (engine.sampleFunction functionId start stop nodes >>= fun data =>
          liftError (Interpolation.interpolate method data point none)) =
            .error (.abort reason) ↔
          reason = .capacityExceeded ∧ Registry.Sample.all[functionId]?.isSome ∧
            DataSet.Oversized start stop nodes := by
        intro method
        rw [bind_eq_abort_iff, ← sampleFunction_eq_abort_iff engine]
        exact or_iff_left fun ⟨_, _, h⟩ => liftError_ne_abort _ h
      simp only [hbehind, InterpolationMethod.lookup_eq_ok_iff, Overflows,
        Option.isSome_iff_exists (x := InterpolationMethod.ofId? methodId)]
      exact ⟨fun ⟨method, hmethod, hreason, h⟩ =>
        ⟨hreason, ⟨method, hmethod⟩, h⟩,
        fun ⟨hreason, ⟨method, hmethod⟩, h⟩ => ⟨method, hmethod, hreason, h⟩⟩
  | integrate settings rule f lower upper tolerance =>
      exact (map_eq_error_iff _).trans Quadrature.integrate_eq_abort_iff
  | engineIntegral engine methodId functionId lower upper tolerance =>
      exact (map_eq_error_iff _).trans (integrate_eq_abort_iff engine)
  | milnePoints =>
      exact (map_eq_error_iff _).trans InitialValue.solutionPoints_eq_abort_iff
  | traceOde settings method f problem =>
      exact (map_eq_error_iff _).trans InitialValue.trace_eq_abort_iff
  | solveOde settings f problem =>
      exact (map_eq_error_iff _).trans InitialValue.solve_eq_abort_iff
  | engineOde engine functionId problem =>
      refine (map_eq_error_iff _).trans ?_
      rw [Engine.solveOde, liftError_bind_eq_abort_iff]
      simp only [Registry.OdeEquation.lookup, Registry.find_eq_ok_iff,
        InitialValue.solve_eq_abort_iff, Overflows]
      exact ⟨fun ⟨equation, hequation, hreason, h⟩ =>
        ⟨hreason, equation, hequation, h⟩,
        fun ⟨hreason, equation, hequation, h⟩ =>
          ⟨equation, hequation, hreason, h⟩⟩
  | _ => exact iff_of_false (liftError_ne_abort _) fun h => h.2

/-- The loops over indices of a fit. -/
def FitInRange (weakCorrelation : Float) (model : Model)
    (data : DataSet Float) : Prop :=
  (∀ x y line : List Float, LeastSquares.polynomialFit x y 1 = some line →
    LeastSquares.fromLogarithmsByIndex line =
      .ok (LeastSquares.fromLogarithms line)) ∧
  ∀ r, LeastSquares.fit weakCorrelation model data = .ok r →
    LeastSquares.ReadsInRange r

/-- The coefficients of a system of equations, read from its rows. -/
def RowsInRange (rows : List (List Float)) : Prop :=
  (∀ row ∈ rows, row.length = rows.length) →
    LinearSystem.rowsByIndex rows = .ok rows

/-- The exchange of the rows of a system. -/
def ExchangeInRange {n : ℕ} (s : LinearSystem Float n) : Prop :=
  ∀ target, s.dominantPermutation = some target →
    s.permutedByIndex (target.map Fin.val) = .ok (s.permuted target)

/-- The selection of nodes from points: the order of all points in which shared
abscissas are searched, and the order of those that are selected. -/
def SelectionInRange (data : DataSet Float) (point : Float)
    (amount : Option ℕ) : Prop :=
  (∃ order : List (Fin data.points.length),
    Interpolation.ascending data.points = order.map fun i => data.points[i]) ∧
  ∀ nodes, Interpolation.selectNodes data point amount = .ok nodes →
    ∃ order : List (Fin data.points.length), nodes.points = order.map fun i =>
      data.points[i]

/-- The loops over indices of an interpolation. -/
def InterpolationInRange (method : InterpolationMethod) (data : DataSet Float)
    (point : Float) (amount : Option ℕ) : Prop :=
  SelectionInRange data point amount ∧
  (∀ x : List Float, Interpolation.isEquallySpacedByIndex x =
    .ok (Interpolation.isEquallySpaced x)) ∧
  ∀ r, Interpolation.interpolate method data point amount = .ok r →
    Interpolation.ReadsInRange r

/-- The rounds of the method of Milne from a start, with any step. -/
def MilneInRange (cap : ℕ) (f : OdeFunction Float) (x0 y0 : Float) : Prop :=
  ∀ (h : Float) (n : ℕ) (tolerance : Float),
    InitialValue.milnePointsByIndex f cap x0 y0 h n tolerance =
      liftError (InitialValue.milnePoints f cap x0 y0 h n tolerance)

/-- All loops over indices of a call stay inside their lists.  Where a call
makes the data of such a loop itself, this is said of all data. -/
def IndicesInRange : Call → Prop
  | systemOfRows rows _ => RowsInRange rows
  | readSystem _ => ∀ rows, RowsInRange rows
  | iterateSystem _ _ s _ => ExchangeInRange s
  | engineLinear _ rows _ _ =>
    RowsInRange rows ∧ ∀ s : LinearSystem Float rows.length, ExchangeInRange s
  | engineLinearText _ _ =>
    ∀ rows, RowsInRange rows ∧ ∀ s : LinearSystem Float rows.length,
      ExchangeInRange s
  | fit weakCorrelation model data => FitInRange weakCorrelation model data
  | fitAll weakCorrelation data =>
    ∀ model, FitInRange weakCorrelation model data
  | engineFitAll engine _ _ | engineFit engine _ _ _ =>
    ∀ model data, FitInRange engine.config.weakCorrelation model data
  | selectNodes data point amount => SelectionInRange data point amount
  | interpolate method data point amount =>
    InterpolationInRange method data point amount
  | engineInterpolation _ _ _ _ point amount =>
    ∀ method data, InterpolationInRange method data point amount
  | engineSampledInterpolation _ _ _ _ _ _ point =>
    ∀ method data, InterpolationInRange method data point none
  | milnePoints settings f x0 y0 _ _ _ =>
    MilneInRange settings.maxCorrectorIterations f x0 y0
  | traceOde settings _ f problem | solveOde settings f problem =>
    MilneInRange settings.maxCorrectorIterations f problem.x0 problem.y0
  | engineOde engine _ problem =>
    ∀ f, MilneInRange engine.config.maxCorrectorIterations f
      problem.x0 problem.y0
  | _ => True

theorem indicesInRange (call : Call) : call.IndicesInRange := by
  have hfit : ∀ weakCorrelation model data,
      FitInRange weakCorrelation model data :=
    fun _ _ _ => ⟨fun _ _ _ => LeastSquares.fromLogarithmsByIndex_eq_ok,
      fun _ => LeastSquares.readsInRange⟩
  have hrows : ∀ rows, RowsInRange rows :=
    fun _ => LinearSystem.rowsByIndex_eq_ok
  have hexchange : ∀ {n} (s : LinearSystem Float n), ExchangeInRange s :=
    fun _ _ => LinearSystem.permutedByIndex_of_dominantPermutation
  have hselection : ∀ data point amount, SelectionInRange data point amount :=
    fun data _ _ =>
      ⟨⟨_, Interpolation.ascending_eq_map_ascendingOrder data.points⟩,
      fun _ hnodes => ⟨_, (Interpolation.points_of_selectNodes_eq_ok hnodes).1⟩⟩
  have hinterpolation : ∀ method data point amount,
      InterpolationInRange method data point amount :=
    fun _ _ _ _ =>
      ⟨hselection _ _ _, Interpolation.isEquallySpacedByIndex_eq_ok,
      fun _ => Interpolation.readsInRange⟩
  have hmilne : ∀ cap f x0 y0, MilneInRange cap f x0 y0 :=
    fun cap f _ _ h n tolerance =>
      InitialValue.milnePointsByIndex_eq f cap _ _ h n tolerance
  cases call with
  | systemOfRows rows _ => exact hrows rows
  | readSystem => exact hrows
  | iterateSystem _ _ s => exact hexchange s
  | engineLinear _ rows => exact ⟨hrows rows, hexchange⟩
  | engineLinearText => exact fun rows => ⟨hrows rows, hexchange⟩
  | fit => exact hfit _ _ _
  | fitAll => exact fun _ => hfit _ _ _
  | engineFitAll | engineFit => exact hfit _
  | selectNodes => exact hselection _ _ _
  | interpolate => exact hinterpolation _ _ _ _
  | engineInterpolation | engineSampledInterpolation =>
      exact fun _ _ => hinterpolation _ _ _ _
  | milnePoints | traceOde | solveOde => exact hmilne _ _ _ _
  | engineOde => exact fun _ => hmilne _ _ _ _
  | _ => trivial

/-- A call is without an answer exactly if it asks for more storage than can be
addressed or computes a count beyond the machine words, and its loops over
indices never leave their lists. -/
theorem aborts_exactly_if_overflows (call : Call) (reason : Abort) :
    (call.outcome = .error (.abort reason) ↔
        reason = call.abortReason ∧ call.Overflows) ∧
      call.IndicesInRange :=
  ⟨call.outcome_eq_abort_iff reason, call.indicesInRange⟩

/-- An engine asked for more nodes than can be stored. -/
def hugeSample : Call :=
  .engineSample ⟨.standard⟩ 0 (-1e308) 1.7e308 1152921504606846976

/-- Two points on a line. -/
def rising : DataSet Float :=
  ⟨[(0, 1), (1, 3)]⟩

theorem aborts_exactly_if_overflows_hugeSample :
    hugeSample.outcome = .error (.abort .capacityExceeded) ∧
      (∀ reason, (fit 0.8 .linear rising).outcome ≠ .error (.abort reason)) ∧
      ∃ r, LeastSquares.fit 0.8 .linear rising = .ok r ∧
        LeastSquares.ReadsInRange r := by
  have hoverflows : hugeSample.Overflows :=
    ⟨rfl, by decide +kernel, by decide +kernel, by decide +kernel, by decide⟩
  have hfitted : (LeastSquares.fit 0.8 .linear rising).toOption.map
      (·.coefficients) =
      some [1, 2] := by
    decide +kernel
  obtain ⟨r, hr, -⟩ := exists_eq_ok_of_map_eq_some hfitted
  have habort := (aborts_exactly_if_overflows hugeSample .capacityExceeded).1
  obtain ⟨-, -, hreads⟩ :=
    aborts_exactly_if_overflows (fit 0.8 .linear rising) .capacityExceeded
  refine ⟨habort.mpr ⟨rfl, hoverflows⟩, fun reason h => ?_, r, hr, hreads r hr⟩
  exact ((aborts_exactly_if_overflows (fit 0.8 .linear rising) reason).1.mp h).2

end Call
end NumericalMethods
