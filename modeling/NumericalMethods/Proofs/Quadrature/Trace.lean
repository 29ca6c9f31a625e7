import NumericalMethods.Proofs.Quadrature.Pieces
import NumericalMethods.Proofs.Quadrature.Tolerance

/-!
# The trace over several pieces

The trace of a quadrature is that of the runs on its pieces, one behind the
other and numbered throughout.  Its value, its estimate and its number of
subintervals are sums over these runs.  When the integrand is not finite on a
piece, the steps on the pieces before and the steps already made on this one
are kept.
-/

namespace NumericalMethods
namespace Quadrature

section

variable {α : Type} [Scalar α] {settings : Settings α}
  {rule : QuadratureRule} {f : α → α} {tolerance : α}

/-! ## Sums over runs -/

theorem value_foldl_add
    (runs : List (Run (QuadratureStep α) (Estimate α))) (t : Total α) :
    (runs.foldl Total.add t).value =
      runs.foldl (fun sum run => sum + run.state.value) t.value :=
  (List.foldl_hom Total.value fun _ _ => rfl).symm

theorem subintervals_foldl_add
    (runs : List (Run (QuadratureStep α) (Estimate α))) (t : Total α) :
    (runs.foldl Total.add t).subintervals =
      t.subintervals + (runs.map fun run => run.state.subintervals).sum := by
  induction runs generalizing t with
  | nil => simp
  | cons run runs ih =>
      rw [List.foldl_cons, ih, List.map_cons, List.sum_cons, Total.add,
        Nat.add_assoc]

theorem entries_foldl_add
    (runs : List (Run (QuadratureStep α) (Estimate α))) (t : Total α) :
    (runs.foldl Total.add t).entries =
      t.entries ++ runs.flatMap Run.entries := by
  induction runs generalizing t with
  | nil => simp
  | cons run runs ih =>
      rw [List.foldl_cons, ih, List.flatMap_cons, Total.add, List.append_assoc]

/-- A result that adds up the runs on the pieces. -/
structure AddsUp (tolerance : α)
    (runs : List (Run (QuadratureStep α) (Estimate α)))
    (r : SolveResult α) : Prop where
  data : r.steps.map Step.data = (runs.flatMap Run.entries).map .quadrature
  iteration : r.steps.map Step.iteration = List.range' 1 r.steps.length
  value : r.value = runs.foldl (fun sum run => sum + run.state.value) 0
  errorValue : r.errorValue =
    runs.foldl (fun sum run => sum + run.state.rungeError) 0
  iterations : r.iterations = (runs.map fun run => run.state.subintervals).sum
  converged : r.converged = true ↔
    ∀ run ∈ runs, run.state.rungeError < tolerance

/-! ## A piece with a breakdown -/

/-- The pieces before one that breaks down have their runs. -/
theorem exists_runs_of_overPieces_eq_error
    {total : Total α} {parts : List (α × α)} {e : EngineError α}
    (he : overPieces settings rule f tolerance total parts =
      .error (.error e)) :
    ∃ front part rest runs cause made, parts = front ++ part :: rest ∧
      List.Forall₂ (fun part run =>
        refinePiece settings rule f part.1 part.2 tolerance = .ok run)
          front runs ∧
      refinePiece settings rule f part.1 part.2 tolerance =
        .error (.breakdown cause made) ∧
      e = .ofSteps cause
        (((runs.foldl Total.add total).entries ++ made).map .quadrature) := by
  induction parts generalizing total with
  | nil => cases he
  | cons part parts ih =>
      rw [overPieces] at he
      cases hrun : refinePiece settings rule f part.1 part.2 tolerance with
      | error stopped =>
          cases stopped with
          | breakdown cause made =>
              simp only [hrun, Except.error.injEq, Failure.error.injEq] at he
              exact ⟨[], part, parts, [], cause, made, rfl, .nil, hrun, he.symm⟩
          | abort reason => simp [hrun] at he
      | ok run =>
          simp only [hrun] at he
          split at he
          · cases he
          · obtain ⟨front, last, rest, runs, cause, made, rfl, hruns, hlast,
                rfl⟩ := ih he
            exact ⟨part :: front, last, rest, run :: runs, cause, made, rfl,
              .cons hrun hruns, hlast, rfl⟩

theorem kind_ne_divergenceDetected_of_pieces_eq_error
    {g : Integrable α} {margin lower upper : α} {e : EngineError α}
    (he : pieces g margin lower upper = .error e) :
    e.kind ≠ .divergenceDetected := by
  rw [pieces_eq] at he
  split at he
  · obtain rfl := Except.error.inj he
    exact nofun
  · split at he
    · obtain rfl := Except.error.inj he
      exact nofun
    · cases he

theorem kind_ne_divergenceDetected_of_acceptedPieces_eq_error
    {g : Integrable α} {margin lower upper : α} {e : EngineError α}
    (he : acceptedPieces g margin lower upper tolerance = .error e) :
    e.kind ≠ .divergenceDetected := by
  intro hkind
  rw [acceptedPieces] at he
  split at he
  · obtain rfl := Except.error.inj he
    cases hkind
  · split at he
    · obtain rfl := Except.error.inj he
      cases hkind
    · split at he
      · obtain rfl := Except.error.inj he
        cases hkind
      · exact kind_ne_divergenceDetected_of_pieces_eq_error he hkind

/-- An integral whose integrand is not finite has met this on one of its
pieces. -/
theorem exists_runs_of_integrate_eq_error
    {g : Integrable α} {lower upper : α} {e : EngineError α}
    (he : integrate settings rule g lower upper tolerance = .error (.error e))
    (hkind : e.kind = .divergenceDetected) :
    ∃ front part rest runs cause made,
      pieces g settings.singularityOffset lower upper =
        .ok (front ++ part :: rest) ∧
      List.Forall₂ (fun part run =>
        refinePiece settings rule g.evaluate part.1 part.2 tolerance = .ok run)
          front runs ∧
      refinePiece settings rule g.evaluate part.1 part.2 tolerance =
        .error (.breakdown cause made) ∧
      e = .ofSteps cause
        ((runs.flatMap Run.entries ++ made).map .quadrature) := by
  rw [integrate_eq] at he
  cases haccepted : acceptedPieces g settings.singularityOffset lower upper
      tolerance with
  | error e' =>
      rw [haccepted] at he
      obtain rfl : e' = e := Failure.error.inj (Except.error.inj he)
      exact absurd hkind
        (kind_ne_divergenceDetected_of_acceptedPieces_eq_error haccepted)
  | ok parts =>
      obtain ⟨-, hparts⟩ := acceptedPieces_eq_ok_iff.mp haccepted
      rw [haccepted] at he
      obtain ⟨front, part, rest, runs, cause, made, rfl, hruns, hlast, rfl⟩ :=
        exists_runs_of_overPieces_eq_error ((map_eq_error_iff _).mp he)
      refine ⟨front, part, rest, runs, cause, made, hparts, hruns, hlast, ?_⟩
      rw [entries_foldl_add, List.nil_append]

end

/-! ## Binary numbers -/

/-- The trace, the sums and the convergence of every result, and the trace of
every integral whose integrand was not finite. -/
theorem integrate_trace
    (settings : Settings Float) (rule : QuadratureRule) (g : Integrable Float)
    (lower upper tolerance : Float) :
    (∀ r, integrate settings rule g lower upper tolerance = .ok r →
      ∃ parts runs, pieces g settings.singularityOffset lower upper =
          .ok parts ∧
        List.Forall₂ (fun part run =>
          ComesTo settings rule g.evaluate tolerance part (.ok run))
            parts runs ∧
        AddsUp tolerance runs r) ∧
    (∀ e, integrate settings rule g lower upper tolerance = .error (.error e) →
      e.kind = .divergenceDetected →
      ∃ front part rest runs made,
        pieces g settings.singularityOffset lower upper =
          .ok (front ++ part :: rest) ∧
        List.Forall₂ (fun part run =>
          ComesTo settings rule g.evaluate tolerance part (.ok run))
            front runs ∧
        ComesTo settings rule g.evaluate tolerance part
          (.error (.breakdown (.integrandNotFinite part.1 part.2) made)) ∧
        e = .ofSteps (.integrandNotFinite part.1 part.2)
          ((runs.flatMap Run.entries ++ made).map .quadrature)) := by
  constructor
  · intro r hr
    obtain ⟨parts, runs, hparts, hruns, rfl⟩ :=
      exists_runs_of_integrate_eq_ok hr
    refine ⟨parts, runs, hparts,
      hruns.imp fun _ _ hrun => comesTo_of_refinePiece_eq hrun (by simp), ?_⟩
    have hsettled : ∀ run ∈ runs,
        (run.settled = true ↔ run.state.rungeError < tolerance) := by
      intro run hrun
      obtain ⟨i, hi, rfl⟩ := List.getElem_of_mem hrun
      exact settled_iff_of_refinePiece_eq_ok
        (Binary64.not_infinity_lt tolerance)
        (hruns.get (by rw [hruns.length_eq]; exact hi) hi)
    constructor
    · simp [result, Step.map_data_number, entries_foldl_add]
    · rw [result, Step.map_iteration_number]
      simp [Step.number]
    · exact value_foldl_add runs _
    · exact errorValue_foldl_add runs _
    · simp [result, subintervals_foldl_add]
    · rw [converged_result_iff]
      exact forall₂_congr hsettled
  · intro e he hkind
    obtain ⟨front, part, rest, runs, cause, made, hparts, hruns, hlast, rfl⟩ :=
      exists_runs_of_integrate_eq_error he hkind
    have hcomes := comesTo_of_refinePiece_eq hlast (by simp)
    obtain rfl := cause_eq_of_refinePiece_eq_error hlast
    exact ⟨front, part, rest, runs, made, hparts,
      hruns.imp fun _ _ hrun =>
        comesTo_of_refinePiece_eq hrun (by simp), hcomes, rfl⟩

/-- The identity up to zero, where it is said to be singular, and infinite
behind. -/
def infiniteBehindZero : Integrable Float where
  evaluate x := if x ≤ 0 then x else Scalar.infinity
  antiderivative x := some x
  singularPoints := [0]

/-- Two pieces with two doublings each, and a breakdown on the second piece that
keeps the doublings on the first one. -/
theorem integrate_trace_cutIdentity :
    (∃ r parts runs,
      integrate ⟨1, 64, 1e-9⟩ .leftRectangles cutIdentity (-1) 1 0.2 = .ok r ∧
      r.steps.length = 4 ∧
      List.Forall₂ (fun part run =>
        ComesTo ⟨1, 64, 1e-9⟩ .leftRectangles cutIdentity.evaluate 0.2
          part (.ok run))
        parts runs ∧
      AddsUp 0.2 runs r) ∧
    ∃ (e : EngineError Float) (part : Float × Float)
      (made : List (QuadratureStep Float)),
      integrate ⟨1, 64, 1e-9⟩ .leftRectangles infiniteBehindZero (-1) 1 0.2 =
        .error (.error e) ∧
      e.kind = .divergenceDetected ∧
      e.partialTrace?.map PartialTrace.length = some 2 ∧
      e = .ofSteps (.integrandNotFinite part.1 part.2)
        (made.map .quadrature) := by
  constructor
  · have hvalue :
        (integrate ⟨1, 64, 1e-9⟩ .leftRectangles cutIdentity (-1) 1
          0.2).toOption.map
        (fun r => r.steps.length) = some 4 := by
      decide +kernel
    obtain ⟨r, hr, hlength⟩ := exists_eq_ok_of_map_eq_some hvalue
    obtain ⟨parts, runs, -, hruns, hsum⟩ := (integrate_trace _ _ _ _ _ _).1 r hr
    exact ⟨r, parts, runs, hr, hlength, hruns, hsum⟩
  · have hvalue :
        (match integrate ⟨1, 64, 1e-9⟩ .leftRectangles infiniteBehindZero
          (-1) 1 0.2 with
        | .error (.error e) =>
            some (e.kind, e.partialTrace?.map PartialTrace.length)
        | _ => none) =
        some (.divergenceDetected, some 2) := by
      decide +kernel
    cases he : integrate ⟨1, 64, 1e-9⟩ .leftRectangles infiniteBehindZero
      (-1) 1 0.2 with
    | ok r => simp [he] at hvalue
    | error failure =>
        cases failure with
        | abort reason => simp [he] at hvalue
        | error e =>
            simp only [he, Option.some.injEq, Prod.mk.injEq] at hvalue
            obtain ⟨front, part, rest, runs, made, -, -, -, hend⟩ :=
              (integrate_trace _ _ _ _ _ _).2 e he hvalue.1
            exact ⟨e, part, _, rfl, hvalue.1, hvalue.2, hend⟩

end Quadrature
end NumericalMethods
