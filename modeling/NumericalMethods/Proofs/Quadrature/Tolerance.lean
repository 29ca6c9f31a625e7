import NumericalMethods.Proofs.Binary64.Order
import NumericalMethods.Proofs.Quadrature.Doublings
import NumericalMethods.Proofs.Quadrature.Integral
import NumericalMethods.Proofs.Trace

/-!
# The tolerance on several pieces

On each piece of an interval the number of subintervals is doubled until the
estimated error of this piece is below the tolerance, and the estimates of all
pieces are added up.  So the estimate of a converged result is below the
tolerance if there is one piece.  If there are several, it is a sum of estimates
that are, and the sum need not be.
-/

namespace NumericalMethods
namespace Quadrature

section

variable {α : Type} [Scalar α] {rule : QuadratureRule}

/-! ## All pieces -/

theorem errorValue_foldl_add
    (runs : List (Run (QuadratureStep α) (Estimate α))) (t : Total α) :
    (runs.foldl Total.add t).errorValue =
      runs.foldl (fun sum run => sum + run.state.rungeError) t.errorValue :=
  (List.foldl_hom Total.errorValue fun _ _ => rfl).symm

theorem warnings_foldl_add
    (runs : List (Run (QuadratureStep α) (Estimate α))) (t : Total α) :
    (runs.foldl Total.add t).warnings =
      t.warnings ++ runs.flatMap fun run =>
        if run.settled then
          []
        else [.convergenceFailure run.state.subintervals] := by
  induction runs generalizing t with
  | nil => simp
  | cons run runs ih =>
      rw [List.foldl_cons, ih, List.flatMap_cons, Total.add, List.append_assoc]

theorem converged_result_iff
    (g : Integrable α) (lower upper : α)
    (runs : List (Run (QuadratureStep α) (Estimate α))) :
    (result rule g lower upper
      (runs.foldl Total.add ⟨0, 0, 0, [], []⟩)).converged = true ↔
      ∀ run ∈ runs, run.settled = true := by
  simp only [SolveResult.converged, result, warnings_foldl_add, Warning.occurs,
    List.nil_append, List.any_flatMap, Bool.not_eq_true', Bool.or_eq_false_iff,
    List.any_eq_false]
  constructor
  · rintro ⟨-, h⟩ run hrun
    by_contra hcapped
    exact h run hrun (by simp [hcapped, Warning.kind])
  · intro h
    constructor
    · intro run hrun
      simp [h run hrun]
    · intro run hrun
      simp [h run hrun]

end

/-! ## Binary numbers -/

variable {settings : Settings Float} {rule : QuadratureRule}
  {g : Integrable Float} {lower upper tolerance : Float}

/-- A result has converged exactly when the estimate on each piece is below the
tolerance.  Its own estimate is the sum of these, so it is below the tolerance
if there is one piece. -/
theorem converged_iff_of_integrate_eq_ok
    {r : SolveResult Float}
    (hr : integrate settings rule g lower upper tolerance = .ok r) :
    ∃ parts runs, pieces g settings.singularityOffset lower upper = .ok parts ∧
      List.Forall₂ (fun part run =>
        refinePiece settings rule g.evaluate part.1 part.2 tolerance = .ok run)
          parts runs ∧
      r.errorValue = runs.foldl (fun sum run => sum + run.state.rungeError) 0 ∧
      (r.converged = true ↔ ∀ run ∈ runs, run.state.rungeError < tolerance) ∧
      (parts.length = 1 → (r.converged = true ↔ r.errorValue < tolerance)) := by
  obtain ⟨parts, runs, hparts, hruns, rfl⟩ := exists_runs_of_integrate_eq_ok hr
  have hsettled : ∀ run ∈ runs,
      (run.settled = true ↔ run.state.rungeError < tolerance) := by
    intro run hrun
    obtain ⟨i, hi, rfl⟩ := List.getElem_of_mem hrun
    exact settled_iff_of_refinePiece_eq_ok (Binary64.not_infinity_lt tolerance)
      (hruns.get (by rw [hruns.length_eq]; exact hi) hi)
  have hconverged : (result rule g lower upper
      (runs.foldl Total.add ⟨0, 0, 0, [], []⟩)).converged = true ↔
        ∀ run ∈ runs, run.state.rungeError < tolerance := by
    rw [converged_result_iff]
    exact forall₂_congr hsettled
  refine ⟨parts, runs, hparts, hruns, errorValue_foldl_add runs _,
    hconverged, ?_⟩
  intro hone
  rw [hconverged]
  obtain ⟨run, rfl⟩ : ∃ run, runs = [run] := by
    rw [← List.length_eq_one_iff, ← hruns.length_eq, hone]
  have herror : (result rule g lower upper
      ([run].foldl Total.add ⟨0, 0, 0, [], []⟩)).errorValue =
        0 + run.state.rungeError := rfl
  rw [herror, Binary64.zero_add_lt_iff]
  simp

/-- The identity, said to be singular at zero. -/
def cutIdentity : Integrable Float where
  evaluate x := x
  antiderivative x := some (x * x / 2)
  singularPoints := [0]

/-- On two pieces both estimates are below the tolerance, and their sum
is not. -/
theorem converged_iff_of_integrate_eq_ok_cutIdentity :
    ∃ r, integrate ⟨4, 64, 1e-9⟩ .leftRectangles cutIdentity (-1) 1 0.1 =
        .ok r ∧
      r.converged = true ∧ ¬ r.errorValue < 0.1 ∧
      ∃ first second : Estimate Float, first.rungeError < 0.1 ∧
        second.rungeError < 0.1 ∧
        r.errorValue = 0 + first.rungeError + second.rungeError := by
  have hvalue :
      (integrate ⟨4, 64, 1e-9⟩ .leftRectangles cutIdentity (-1) 1
        0.1).toOption.map
      (fun r => (r.converged, decide (r.errorValue < 0.1))) =
        some (true, false) := by
    decide +kernel
  have hpieces : (pieces cutIdentity 1e-9 (-1) 1).toOption.map List.length =
      some 2 := by
    decide +kernel
  obtain ⟨r, hr, hend⟩ := exists_eq_ok_of_map_eq_some hvalue
  obtain ⟨hconverged, herror⟩ : r.converged = true ∧
      decide (r.errorValue < 0.1) = false :=
    Prod.ext_iff.mp hend
  obtain ⟨parts, runs, hparts, hruns, hsum, hiff, -⟩ :=
    converged_iff_of_integrate_eq_ok hr
  rw [hparts] at hpieces
  have htwo : runs.length = 2 := by
    rw [← hruns.length_eq]
    exact Option.some.inj hpieces
  obtain ⟨first, second, rfl⟩ := List.length_eq_two.mp htwo
  have hbelow := hiff.mp hconverged
  exact ⟨r, hr, hconverged, of_decide_eq_false herror, first.state,
    second.state, hbelow first (by simp), hbelow second (by simp), hsum⟩

end Quadrature
end NumericalMethods
