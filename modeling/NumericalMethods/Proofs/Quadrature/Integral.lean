import Mathlib.Data.List.Forall2
import NumericalMethods.Proofs.Failure
import NumericalMethods.Quadrature

/-!
# An integral and the runs on its pieces

An integral that passes its checks adds up the runs on its pieces, from left to
right.  A run that ends well is one of doublings, from a first count that is a
machine word, and the sum of the counts stays one with every run that is added.
-/

namespace NumericalMethods
namespace Quadrature

variable {α : Type} [Scalar α] {settings : Settings α} {rule : QuadratureRule}
  {f : α → α} {tolerance : α}

omit [Scalar α] in
theorem conclude_eq_ok_iff
    {outcome : Except (Breakdown α × List (QuadratureStep α))
      (Run (QuadratureStep α) (Estimate α))}
    {run : Run (QuadratureStep α) (Estimate α)} :
    conclude outcome = .ok run ↔ outcome = .ok run ∧
      (run.settled = false → 2 * run.state.subintervals <
        Machine.countBound) := by
  cases outcome with
  | error stopped => simp [conclude]
  | ok other =>
      rw [conclude, Except.ok.injEq]
      split
      · next hlarge =>
        refine iff_of_false (by simp) ?_
        rintro ⟨rfl, hfits⟩
        exact Nat.not_lt.mpr hlarge.2 (hfits hlarge.1)
      · next hfits =>
        rw [Except.ok.injEq]
        refine (and_iff_left_of_imp ?_).symm
        rintro rfl hcapped
        exact Nat.not_le.mp fun hlarge => hfits ⟨hcapped, hlarge⟩

/-- A run that ended well is one of doublings. -/
theorem iterate_of_refinePiece_eq_ok
    {a b : α} {run : Run (QuadratureStep α) (Estimate α)}
    (hrun : refinePiece settings rule f a b tolerance = .ok run) :
    let n := rule.startingCount settings.initialSubintervals
    n < Machine.countBound ∧ Scalar.isFinite (rule.composite f a b n) = true ∧
      iterate
        (double (rule.composite f a b) (Scalar.rungeDivisor rule.order)
          tolerance a b)
        (doublings n settings.maxSubintervals)
        ⟨n, rule.composite f a b n, Scalar.infinity⟩ = .ok run := by
  rw [refinePiece] at hrun
  dsimp only at hrun ⊢
  split at hrun
  · cases hrun
  · next hword =>
    split at hrun
    · next hfinite =>
      exact ⟨Nat.not_le.mp hword, hfinite, (conclude_eq_ok_iff.mp hrun).1⟩
    · cases hrun

/-! ## Pieces -/

theorem overPieces_cons_eq_ok_iff
    {total t : Total α} {part : α × α} {rest : List (α × α)} :
    overPieces settings rule f tolerance total (part :: rest) = .ok t ↔
      ∃ run, refinePiece settings rule f part.1 part.2 tolerance = .ok run ∧
        (total.add run).subintervals < Machine.countBound ∧
        overPieces settings rule f tolerance (total.add run) rest = .ok t := by
  rw [overPieces]
  cases hrun : refinePiece settings rule f part.1 part.2 tolerance with
  | error stopped => cases stopped <;> simp
  | ok run =>
      dsimp only
      split
      · next hlarge => simp [Nat.not_lt.mpr hlarge]
      · next hfits => simp [Nat.not_le.mp hfits]

/-- Pieces in a row are those in front, and then the others. -/
theorem overPieces_append
    (total : Total α) (front rest : List (α × α)) :
    overPieces settings rule f tolerance total (front ++ rest) =
      (overPieces settings rule f tolerance total front >>= fun t =>
        overPieces settings rule f tolerance t rest) := by
  induction front generalizing total with
  | nil => rfl
  | cons part front ih =>
      rw [List.cons_append, overPieces, overPieces]
      cases refinePiece settings rule f part.1 part.2 tolerance with
      | error stopped => cases stopped <;> rfl
      | ok run =>
          dsimp only
          split
          · rfl
          · exact ih _

theorem exists_runs_of_overPieces_eq_ok
    {total t : Total α} {parts : List (α × α)}
    (ht : overPieces settings rule f tolerance total parts = .ok t) :
    ∃ runs, List.Forall₂ (fun part run =>
        refinePiece settings rule f part.1 part.2 tolerance = .ok run)
          parts runs ∧
      t = runs.foldl Total.add total := by
  induction parts generalizing total with
  | nil => exact ⟨[], .nil, (Except.ok.inj ht).symm⟩
  | cons part parts ih =>
      obtain ⟨run, hrun, -, hrest⟩ := overPieces_cons_eq_ok_iff.mp ht
      obtain ⟨runs, hruns, rfl⟩ := ih hrest
      exact ⟨run :: runs, .cons hrun hruns, rfl⟩

/-! ## Integrals -/

/-- The arguments of an integral are such that it looks for its pieces. -/
structure Accepts (g : Integrable α) (lower upper tolerance : α) : Prop where
  isPositiveFinite_tolerance : Scalar.isPositiveFinite tolerance = true
  isFinite_lower : Scalar.isFinite lower = true
  isFinite_upper : Scalar.isFinite upper = true
  not_le : ¬ upper ≤ lower
  inDomain : leavesDomain g lower upper = false

/-- The pieces an integral looks for once its arguments pass the checks. -/
def acceptedPieces (g : Integrable α) (margin lower upper tolerance : α) :
    Except (EngineError α) (List (α × α)) :=
  if !Scalar.isPositiveFinite tolerance then
    .error (.invalidParameter (.tolerance tolerance))
  else if !(Scalar.isFinite lower && Scalar.isFinite upper) ||
      decide (upper ≤ lower) then
    .error (.invalidParameter (.integrationBounds lower upper))
  else if leavesDomain g lower upper then
    .error (.outOfDomain lower upper "integrand")
  else pieces g margin lower upper

theorem acceptedPieces_eq_ok_iff
    {g : Integrable α} {margin lower upper : α} {parts : List (α × α)} :
    acceptedPieces g margin lower upper tolerance = .ok parts ↔
      Accepts g lower upper tolerance ∧
      pieces g margin lower upper = .ok parts := by
  rw [acceptedPieces]
  split
  · next htolerance =>
    refine iff_of_false nofun fun h => ?_
    simp [h.1.isPositiveFinite_tolerance] at htolerance
  · next htolerance =>
    split
    · next hbounds =>
      refine iff_of_false nofun fun h => ?_
      simp [h.1.isFinite_lower, h.1.isFinite_upper, h.1.not_le] at hbounds
    · next hbounds =>
      split
      · next hdomain =>
        refine iff_of_false nofun fun h => ?_
        simp [h.1.inDomain] at hdomain
      · next hdomain =>
        simp only [Bool.not_eq_true, Bool.or_eq_false_iff, Bool.not_eq_false',
          Bool.and_eq_true, decide_eq_false_iff_not]
          at htolerance hbounds hdomain
        exact (and_iff_right ⟨htolerance, hbounds.1.1, hbounds.1.2, hbounds.2,
          hdomain⟩).symm

/-- Once there are pieces, an integral adds up the runs on them. -/
theorem integrate_eq
    (settings : Settings α) (rule : QuadratureRule) (g : Integrable α)
    (lower upper tolerance : α) :
    integrate settings rule g lower upper tolerance =
      liftError (acceptedPieces g settings.singularityOffset lower upper
        tolerance) >>= fun parts =>
      (overPieces settings rule g.evaluate tolerance ⟨0, 0, 0, [], []⟩
        parts).map (result rule g lower upper) := by
  rw [integrate, acceptedPieces]
  by_cases htolerance : (!Scalar.isPositiveFinite tolerance) = true
  · simp only [if_pos htolerance]
    rfl
  · simp only [if_neg htolerance]
    by_cases hbounds : (!(Scalar.isFinite lower && Scalar.isFinite upper) ||
        decide (upper ≤ lower)) = true
    · simp only [if_pos hbounds]
      rfl
    · simp only [if_neg hbounds]
      by_cases hdomain : leavesDomain g lower upper = true
      · simp only [if_pos hdomain]
        rfl
      · simp only [if_neg hdomain]
        cases pieces g settings.singularityOffset lower upper with
        | error e => rfl
        | ok parts =>
            cases overPieces settings rule g.evaluate tolerance
              ⟨0, 0, 0, [], []⟩ parts with
            | error failure => rfl
            | ok total => rfl

/-- A result is that of the runs on all pieces. -/
theorem integrate_eq_ok_iff
    {g : Integrable α} {lower upper : α} {r : SolveResult α} :
    integrate settings rule g lower upper tolerance = .ok r ↔
      Accepts g lower upper tolerance ∧ ∃ parts total,
        pieces g settings.singularityOffset lower upper = .ok parts ∧
        overPieces settings rule g.evaluate tolerance ⟨0, 0, 0, [], []⟩ parts =
          .ok total ∧
        r = result rule g lower upper total := by
  simp only [integrate_eq, bind_eq_ok_iff, liftError_eq_ok_iff,
    acceptedPieces_eq_ok_iff, map_eq_ok_iff]
  constructor
  · rintro ⟨parts, ⟨haccepts, hparts⟩, total, htotal, rfl⟩
    exact ⟨haccepts, parts, total, hparts, htotal, rfl⟩
  · rintro ⟨haccepts, parts, total, hparts, htotal, rfl⟩
    exact ⟨parts, ⟨haccepts, hparts⟩, total, htotal, rfl⟩

/-- A result is that of one run on each piece. -/
theorem exists_runs_of_integrate_eq_ok
    {g : Integrable α} {lower upper : α} {r : SolveResult α}
    (hr : integrate settings rule g lower upper tolerance = .ok r) :
    ∃ parts runs, pieces g settings.singularityOffset lower upper = .ok parts ∧
      List.Forall₂ (fun part run =>
        refinePiece settings rule g.evaluate part.1 part.2 tolerance = .ok run)
          parts runs ∧
      r = result rule g lower upper
        (runs.foldl Total.add ⟨0, 0, 0, [], []⟩) := by
  obtain ⟨-, parts, total, hparts, htotal, rfl⟩ := integrate_eq_ok_iff.mp hr
  obtain ⟨runs, hruns, rfl⟩ := exists_runs_of_overPieces_eq_ok htotal
  exact ⟨parts, runs, hparts, hruns, rfl⟩

/-- A result has integrated over the pieces in front of each piece, and over
that piece as well. -/
theorem exists_overPieces_and_refinePiece
    {g : Integrable α} {lower upper : α} {r : SolveResult α}
    {front rest : List (α × α)} {part : α × α}
    (hr : integrate settings rule g lower upper tolerance = .ok r)
    (hparts : pieces g settings.singularityOffset lower upper =
      .ok (front ++ part :: rest)) :
    (∃ t, overPieces settings rule g.evaluate tolerance ⟨0, 0, 0, [], []⟩
      front = .ok t) ∧
      ∃ run, refinePiece settings rule g.evaluate part.1 part.2 tolerance =
        .ok run := by
  obtain ⟨-, parts, total, hfound, htotal, -⟩ := integrate_eq_ok_iff.mp hr
  obtain rfl := Except.ok.inj (hparts.symm.trans hfound)
  rw [overPieces_append, bind_eq_ok_iff] at htotal
  obtain ⟨t, hfront, hrest⟩ := htotal
  obtain ⟨run, hrun, -, -⟩ := overPieces_cons_eq_ok_iff.mp hrest
  exact ⟨⟨t, hfront⟩, run, hrun⟩

end Quadrature
end NumericalMethods
