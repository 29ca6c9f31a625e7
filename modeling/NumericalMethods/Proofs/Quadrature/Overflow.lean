import NumericalMethods.Proofs.Quadrature.Arguments

/-!
# Integrals whose counts leave the machine words

Three counts of an integral can be too large for a machine word: the first one
of a piece, which is made even for parabolas, the next one behind the last one
that is taken, which is computed before it is compared with the cap, and the sum
over the pieces.  Where one of them is, the integral ends without an answer, and
it does for no other reason.
-/

namespace NumericalMethods
namespace Quadrature

variable {α : Type} [Scalar α] {settings : Settings α} {rule : QuadratureRule}
  {f : α → α} {tolerance : α} {reason : Abort}

/-- A run on a piece computes a count beyond the machine words: the first one,
or the next one behind the last one it takes the value on. -/
def PieceOverflows (settings : Settings α) (rule : QuadratureRule) (f : α → α)
    (tolerance : α) (part : α × α) : Prop :=
  let d := onPiece settings rule f tolerance part
  Machine.countBound ≤ d.start ∨ ∃ k, d.Reaches k ∧
    Scalar.isFinite (d.valueAt k) = true ∧ (k ≠ 0 → ¬ d.errorAt k < tolerance) ∧
    d.cap < d.count (k + 1) ∧ Machine.countBound ≤ d.count (k + 1)

theorem refinePiece_eq_abort_iff
    {part : α × α} :
    refinePiece settings rule f part.1 part.2 tolerance =
        .error (.abort reason) ↔
      reason = .countOverflow ∧
      PieceOverflows settings rule f tolerance part := by
  rw [refinePiece_eq_iff, PieceOverflows]
  constructor
  · rintro (⟨hlarge, h⟩ | ⟨k, hk, hends⟩)
    · exact ⟨by simpa using h, .inl hlarge⟩
    · cases hends with
      | overflowed hfinite hnot hexceeds hle =>
          exact ⟨rfl, .inr ⟨k, hk, hfinite, hnot, hexceeds, hle⟩⟩
  · rintro ⟨rfl, hlarge | ⟨k, hk, hfinite, hnot, hexceeds, hle⟩⟩
    · exact .inl ⟨hlarge, rfl⟩
    · exact .inr ⟨k, hk, .overflowed hfinite hnot hexceeds hle⟩

/-- Behind what the pieces so far add up to, a piece leaves the machine words:
in its run, or in the sum. -/
def LeavesWords (settings : Settings α) (rule : QuadratureRule) (f : α → α)
    (tolerance : α) (total : Total α) (part : α × α) : Prop :=
  PieceOverflows settings rule f tolerance part ∨
    ∃ run, refinePiece settings rule f part.1 part.2 tolerance = .ok run ∧
      Machine.countBound ≤ total.subintervals + run.state.subintervals

/-- Pieces abort with the first one that leaves the machine words. -/
theorem overPieces_eq_abort_iff
    {total : Total α} {parts : List (α × α)} :
    overPieces settings rule f tolerance total parts = .error (.abort reason) ↔
      reason = .countOverflow ∧ ∃ front part rest t,
      parts = front ++ part :: rest ∧
        overPieces settings rule f tolerance total front = .ok t ∧
        LeavesWords settings rule f tolerance t part := by
  constructor
  · intro h
    induction parts generalizing total with
    | nil => cases h
    | cons part parts ih =>
        rw [overPieces] at h
        cases hrun : refinePiece settings rule f part.1 part.2 tolerance with
        | error stopped =>
            cases stopped with
            | breakdown cause made => simp [hrun] at h
            | abort other =>
                simp only [hrun, Except.error.injEq, Failure.abort.injEq] at h
                obtain ⟨hreason, hlarge⟩ := refinePiece_eq_abort_iff.mp hrun
                exact ⟨h ▸ hreason, [], part, parts, total, rfl,
                  rfl, .inl hlarge⟩
        | ok run =>
            simp only [hrun] at h
            split at h
            · next hlarge =>
              have hreason : reason = .countOverflow := by simpa using h.symm
              exact ⟨hreason, [], part, parts, total, rfl, rfl,
                .inr ⟨run, hrun, hlarge⟩⟩
            · next hfits =>
              obtain ⟨hreason, front, last, rest, t, rfl, hfront, hleaves⟩ :=
                ih h
              refine ⟨hreason, part :: front, last, rest, t, rfl, ?_, hleaves⟩
              exact overPieces_cons_eq_ok_iff.mpr
                ⟨run, hrun, Nat.not_le.mp hfits, hfront⟩
  · rintro ⟨rfl, front, part, rest, t, rfl, hfront, hleaves⟩
    rw [overPieces_append, hfront]
    change overPieces settings rule f tolerance t (part :: rest) = _
    rw [overPieces]
    rcases hleaves with hlarge | ⟨run, hrun, hlarge⟩
    · rw [refinePiece_eq_abort_iff.mpr ⟨rfl, hlarge⟩]
    · rw [hrun]
      exact if_pos hlarge

/-- The integral of a function passes its checks, and one of its pieces leaves
the machine words. -/
structure Overflows (settings : Settings α) (rule : QuadratureRule)
    (g : Integrable α) (lower upper tolerance : α) : Prop where
  accepts : Accepts g lower upper tolerance
  leaves : ∃ front part rest total,
    pieces g settings.singularityOffset lower upper =
      .ok (front ++ part :: rest) ∧
    overPieces settings rule g.evaluate tolerance ⟨0, 0, 0, [], []⟩ front =
      .ok total ∧
    LeavesWords settings rule g.evaluate tolerance total part

theorem integrate_eq_abort_iff
    {g : Integrable α} {lower upper : α} :
    integrate settings rule g lower upper tolerance = .error (.abort reason) ↔
      reason = .countOverflow ∧
      Overflows settings rule g lower upper tolerance := by
  simp only [integrate_eq, liftError_bind_eq_abort_iff,
    acceptedPieces_eq_ok_iff, map_eq_error_iff, overPieces_eq_abort_iff]
  constructor
  · rintro ⟨_, ⟨haccepts, hparts⟩, hreason, front, part, rest, total, rfl,
      hfront, hleaves⟩
    exact ⟨hreason, haccepts, front, part, rest, total, hparts, hfront,
      hleaves⟩
  · rintro ⟨hreason, haccepts, front, part, rest, total, hparts, hfront,
      hleaves⟩
    exact ⟨_, ⟨haccepts, hparts⟩, hreason, front, part, rest, total, rfl,
      hfront, hleaves⟩

end Quadrature
end NumericalMethods
