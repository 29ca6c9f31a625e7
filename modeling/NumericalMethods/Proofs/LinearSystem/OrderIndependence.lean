import NumericalMethods.Proofs.LinearSystem.Determinant
import NumericalMethods.Proofs.LinearSystem.Dominance

/-!
# Independence of the order of the equations

In a strictly dominated row only the diagonal entry weighs as much as the rest.
However such rows are shuffled, the first columns that outweigh them therefore
name the one order in which they are dominated, and no other order passes for
dominant.  The iteration works on the same system in every case, and only the
sign of the determinant and the recorded targets tell the shuffles apart.
-/

namespace NumericalMethods

variable {K : Type} [Field K] [LinearOrder K] [ExactArithmetic K] {n : ℕ}

namespace LinearSystem

section

variable [IsStrictOrderedRing K] {s : LinearSystem K n}

/-- Only the diagonal entry outweighs the rest of a strictly dominated row. -/
theorem StrictlyDominant.weightOutside_le_iff
    (hs : s.StrictlyDominant) {i column : Fin n} :
    s.weightOutside i column ≤ |s.entry i column| ↔ column = i := by
  have hdiagonal : s.weightOutside i i < |s.entry i i| := by
    rw [← offDiagonal_eq_weightOutside]
    exact hs i
  constructor
  · intro hweighs
    by_contra hne
    have hdiagonalLe : |s.entry i i| ≤ s.weightOutside i column :=
      Finset.single_le_sum (f := fun j => |s.entry i j|)
        (fun j _ => abs_nonneg _)
        (Finset.mem_erase.mpr ⟨Ne.symm hne, Finset.mem_univ i⟩)
    have hcolumnLe : |s.entry i column| ≤ s.weightOutside i i :=
      Finset.single_le_sum (f := fun j => |s.entry i j|)
        (fun j _ => abs_nonneg _)
        (Finset.mem_erase.mpr ⟨hne, Finset.mem_univ column⟩)
    exact absurd hdiagonal
      (not_lt.mpr (hdiagonalLe.trans (hweighs.trans hcolumnLe)))
  · rintro rfl
    exact hdiagonal.le

/-- A shuffled row still goes to its own place. -/
theorem StrictlyDominant.heaviest_reordered
    (hs : s.StrictlyDominant) (σ : Equiv.Perm (Fin n)) (i : Fin n) :
    (s.reordered σ).heaviest? i = some (σ i) := by
  have hweighs : ∀ column,
      (s.reordered σ).rowSum i ≤
          2.0 * Scalar.abs ((s.reordered σ).entry i column) ↔
        column = σ i := by
    intro column
    rw [rowSum_le_iff, weightOutside_reordered, entry_reordered]
    exact hs.weightOutside_le_iff
  cases hfound : (s.reordered σ).heaviest? i with
  | none =>
      rw [heaviest?, List.find?_eq_none] at hfound
      exact absurd (decide_eq_true ((hweighs (σ i)).mpr rfl))
        (hfound _ (List.mem_finRange _))
  | some column => rw [(hweighs column).mp (rowSum_le_of_heaviest hfound)]

theorem StrictlyDominant.dominantPermutation_reordered
    [NeZero n] (hs : s.StrictlyDominant) (σ : Equiv.Perm (Fin n)) :
    (s.reordered σ).dominantPermutation = some (List.ofFn σ) := by
  refine dominantPermutation_eq_some_iff.mpr
    ⟨σ, rfl, hs.heaviest_reordered σ, 0, ?_⟩
  rw [rowSum_lt_iff, weightOutside_reordered, entry_reordered,
    ← offDiagonal_eq_weightOutside]
  exact hs (σ 0)

/-- No shuffle passes for dominant. -/
theorem StrictlyDominant.eq_refl_of_isDominant
    (hs : s.StrictlyDominant) {σ : Equiv.Perm (Fin n)}
    (hdominant : (s.reordered σ).isDominant = true) :
    σ = Equiv.refl (Fin n) := by
  ext i
  have hi := ((isDominant_iff _).mp hdominant).1 i
  rw [offDiagonal_eq_weightOutside, weightOutside_reordered, entry_reordered,
    hs.weightOutside_le_iff] at hi
  rw [← hi]
  rfl

end

/-! ## The test for singular matrices -/

theorem determinant_reordered
    [IsStrictOrderedRing K] (s : LinearSystem K n) (σ : Equiv.Perm (Fin n)) :
    Elimination.determinant (s.reordered σ).matrix.toLists =
      (Equiv.Perm.sign σ : ℤ) * Elimination.determinant s.matrix.toLists := by
  have hrows : Matrix.of (s.reordered σ).entry =
      (Matrix.of s.entry).submatrix σ id := by
    ext i j
    exact s.entry_reordered σ i j
  rw [determinant_eq_det, determinant_eq_det, hrows, Matrix.det_permute]

theorem product_rowNorms_reordered (s : LinearSystem K n)
    (σ : Equiv.Perm (Fin n)) :
    Scalar.product (s.reordered σ).matrix.rowNorms =
      Scalar.product s.matrix.rowNorms := by
  rw [Scalar.product_eq_prod, Scalar.product_eq_prod, Grid.rowNorms_eq_ofFn,
    Grid.rowNorms_eq_ofFn]
  simp only [matrix_get_reordered]
  exact (Equiv.Perm.ofFn_comp_perm σ fun i =>
    Scalar.norm (s.matrix.get i).toList).prod_eq

end LinearSystem

namespace Jacobi

theorem isSingular_reordered
    (settings : Settings K) (s : LinearSystem K n) (σ : Equiv.Perm (Fin n))
    (determinant : K) :
    isSingular settings (s.reordered σ)
      ((Equiv.Perm.sign σ : ℤ) * determinant) =
      isSingular settings s determinant := by
  have habs : |((Equiv.Perm.sign σ : ℤ) : K) * determinant| =
      |determinant| := by
    rcases Int.units_eq_one_or (Equiv.Perm.sign σ) with h | h
    · simp [h]
    · simp [h]
  rw [isSingular, isSingular, s.product_rowNorms_reordered σ,
    Scalar.abs_eq_abs, habs, Scalar.abs_eq_abs]

variable [IsStrictOrderedRing K]

/-- Every shuffle is arranged into the same system. -/
theorem arrange_reordered
    [NeZero n] {s : LinearSystem K n} (hs : s.StrictlyDominant)
    (σ : Equiv.Perm (Fin n)) :
    arrange (s.reordered σ) = ⟨List.ofFn σ, s, []⟩ := by
  rw [arrange]
  by_cases hdominant : (s.reordered σ).isDominant = true
  · obtain rfl := hs.eq_refl_of_isDominant hdominant
    rw [if_pos hdominant, s.reordered_refl]
    exact congrArg (Arrangement.mk · s []) (List.ofFn_id n).symm
  · rw [if_neg hdominant, hs.dominantPermutation_reordered σ]
    dsimp only
    rw [s.permuted_reordered σ]

/-- What an outcome becomes when the equations are given in another order: the
targets undo the shuffle, and the determinant takes its sign. -/
def shuffledOutcome (σ : Equiv.Perm (Fin n)) :
    Except (EngineError K) (LinearSolveResult K) →
      Except (EngineError K) (LinearSolveResult K)
  | .ok r =>
    .ok
      { r with
        permutation := List.ofFn fun i => (σ i : ℕ)
        determinant := (Equiv.Perm.sign σ : ℤ) * r.determinant }
  | .error (.singularMatrix determinant) =>
    .error (.singularMatrix ((Equiv.Perm.sign σ : ℤ) * determinant))
  | .error reason => .error reason

/-- The order in which the equations of a strictly dominated system are given
does not matter.  Whatever the limits and the tolerance, a shuffled system fails
as the system does, or has the same solution, errors, steps, arranged system and
warnings.  Only the targets, which undo the shuffle, and the sign of the
determinant depend on it. -/
theorem solve_reordered
    [NeZero n] (settings : Settings K) {s : LinearSystem K n}
    (hs : s.StrictlyDominant) (tolerance : K) (σ : Equiv.Perm (Fin n)) :
    (s.reordered σ).permuted (List.ofFn σ) = s ∧
      solve settings (s.reordered σ) tolerance =
        shuffledOutcome σ (solve settings s tolerance) := by
  refine ⟨s.permuted_reordered σ, ?_⟩
  have harrange : arrange s = ⟨List.ofFn (Equiv.refl (Fin n)), s, []⟩ := by
    simpa using arrange_reordered hs (Equiv.refl (Fin n))
  simp only [solve_eq, LinearSystem.determinant_reordered, isSingular_reordered,
    arrange_reordered hs σ, harrange]
  split
  · rfl
  · split
    · rfl
    · cases smallPivot? settings s with
      | some i => rfl
      | none =>
          dsimp only
          cases iterate _ _ _ with
          | error stopped => rfl
          | ok run =>
              rw [ofIteration, ofIteration, shuffledOutcome, result, result,
                List.map_ofFn]
              rfl

/-- Three equations in the order in which they are dominated. -/
def ordered : LinearSystem ℚ 3 :=
  ⟨#v[#v[5, 1, 2], #v[1, 4, 1], #v[2, 1, 6]], #v[8, 6, 9]⟩

theorem solve_reordered_swapped :
    ∃ r, solve twoSweeps ordered (1 / 10) = .ok r ∧
      solve twoSweeps (ordered.reordered (Equiv.swap 0 2)) (1 / 10) =
        .ok { r with
          permutation := [2, 1, 0], determinant := -r.determinant } := by
  have hdominant : ordered.StrictlyDominant := by decide +kernel
  have hsolved : (solve twoSweeps ordered (1 / 10)).toOption.map
      (·.determinant) =
      some 97 := by decide +kernel
  obtain ⟨r, hr, -⟩ := exists_eq_ok_of_map_eq_some hsolved
  have hshuffled :=
    (solve_reordered twoSweeps hdominant (1 / 10) (Equiv.swap 0 2)).2
  have hsign : Equiv.Perm.sign (Equiv.swap (0 : Fin 3) 2) = -1 := by decide
  have htargets :
      (List.ofFn fun i : Fin 3 => ((Equiv.swap 0 2 i : Fin 3) : ℕ)) =
        [2, 1, 0] := by
    decide
  rw [hr, shuffledOutcome, hsign, htargets] at hshuffled
  exact ⟨r, hr, by simpa using hshuffled⟩

end Jacobi
end NumericalMethods
