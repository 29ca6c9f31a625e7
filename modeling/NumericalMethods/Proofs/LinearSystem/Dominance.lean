import NumericalMethods.Proofs.Exact.Rational
import NumericalMethods.Proofs.Failure
import NumericalMethods.Proofs.LinearSystem.Reordering
import NumericalMethods.Proofs.Outcome

/-!
# The search for a dominant order

Two tests of dominance meet here.  A system is judged by comparing each diagonal
entry with the rest of its row, and a target is chosen by comparing twice an
entry with the whole row.  In exact arithmetic both say that an entry weighs as
much as the row outside its column, so the order the targets describe is
dominant.
-/

namespace NumericalMethods
namespace LinearSystem

/-! ## Targets as a permutation -/

section

variable {α : Type} [Scalar α] {n : ℕ}

theorem rowSum_le_of_heaviest
    {s : LinearSystem α n} {i j : Fin n} (hj : s.heaviest? i = some j) :
    s.rowSum i ≤ 2.0 * Scalar.abs (s.entry i j) := by
  rw [heaviest?] at hj
  have hweighs := List.find?_some hj
  exact of_decide_eq_true hweighs

/-- Targets are found when every row has a heaviest column, no two rows share
one, and a row is strict. -/
theorem dominantPermutation_eq_some_iff
    {s : LinearSystem α n} {target : List (Fin n)} :
    s.dominantPermutation = some target ↔
      ∃ σ : Equiv.Perm (Fin n), target = List.ofFn σ ∧
        (∀ i, s.heaviest? i = some (σ i)) ∧
        ∃ i, s.rowSum i < 2.0 * Scalar.abs (s.entry i (σ i)) := by
  have hmoves : ∀ σ : Equiv.Perm (Fin n),
      (List.finRange n).zip (List.ofFn σ) = List.ofFn fun i => (i, σ i) :=
    fun σ => List.ext_getElem (by simp) fun i _ _ => by simp
  constructor
  · intro htarget
    obtain ⟨hlength, hnodup⟩ :=
      length_nodup_of_dominantPermutation_eq_some htarget
    obtain ⟨σ, rfl⟩ := exists_perm_eq_ofFn hlength hnodup
    rw [dominantPermutation] at htarget
    split at htarget
    · cases htarget
    · rename_i found hfound
      dsimp only at htarget
      split at htarget
      · rename_i hcheck
        obtain rfl := Option.some.inj htarget
        rw [hmoves, Bool.and_eq_true, List.any_eq_true] at hcheck
        obtain ⟨⟨move, hmove, hstrict⟩, -⟩ := hcheck
        obtain ⟨i, rfl⟩ := List.mem_ofFn.mp hmove
        refine ⟨σ, rfl, fun k => ?_, i, of_decide_eq_true hstrict⟩
        have hk :=
          (forall₂_of_mapM_eq_some hfound).get (i := k) (by simp) (by simp)
        simpa using hk
      · cases htarget
  · rintro ⟨σ, rfl, hheaviest, i, hstrict⟩
    have hfound : (List.finRange n).mapM s.heaviest? = some (List.ofFn σ) := by
      rw [funext hheaviest, List.ofFn_eq_map]
      exact List.mapM_pure
    rw [dominantPermutation, hfound]
    dsimp only
    rw [hmoves, if_pos]
    rw [Bool.and_eq_true, List.any_eq_true]
    exact ⟨⟨(i, σ i), List.mem_ofFn.mpr ⟨i, rfl⟩, decide_eq_true hstrict⟩,
      decide_eq_true (nodup_ofFn_perm σ)⟩

end

/-! ## The weight of a row -/

variable {K : Type} [Field K] [LinearOrder K] [ExactArithmetic K] {n : ℕ}

/-- The weight of a row outside a column. -/
def weightOutside (s : LinearSystem K n) (i column : Fin n) : K :=
  ∑ j ∈ Finset.univ.erase column, |s.entry i j|

theorem offDiagonal_eq_weightOutside (s : LinearSystem K n) (i : Fin n) :
    s.offDiagonal i = s.weightOutside i i :=
  offDiagonal_eq_sum s i

omit [ExactArithmetic K] in
@[simp]
theorem weightOutside_reordered
    (s : LinearSystem K n) (σ : Equiv.Perm (Fin n)) (i column : Fin n) :
    (s.reordered σ).weightOutside i column = s.weightOutside (σ i) column := by
  simp only [weightOutside, entry_reordered]

theorem rowSum_eq_add (s : LinearSystem K n) (i column : Fin n) :
    s.rowSum i = |s.entry i column| + s.weightOutside i column := by
  rw [weightOutside,
    Finset.add_sum_erase _ (fun j => |s.entry i j|) (Finset.mem_univ column),
    rowSum, Scalar.sum_eq_sum]
  rfl

theorem isDominant_iff (s : LinearSystem K n) :
    s.isDominant = true ↔
      (∀ i, s.offDiagonal i ≤ |s.entry i i|) ∧
      ∃ i, s.offDiagonal i < |s.entry i i| := by
  simp [isDominant]

variable [IsStrictOrderedRing K]

theorem rowSum_le_iff (s : LinearSystem K n) (i column : Fin n) :
    s.rowSum i ≤ 2.0 * Scalar.abs (s.entry i column) ↔
      s.weightOutside i column ≤ |s.entry i column| := by
  have htwo : (2.0 : K) = 2 := by norm_num
  rw [rowSum_eq_add s i column, htwo, Scalar.abs_eq_abs, two_mul,
    add_le_add_iff_left]

theorem rowSum_lt_iff (s : LinearSystem K n) (i column : Fin n) :
    s.rowSum i < 2.0 * Scalar.abs (s.entry i column) ↔
      s.weightOutside i column < |s.entry i column| := by
  have htwo : (2.0 : K) = 2 := by norm_num
  rw [rowSum_eq_add s i column, htwo, Scalar.abs_eq_abs, two_mul,
    add_lt_add_iff_left]

/-- Rows at the columns that outweigh them are in a dominant order. -/
theorem isDominant_permuted
    {s : LinearSystem K n} {target : List (Fin n)}
    (htarget : s.dominantPermutation = some target) :
    (s.permuted target).isDominant = true := by
  obtain ⟨σ, rfl, hheaviest, i, hstrict⟩ :=
    dominantPermutation_eq_some_iff.mp htarget
  rw [permuted_ofFn, isDominant_iff]
  simp only [offDiagonal_eq_weightOutside, weightOutside_reordered,
    entry_reordered]
  refine ⟨fun j => ?_, σ i, ?_⟩
  · have hj := hheaviest (σ.symm j)
    rw [Equiv.apply_symm_apply] at hj
    exact (rowSum_le_iff s _ _).mp (rowSum_le_of_heaviest hj)
  · rw [Equiv.symm_apply_apply]
    exact (rowSum_lt_iff s _ _).mp hstrict

end LinearSystem

/-! ## The arranged system -/

namespace Jacobi

variable {K : Type} [Field K] [LinearOrder K] [ExactArithmetic K] {n : ℕ}

/-- The arranged system has its rows in the order of a permutation, and the
warning tells whether that order is dominant. -/
theorem exists_perm_arrange [IsStrictOrderedRing K] (s : LinearSystem K n) :
    ∃ σ : Equiv.Perm (Fin n),
      (arrange s).permutation = List.ofFn σ ∧
      (arrange s).system = s.reordered σ.symm ∧
      (.diagonalDominanceNotReached ∈ (arrange s).warnings ↔
        (arrange s).system.isDominant = false) := by
  have hidentity : List.finRange n = List.ofFn (Equiv.refl (Fin n)) :=
    (List.ofFn_id n).symm
  rw [arrange]
  by_cases hdominant : s.isDominant = true
  · rw [if_pos hdominant]
    exact ⟨Equiv.refl _, hidentity,
      (s.reordered_refl).symm, by simp [hdominant]⟩
  · rw [if_neg hdominant]
    cases htarget : s.dominantPermutation with
    | none =>
        exact ⟨Equiv.refl _, hidentity,
          (s.reordered_refl).symm, by simp [hdominant]⟩
    | some target =>
        have hmoved := LinearSystem.isDominant_permuted htarget
        obtain ⟨σ, rfl, -⟩ :=
          LinearSystem.dominantPermutation_eq_some_iff.mp htarget
        exact ⟨σ, rfl, s.permuted_ofFn σ, by simp [hmoved]⟩

theorem exists_eq_result_of_solve_eq_ok
    {settings : Settings K} {s : LinearSystem K n} {tolerance : K}
    {r : LinearSolveResult K} (hr : solve settings s tolerance = .ok r) :
    ∃ run, r =
      result settings (Elimination.determinant s.matrix.toLists)
        (arrange s) run := by
  obtain ⟨-, -, run, hresult, -⟩ := exists_run_of_solve_eq_ok hr
  exact ⟨run, hresult⟩

/-- No equation is lost, repeated or changed on the way to the order of the
iteration.  Targets that are found form a permutation, the rows are found at
their targets, in a dominant order, and the inverse targets bring them back.  A
result therefore holds every equation at the place it names, and warns exactly
when the order of its equations is not dominant. -/
theorem equations_preserved [IsStrictOrderedRing K] (s : LinearSystem K n) :
    (∀ target, s.dominantPermutation = some target →
      ∃ σ : Equiv.Perm (Fin n), target = List.ofFn σ ∧
        (∀ i, s.SameRow (s.permuted target) i (σ i)) ∧
        (s.permuted target).isDominant = true ∧
        (s.permuted target).permuted (List.ofFn σ.symm) = s) ∧
    ∀ settings tolerance r, solve settings s tolerance = .ok r →
      ∃ (σ : Equiv.Perm (Fin n)) (w : LinearSystem K n),
        r.permutation = List.ofFn (fun i => (σ i : ℕ)) ∧
        r.matrix = w.matrix.toLists ∧ r.rhs = w.rhs.toList ∧
        (∀ i : Fin n, r.matrix[(σ i : ℕ)]? = some (s.matrix.get i).toList ∧
          r.rhs[(σ i : ℕ)]? = some (s.rhs.get i)) ∧
        (.diagonalDominanceNotReached ∈ r.warnings ↔ w.isDominant = false) := by
  constructor
  · intro target htarget
    have hdominant := LinearSystem.isDominant_permuted htarget
    obtain ⟨σ, rfl, -⟩ :=
      LinearSystem.dominantPermutation_eq_some_iff.mp htarget
    refine ⟨σ, rfl, fun i => ?_, hdominant, s.permuted_permuted_symm σ⟩
    exact s.sameRow_permuted List.length_ofFn
      (LinearSystem.nodup_ofFn_perm σ) (by simp)
  · intro settings tolerance r hr
    obtain ⟨run, rfl⟩ := exists_eq_result_of_solve_eq_ok hr
    obtain ⟨σ, hpermutation, hsystem, hwarning⟩ := exists_perm_arrange s
    refine ⟨σ, (arrange s).system, ?_, rfl, rfl, fun i => ?_, ?_⟩
    · rw [result, hpermutation, List.map_ofFn]
      rfl
    · rw [result, hsystem]
      constructor
      · rw [Grid.getElem?_toLists, LinearSystem.matrix_get_reordered,
          Equiv.symm_apply_apply]
      · rw [Grid.getElem?_toList, LinearSystem.rhs_get_reordered,
          Equiv.symm_apply_apply]
    · rw [← hwarning, result, List.mem_append]
      cases run.settled with
      | false => simp
      | true => simp

/-- Three equations, each dominated one place further on. -/
def rotated : LinearSystem ℚ 3 :=
  ⟨#v[#v[1, 5, 2], #v[1, 2, 6], #v[4, 1, 1]], #v[8, 9, 6]⟩

/-- Limits that allow two sweeps. -/
def twoSweeps : Settings ℚ :=
  ⟨2, 1 / 100, 1 / 100, 100⟩

theorem equations_preserved_rotated :
    (∃ σ : Equiv.Perm (Fin 3), [1, 2, 0] = List.ofFn σ ∧
      (rotated.permuted [1, 2, 0]).isDominant = true ∧
      (rotated.permuted [1, 2, 0]).permuted (List.ofFn σ.symm) = rotated) ∧
    ∃ r, solve twoSweeps rotated (1 / 10) = .ok r ∧
      ∃ σ : Equiv.Perm (Fin 3), r.permutation = List.ofFn (fun i => (σ i : ℕ)) ∧
        ∀ i : Fin 3, r.matrix[(σ i : ℕ)]? =
          some (rotated.matrix.get i).toList := by
  have htarget : rotated.dominantPermutation = some [1, 2, 0] := by
    decide +kernel
  have hsolved : (solve twoSweeps rotated (1 / 10)).toOption.map
      (·.permutation) =
      some [1, 2, 0] := by decide +kernel
  obtain ⟨hreordered, hresult⟩ := equations_preserved rotated
  constructor
  · obtain ⟨σ, hσ, -, hdominant, hback⟩ := hreordered _ htarget
    exact ⟨σ, hσ, hdominant, hback⟩
  · obtain ⟨r, hr, -⟩ := exists_eq_ok_of_map_eq_some hsolved
    obtain ⟨σ, w, hpermutation, -, -, hrows, -⟩ := hresult _ _ r hr
    exact ⟨r, hr, σ, hpermutation, fun i => (hrows i).1⟩

end Jacobi
end NumericalMethods
