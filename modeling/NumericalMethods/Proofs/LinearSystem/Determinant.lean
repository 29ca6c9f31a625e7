import Mathlib.LinearAlgebra.Matrix.Determinant.Basic
import NumericalMethods.Proofs.LinearSystem.Basic
import NumericalMethods.Proofs.LinearSystem.Elimination

/-!
# The determinant by elimination

A step of the elimination exchanges two rows or none, and takes multiples of the
pivot row from the others.  The first changes the sign of the determinant, the
second leaves it alone, and expansion along the first column leaves the pivot as
a factor.  The diagonal of the triangular form therefore gives the determinant,
as the expansions for small orders do.
-/

namespace NumericalMethods
namespace Elimination

variable {K : Type} [Field K]

/-- The matrix with the given rows; missing entries are zero. -/
def toMatrix (n : ℕ) (rows : List (List K)) : Matrix (Fin n) (Fin n) K :=
  Matrix.of fun i j => (rows.getD i []).getD j 0

section

variable {n : ℕ}

/-- One step of the elimination: the corner is a factor of the determinant, and
what remains has a multiple of the first row taken from every other row. -/
theorem det_eq_corner_mul
    {A : Matrix (Fin (n + 1)) (Fin (n + 1)) K} (hcorner : A 0 0 ≠ 0) :
    A.det = A 0 0 * (Matrix.of fun i j : Fin n =>
      A i.succ j.succ - A i.succ 0 / A 0 0 * A 0 j.succ).det := by
  let multiple : Fin (n + 1) → K := Fin.cases 0 fun i => A i.succ 0 / A 0 0
  have hsame : A.det = (Matrix.of fun i j => A i j - multiple i * A 0 j).det :=
    Matrix.det_eq_of_forall_row_eq_smul_add_const multiple 0 rfl fun i j => by
      simp [multiple]
  have hcolumn : ∀ i : Fin n, A i.succ 0 - multiple i.succ * A 0 0 = 0 :=
    fun i => by
    simp only [multiple, Fin.cases_succ]
    field_simp
    ring
  rw [hsame, Matrix.det_succ_column_zero, Fin.sum_univ_succ,
    Finset.sum_eq_zero, add_zero]
  · simp [multiple, Matrix.submatrix]
  · intro i _
    rw [Matrix.of_apply, hcolumn]
    ring

@[simp]
theorem toMatrix_apply (rows : List (List K)) (i j : Fin n) :
    toMatrix n rows i j = (rows.getD i []).getD j 0 :=
  rfl

/-- Exchanging the first row with another one changes the sign. -/
theorem det_toMatrix_exchange
    (first : List K) {rest : List (List K)} {k : ℕ}
    (hcount : rest.length = n) (hk : k < rest.length) :
    (toMatrix (n + 1) (rest.getD k [] :: rest.set k first)).det =
      -(toMatrix (n + 1) (first :: rest)).det := by
  let place : Fin (n + 1) := Fin.succ ⟨k, hcount ▸ hk⟩
  have hexchange : toMatrix (n + 1) (rest.getD k [] :: rest.set k first) =
      (toMatrix (n + 1) (first :: rest)).submatrix (Equiv.swap 0 place) id := by
    ext i j
    refine Fin.cases ?_ (fun i => ?_) i
    · simp [place]
    · by_cases hi : (i : ℕ) = k
      · have hplace : i.succ = place := Fin.ext (by simp [place, hi])
        rw [Matrix.submatrix_apply, hplace, Equiv.swap_apply_right]
        simp [place, hk]
      · have hplace : i.succ ≠ place :=
          fun h => hi (by simpa [place] using congrArg Fin.val h)
        rw [Matrix.submatrix_apply,
          Equiv.swap_apply_of_ne_of_ne (Fin.succ_ne_zero i) hplace]
        simp [List.getElem?_set_ne (Ne.symm hi)]
  rw [hexchange, Matrix.det_permute,
    Equiv.Perm.sign_swap (Fin.succ_ne_zero _).symm]
  simp

variable [LinearOrder K] [ExactArithmetic K]

theorem getD_eliminate
    {pivot row : List K} (hpivot : pivot.length = n + 1)
    (hrow : row.length = n + 1) (j : Fin n) :
    (eliminate pivot.tail (1 / lead pivot) row).getD j 0 =
      row.getD (j + 1) 0 - lead row / lead pivot * pivot.getD (j + 1) 0 := by
  obtain ⟨p, pivot, rfl⟩ := List.exists_cons_of_length_eq_add_one hpivot
  obtain ⟨a, row, rfl⟩ := List.exists_cons_of_length_eq_add_one hrow
  have hpivotTail : (j : ℕ) < pivot.length := by simp at hpivot; omega
  have hrowTail : (j : ℕ) < row.length := by simp at hrow; omega
  simp [eliminate, lead, hpivotTail, hrowTail]
  ring

/-- The rows of a step leave the pivot as a factor. -/
theorem det_toMatrix_eliminate
    {pivot : List K} {others : List (List K)} (hpivot : lead pivot ≠ 0)
    (hcount : others.length = n)
    (hlength : ∀ row ∈ pivot :: others, row.length = n + 1) :
    (toMatrix (n + 1) (pivot :: others)).det =
      lead pivot *
        (toMatrix n
          (others.map (eliminate pivot.tail (1 / lead pivot)))).det := by
  have hlead : ∀ row : List K, row.getD 0 0 = lead row :=
    fun row => by cases row <;> rfl
  have hcorner : toMatrix (n + 1) (pivot :: others) 0 0 = lead pivot :=
    hlead pivot
  rw [det_eq_corner_mul (by rwa [hcorner]), hcorner]
  congr 2
  ext i j
  have hi : (i : ℕ) < others.length := hcount ▸ i.isLt
  have hrow := hlength others[i] (List.mem_cons_of_mem _ (List.getElem_mem hi))
  have hentry := getD_eliminate (hlength pivot List.mem_cons_self) hrow j
  have hother : others.getD i [] = others[i] := List.getD_eq_getElem _ _ hi
  have hstepped :
      (others.map (eliminate pivot.tail (1 / lead pivot))).getD i [] =
      eliminate pivot.tail (1 / lead pivot) others[i] := by simp [hi]
  rw [toMatrix_apply, hstepped, hentry, ← hother, ← hlead (others.getD i [])]
  rfl

/-! ## The triangular form -/

/-- The product along the diagonal, with the sign of the exchanges. -/
def Triangular.determinant (form : Triangular K) : K :=
  Scalar.product (form.rows.map lead) * (if form.odd then -1 else 1)

theorem determinant_reduce_cons (count : ℕ) (first : List K)
    (rest : List (List K)) :
    (reduce (count + 1) (first :: rest)).determinant =
      (if pivotIndex |lead first| rest = 0 then 1 else -1) *
        (lead (pivotRow first rest) *
          (reduce count (reducedRows first rest)).determinant) := by
  rw [Triangular.determinant, Triangular.determinant, rows_reduce_cons,
    odd_reduce_cons, Scalar.abs_eq_abs, List.map_cons, Scalar.product_eq_prod,
    Scalar.product_eq_prod, List.prod_cons]
  by_cases hk : pivotIndex |lead first| rest = 0
  · cases (reduce count (reducedRows first rest)).odd <;> simp [hk]
  · cases (reduce count (reducedRows first rest)).odd <;> simp [hk]

theorem det_toMatrix_pivot
    {first : List K} {rest : List (List K)} (hcount : rest.length = n) :
    (toMatrix (n + 1) (first :: rest)).det =
      (if pivotIndex |lead first| rest = 0 then 1 else -1) *
        (toMatrix (n + 1)
          (pivotRow first rest :: otherRows first rest)).det := by
  have hindex := pivotIndex_le_length |lead first| rest
  by_cases hk : pivotIndex |lead first| rest = 0
  · simp [pivotRow, otherRows, hk]
  · have hlt : pivotIndex |lead first| rest - 1 < rest.length := by omega
    have hexchange := det_toMatrix_exchange first hcount hlt
    rw [List.getD_eq_getElem _ _ hlt] at hexchange
    simp only [pivotRow, otherRows, Scalar.abs_eq_abs, hk, bne_iff_ne, ne_eq,
      not_false_eq_true, if_true, if_false,
      List.getD_eq_getElem _ _ hlt, hexchange]
    ring

variable [IsStrictOrderedRing K]

/-- Without a pivot the first column is zero. -/
theorem det_toMatrix_eq_zero
    {first : List K} {rest : List (List K)} (hcount : rest.length = n)
    (hpivot : lead (pivotRow first rest) = 0) :
    (toMatrix (n + 1) (first :: rest)).det = 0 := by
  refine Matrix.det_eq_zero_of_column_eq_zero 0 fun i => ?_
  have hi : (i : ℕ) < (first :: rest).length := by
    rw [List.length_cons, hcount]; exact i.isLt
  have habs := abs_lead_le_abs_lead_pivotRow first rest (List.getElem_mem hi)
  rw [hpivot, abs_zero, abs_nonpos_iff] at habs
  rw [toMatrix_apply, List.getD_eq_getElem _ _ hi, ← habs]
  cases (first :: rest)[(i : ℕ)] <;> rfl

/-- The diagonal of the triangular form gives the determinant.  The induction is
on the order: with a pivot, a step leaves the rows of a smaller matrix; without
one, both sides are zero. -/
theorem determinant_reduce
    {rows : List (List K)} (hcount : rows.length = n)
    (hlength : ∀ row ∈ rows, row.length = n) :
    (reduce n rows).determinant = (toMatrix n rows).det := by
  induction n generalizing rows with
  | zero => simp [reduce, Triangular.determinant]
  | succ n ih =>
      obtain ⟨first, rest, rfl⟩ := List.exists_cons_of_length_eq_add_one hcount
      have hrest : rest.length = n := by simpa using hcount
      rw [determinant_reduce_cons]
      by_cases hpivot : lead (pivotRow first rest) = 0
      · rw [hpivot, det_toMatrix_eq_zero hrest hpivot]
        ring
      · have hperm := pivotRow_cons_perm first rest
        have hothers : (otherRows first rest).length = n := by
          have hcounts := hperm.length_eq
          simp only [List.length_cons] at hcounts
          omega
        rw [det_toMatrix_pivot hrest,
          det_toMatrix_eliminate hpivot hothers fun row hrow =>
            hlength row (hperm.subset hrow),
          ← reducedRows_of_lead_ne_zero hpivot,
          ih (by rw [length_reducedRows, hrest])
            (length_of_mem_reducedRows hpivot hlength)]

/-- The determinant of a square list of rows. -/
theorem determinant_eq_det
    {rows : List (List K)} (hcount : rows.length = n)
    (hlength : ∀ row ∈ rows, row.length = n) :
    determinant rows = (toMatrix n rows).det := by
  unfold determinant
  split
  · obtain rfl : 1 = n := hcount
    rw [Matrix.det_fin_one]
    rfl
  · obtain rfl : 2 = n := hcount
    rw [Matrix.det_fin_two]
    simp [mul_comm]
  · obtain rfl : 3 = n := hcount
    rw [Matrix.det_fin_three]
    simp
    ring
  · subst hcount
    exact determinant_reduce rfl hlength

end

end Elimination

theorem LinearSystem.determinant_eq_det
    {K : Type} [Field K] [LinearOrder K] [ExactArithmetic K]
    [IsStrictOrderedRing K] {n : ℕ} (s : LinearSystem K n) :
    Elimination.determinant s.matrix.toLists = (Matrix.of s.entry).det := by
  rw [Elimination.determinant_eq_det (Grid.length_toLists _)
    fun _ => Grid.length_of_mem_toLists]
  congr 1
  ext i j
  simp [Grid.toLists_eq_ofFn, Grid.toList_eq_ofFn]
  rfl

end NumericalMethods
