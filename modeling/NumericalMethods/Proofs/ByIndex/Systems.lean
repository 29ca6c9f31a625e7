import NumericalMethods.LinearSystem.Jacobi
import NumericalMethods.Proofs.ByIndex.Reading
import NumericalMethods.Proofs.LinearSystem.Document.Rows
import NumericalMethods.Proofs.LinearSystem.Permutation

/-!
# Linear systems by index

The coefficients of a system are read from its rows by two indices, once every
row is known to have as many entries as there are rows.  Rows change places by
writing each of them at its target, and the search for a dominant order leaves
one target inside the system for each row.
-/

namespace NumericalMethods
namespace LinearSystem

variable {α : Type}

/-- The coefficients of a square matrix, read by row and column. -/
def rowsByIndex (rows : List (List α)) : Except (Failure α) (List (List α)) :=
  (List.range rows.length).mapM fun i =>
    (List.range rows.length).mapM fun j => do
    let row ← readAt rows i
    readAt row j

theorem rowsByIndex_eq_ok
    {rows : List (List α)} (hrows : ∀ row ∈ rows, row.length = rows.length) :
    rowsByIndex rows = .ok rows := by
  have hall : rowsByIndex rows = .ok (rows.zipIdx.map Prod.fst) := by
    refine mapM_range_eq_ok fun i row hrow => ?_
    rw [← hrows row (List.mem_of_getElem? hrow), readAt_of_getElem? hrow]
    exact mapM_readAt row
  rwa [List.zipIdx_map_fst] at hall

variable {n : ℕ}

/-- The system `moved` with row `i` in place of row `j`. -/
def placeByIndex (s moved : LinearSystem α n) (i j : ℕ) :
    Except (Failure α) (LinearSystem α n) :=
  if hi : i < n then
    if hj : j < n then .ok (s.place moved ⟨i, hi⟩ ⟨j, hj⟩)
    else .error (.abort .indexOutOfRange)
  else .error (.abort .indexOutOfRange)

variable [Scalar α]

/-- The system with every row written at its target. -/
def permutedByIndex (s : LinearSystem α n) (target : List ℕ) :
    Except (Failure α) (LinearSystem α n) :=
  target.zipIdx.foldlM (fun moved (j, i) => s.placeByIndex moved i j) zero

theorem permutedByIndex_eq_ok
    (s : LinearSystem α n) {target : List (Fin n)}
    (hlength : target.length ≤ n) :
    s.permutedByIndex (target.map Fin.val) = .ok (s.permuted target) := by
  have hmoves : (target.map Fin.val).zipIdx =
      ((List.finRange n).zip target).map fun move =>
        (move.2.val, move.1.val) := by
    refine List.ext_getElem (by simp [hlength]) fun k hk _ => ?_
    simp
  rw [permutedByIndex, hmoves]
  refine foldlM_eq_ok _ id (fun move _ moved => ?_) zero
  exact (dif_pos move.1.isLt).trans (dif_pos move.2.isLt)

/-- A dominant order names a row of the system for each row. -/
theorem permutedByIndex_of_dominantPermutation
    {s : LinearSystem α n} {target : List (Fin n)}
    (htarget : s.dominantPermutation = some target) :
    s.permutedByIndex (target.map Fin.val) = .ok (s.permuted target) :=
  s.permutedByIndex_eq_ok
    (length_nodup_of_dominantPermutation_eq_some htarget).1.le

end LinearSystem
end NumericalMethods
