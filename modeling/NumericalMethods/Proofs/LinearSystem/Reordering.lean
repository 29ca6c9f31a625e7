import Mathlib.Logic.Equiv.Fintype
import NumericalMethods.Proofs.LinearSystem.Permutation

/-!
# Reordered systems

A system with its equations in another order, given by a permutation of the
rows.  Targets that are distinct and as many as the rows are such a permutation,
and moving the rows to them reads the system through its inverse.  Reordering is
therefore undone by the inverse targets.
-/

namespace NumericalMethods
namespace LinearSystem

variable {α : Type} {n : ℕ}

/-- The system whose row `i` is row `σ i` of another. -/
def reordered (s : LinearSystem α n) (σ : Equiv.Perm (Fin n)) :
    LinearSystem α n where
  matrix := Vector.ofFn fun i => s.matrix.get (σ i)
  rhs := Vector.ofFn fun i => s.rhs.get (σ i)

@[simp]
theorem matrix_get_reordered (s : LinearSystem α n) (σ : Equiv.Perm (Fin n))
    (i : Fin n) :
    (s.reordered σ).matrix.get i = s.matrix.get (σ i) := by
  rw [reordered, Grid.get_ofFn]

@[simp]
theorem rhs_get_reordered (s : LinearSystem α n) (σ : Equiv.Perm (Fin n))
    (i : Fin n) :
    (s.reordered σ).rhs.get i = s.rhs.get (σ i) := by
  rw [reordered, Grid.get_ofFn]

@[simp]
theorem entry_reordered (s : LinearSystem α n) (σ : Equiv.Perm (Fin n))
    (i j : Fin n) :
    (s.reordered σ).entry i j = s.entry (σ i) j := by
  rw [entry, Grid.entry, matrix_get_reordered]
  rfl

/-- Systems with the same rows are equal. -/
theorem ext_rows
    {s t : LinearSystem α n} (hmatrix : ∀ i, s.matrix.get i = t.matrix.get i)
    (hrhs : ∀ i, s.rhs.get i = t.rhs.get i) : s = t := by
  obtain ⟨sMatrix, sRhs⟩ := s
  obtain ⟨tMatrix, tRhs⟩ := t
  congr
  · exact Vector.ext fun i hi => hmatrix ⟨i, hi⟩
  · exact Vector.ext fun i hi => hrhs ⟨i, hi⟩

@[simp]
theorem reordered_refl (s : LinearSystem α n) :
    s.reordered (Equiv.refl _) = s :=
  ext_rows (by simp) (by simp)

theorem reordered_reordered (s : LinearSystem α n) (σ τ : Equiv.Perm (Fin n)) :
    (s.reordered σ).reordered τ = s.reordered (τ.trans σ) :=
  ext_rows (by simp) (by simp)

/-- Distinct targets, one for each row, are the values of a permutation. -/
theorem exists_perm_eq_ofFn
    {target : List (Fin n)} (hlength : target.length = n)
    (hnodup : target.Nodup) :
    ∃ σ : Equiv.Perm (Fin n), target = List.ofFn σ := by
  let place : Fin n → Fin n := fun i => target.get (i.cast hlength.symm)
  have hinjective : Function.Injective place := by
    intro i j hij
    exact Fin.cast_injective _ (List.nodup_iff_injective_get.mp hnodup hij)
  refine ⟨Equiv.ofBijective place
    (Finite.injective_iff_bijective.mp hinjective), ?_⟩
  exact List.ext_getElem (by simp [hlength]) fun i _ _ => by simp [place]

theorem nodup_ofFn_perm (σ : Equiv.Perm (Fin n)) : (List.ofFn σ).Nodup :=
  List.nodup_ofFn.mpr σ.injective

variable [Scalar α]

/-- Moving every row to its target reads the rows through the inverse. -/
theorem permuted_ofFn (s : LinearSystem α n) (σ : Equiv.Perm (Fin n)) :
    s.permuted (List.ofFn σ) = s.reordered σ.symm := by
  have hrow : ∀ j, s.SameRow (s.permuted (List.ofFn σ)) (σ.symm j) j := by
    intro j
    refine sameRow_permuted s (List.length_ofFn) (nodup_ofFn_perm σ) ?_
    simp
  refine ext_rows (fun j => ?_) (fun j => ?_)
  · rw [matrix_get_reordered, (hrow j).1]
  · rw [rhs_get_reordered, (hrow j).2]

/-- The inverse targets move every row back. -/
theorem permuted_permuted_symm (s : LinearSystem α n) (σ : Equiv.Perm (Fin n)) :
    (s.permuted (List.ofFn σ)).permuted (List.ofFn σ.symm) = s := by
  rw [permuted_ofFn, permuted_ofFn, reordered_reordered, Equiv.symm_symm,
    Equiv.self_trans_symm, reordered_refl]

/-- The targets of a reordering move every row back. -/
theorem permuted_reordered (s : LinearSystem α n) (σ : Equiv.Perm (Fin n)) :
    (s.reordered σ).permuted (List.ofFn σ) = s := by
  rw [permuted_ofFn, reordered_reordered, Equiv.symm_trans_self, reordered_refl]

end LinearSystem
end NumericalMethods
