import Mathlib.Algebra.BigOperators.Fin
import Mathlib.Algebra.Order.BigOperators.Group.Finset
import Mathlib.LinearAlgebra.FiniteDimensional.Basic
import Mathlib.LinearAlgebra.Matrix.ToLin
import NumericalMethods.LinearSystem.Basic
import NumericalMethods.Proofs.Exact.Basic

/-!
# Linear systems in exact arithmetic

The sums a stored system computes from left to right, as sums over its indices.
A strictly dominated matrix takes no vector but zero to zero, so a system with
such a matrix has exactly one solution.
-/

namespace NumericalMethods

/-! ## Stored matrices -/

namespace Grid

section

variable {α : Type} {m n : ℕ}

@[simp]
theorem get_ofFn (f : Fin n → α) (i : Fin n) : (Vector.ofFn f).get i = f i :=
  Vector.getElem_ofFn i.isLt

@[simp]
theorem entry_ofFn (f : Fin m → Fin n → α) (i : Fin m) (j : Fin n) :
    (Grid.ofFn f).entry i j = f i j := by
  rw [entry, ofFn, get_ofFn, get_ofFn]

theorem toList_eq_ofFn (v : Vector α n) : v.toList = List.ofFn v.get := by
  refine List.ext_getElem (by simp) fun i _ _ => ?_
  rw [List.getElem_ofFn]
  exact Vector.getElem_toList _

theorem ofFn_entry (g : Grid α m n) :
    (Grid.ofFn fun i j => g.entry i j) = g := by
  refine Vector.ext fun i hi => Vector.ext fun j hj => ?_
  simp only [ofFn, Vector.getElem_ofFn]
  rfl

theorem toLists_eq_ofFn (g : Grid α m n) :
    g.toLists = List.ofFn fun i => (g.get i).toList := by
  rw [toLists, toList_eq_ofFn, List.map_ofFn]
  rfl

theorem length_toLists (g : Grid α m n) : g.toLists.length = m := by
  rw [toLists_eq_ofFn, List.length_ofFn]

theorem length_of_mem_toLists {g : Grid α m n} {row : List α}
    (h : row ∈ g.toLists) :
    row.length = n := by
  obtain ⟨v, -, rfl⟩ := List.mem_map.mp h
  exact Vector.length_toList

theorem rowNorms_eq_ofFn [Scalar α] (g : Grid α m n) :
    g.rowNorms = List.ofFn fun i => Scalar.norm (g.get i).toList := by
  rw [rowNorms, toLists_eq_ofFn, List.map_ofFn]
  rfl

theorem getElem?_toList (v : Vector α n) (i : Fin n) :
    v.toList[(i : ℕ)]? = some (v.get i) := by
  simp [toList_eq_ofFn]

theorem getElem?_toLists (g : Grid α m n) (i : Fin m) :
    g.toLists[(i : ℕ)]? = some (g.get i).toList := by
  simp [toLists_eq_ofFn]

end

variable {K : Type} [Field K] [LinearOrder K] [ExactArithmetic K] {m n : ℕ}

omit [LinearOrder K] [ExactArithmetic K] in
theorem foldl_add_eq_add_sum (first : K) (rest : List K) :
    rest.foldl (fun acc term => term + acc) first = first + rest.sum := by
  induction rest generalizing first with
  | nil => simp
  | cons term rest ih => rw [List.foldl_cons, ih, List.sum_cons]; ring

/-- The product with a column, entry by entry. -/
theorem get_apply (g : Grid K m n) (x : Vector K n) (i : Fin m) :
    (g.apply x).get i = ∑ j, g.entry i j * x.get j := by
  have hterms : List.zipWith (· * ·) (g.get i).toList x.toList =
      List.ofFn fun j => g.entry i j * x.get j := by
    refine List.ext_getElem (by simp) fun j _ _ => ?_
    rw [List.getElem_zipWith, List.getElem_ofFn]
    rfl
  rw [← List.sum_ofFn, ← hterms]
  change (g.apply x)[(i : ℕ)] =
    (List.zipWith (· * ·) g[(i : ℕ)].toList x.toList).sum
  rw [apply, Vector.getElem_map]
  cases List.zipWith (· * ·) g[(i : ℕ)].toList x.toList with
  | nil => simp
  | cons first rest => rw [List.sum_cons]; exact foldl_add_eq_add_sum first rest

end Grid

/-! ## Systems -/

namespace LinearSystem

variable {K : Type} [Field K] [LinearOrder K] [ExactArithmetic K] {n : ℕ}

theorem offDiagonal_eq_sum (s : LinearSystem K n) (i : Fin n) :
    s.offDiagonal i = ∑ j ∈ Finset.univ.erase i, |s.entry i j| := by
  rw [offDiagonal, Scalar.sum_eq_sum, ← Finset.filter_ne']
  rfl

/-- The unknowns `x` satisfy every equation. -/
def Solves (s : LinearSystem K n) (x : Fin n → K) : Prop :=
  ∀ i, ∑ j, s.entry i j * x j = s.rhs.get i

/-- Every row is strictly dominated by its diagonal. -/
def StrictlyDominant (s : LinearSystem K n) : Prop :=
  ∀ i, s.offDiagonal i < |s.entry i i|

instance (s : LinearSystem K n) : Decidable s.StrictlyDominant :=
  inferInstanceAs (Decidable (∀ i, s.offDiagonal i < |s.entry i i|))

end LinearSystem
end NumericalMethods
