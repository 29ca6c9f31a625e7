import Mathlib.Data.List.Nodup
import Mathlib.Data.List.Perm.Subperm
import NumericalMethods.Interpolation.Nodes
import NumericalMethods.Proofs.Exact.Basic

/-!
# The selected nodes

Selecting nodes sorts the data and may drop some of them, so the nodes are a
part of the data in another order.  If the abscissas of the data are distinct,
the selection fails only when it is asked to keep no node.
-/

namespace NumericalMethods.Interpolation

open List

section Sorting

variable {α : Type} [Scalar α]

theorem ascending_perm (points : List (α × α)) : ascending points ~ points :=
  mergeSort_perm _ _

/-- The points nearest to an abscissa are some of the points. -/
theorem nearest_subperm (sorted : List (α × α)) (point : α) (amount : ℕ) :
    nearest sorted point amount <+~ sorted := by
  let distance (p : α × α) : α := Scalar.abs (p.1 - point)
  let byDistance := sorted.zipIdx.mergeSort fun p q =>
    Scalar.precedes (distance p.1) (distance q.1)
  have hkept : (byDistance.take amount).mergeSort
      (fun p q => decide (p.2 ≤ q.2)) <+~
      sorted.zipIdx :=
    (mergeSort_perm _ _).subperm.trans
      ((take_sublist amount byDistance).subperm.trans
        (mergeSort_perm _ _).subperm)
  obtain ⟨kept, hperm, hsublist⟩ := hkept
  refine ⟨kept.map Prod.fst, hperm.map _, ?_⟩
  simpa using hsublist.map Prod.fst

theorem length_nearest (sorted : List (α × α)) (point : α) (amount : ℕ) :
    (nearest sorted point amount).length = min amount sorted.length := by
  simp [nearest]

theorem sharedAbscissa?_eq_none [LawfulBEq α] {points : List (α × α)}
    (hdistinct : (points.map Prod.fst).Nodup) :
    sharedAbscissa? points = none := by
  induction points with
  | nil => rfl
  | cons p rest ih =>
      cases rest with
      | nil => rfl
      | cons q rest =>
          obtain ⟨hp, hrest⟩ := nodup_cons.mp hdistinct
          have hpq : p.1 ≠ q.1 := fun h => hp (by simp [h])
          simp [sharedAbscissa?, hpq, ih hrest]

end Sorting

/-- The points kept of sorted ones: all of them, unless fewer are asked for. -/
def selection {α : Type} [Scalar α] (sorted : List (α × α)) (point : α) :
    Option ℕ → List (α × α)
  | none => sorted
  | some amount =>
    if amount < sorted.length then nearest sorted point amount else sorted

/-- Data with distinct abscissas are sorted and selected from, unless no point
is to be kept. -/
theorem selectNodes_eq_ok {α : Type} [Scalar α] [LawfulBEq α]
    {data : DataSet α} (hne : data.points ≠ []) (hdistinct : data.x.Nodup)
    (point : α) {amount : Option ℕ} (hamount : amount ≠ some 0) :
    selectNodes data point amount =
      .ok ⟨selection (ascending data.points) point amount⟩ := by
  have hshared : sharedAbscissa? (ascending data.points) = none :=
    sharedAbscissa?_eq_none
      (((ascending_perm data.points).map Prod.fst).nodup_iff.mpr hdistinct)
  have hempty : data.isEmpty = false := by
    simpa [DataSet.isEmpty] using hne
  cases amount with
  | none => simp [selectNodes, selection, hempty, hshared]
  | some amount =>
      obtain ⟨kept, rfl⟩ :=
        Nat.exists_eq_succ_of_ne_zero fun h => hamount (h ▸ rfl)
      simp [selectNodes, selection, hempty, hshared]

/-- At least one of the points is selected. -/
theorem exists_selectNodes_eq_ok {α : Type} [Scalar α] [LawfulBEq α]
    {data : DataSet α} (hne : data.points ≠ []) (hdistinct : data.x.Nodup)
    (point : α) {amount : Option ℕ} (hamount : amount ≠ some 0) :
    ∃ nodes, selectNodes data point amount = .ok nodes ∧
      nodes.points ≠ [] ∧ nodes.points <+~ data.points := by
  have hsorted : ascending data.points ~ data.points :=
    ascending_perm data.points
  have hsortedNe : ascending data.points ≠ [] := fun h =>
    hne (nil_perm.mp (h ▸ hsorted))
  refine ⟨_, selectNodes_eq_ok hne hdistinct point hamount, ?_⟩
  cases amount with
  | none => exact ⟨hsortedNe, hsorted.subperm⟩
  | some amount =>
      simp only [selection]
      split
      · refine ⟨?_, (nearest_subperm _ _ _).trans hsorted.subperm⟩
        have hpositive : 0 < amount :=
          Nat.pos_of_ne_zero fun h => hamount (h ▸ rfl)
        apply ne_nil_of_length_pos
        rw [length_nearest]
        exact lt_min hpositive (length_pos_of_ne_nil hsortedNe)
      · exact ⟨hsortedNe, hsorted.subperm⟩

/-- A part of data with distinct abscissas has distinct abscissas. -/
theorem nodup_x_of_subperm {α : Type} {nodes data : DataSet α}
    (hnodes : nodes.points <+~ data.points) (hdistinct : data.x.Nodup) :
    nodes.x.Nodup := by
  obtain ⟨kept, hperm, hsublist⟩ := hnodes
  have hkept : (kept.map Prod.fst).Nodup := hdistinct.sublist (hsublist.map _)
  exact (hperm.map Prod.fst).nodup_iff.mp hkept

end NumericalMethods.Interpolation
