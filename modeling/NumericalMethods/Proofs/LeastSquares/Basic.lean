import Mathlib.Data.Finset.Card
import Mathlib.Data.Finset.Insert
import Mathlib.Data.List.Basic
import NumericalMethods.LeastSquares

/-!
# Fits of single models

A fit needs two points, no obstacle and coefficients that the normal equations
determine; without one of these the data are insufficient.  The first obstacle
is a count of distinct abscissae, which collects those that no earlier one is
identical to.  Where identical scalars are equal, it is the number of elements
of a list.
-/

namespace NumericalMethods
namespace LeastSquares

section Fit

variable {α : Type} [Elementary α] {weakCorrelation : α} {model : Model}
  {data : DataSet α}

theorem fit_eq_ok_iff {f : Fit α} :
    fit weakCorrelation model data = .ok f ↔
      2 ≤ data.length ∧ obstacle? model data = none ∧
        ∃ coefficients, coefficients? model data = some coefficients ∧
          f = describe weakCorrelation model coefficients data := by
  rw [fit]
  by_cases hlength : data.length < 2
  · simp [hlength]
  · cases hobstacle : obstacle? model data with
    | some obstacle => simp [hlength]
    | none =>
        cases hcoefficients : coefficients? model data with
        | none => simp [hlength]
        | some coefficients => simp [hlength, Nat.not_lt.mp hlength, eq_comm]

/-- A model is fitted, or the data are insufficient for it. -/
theorem fit_cases (weakCorrelation : α) (model : Model) (data : DataSet α) :
    (∃ f, fit weakCorrelation model data = .ok f) ∨
      ∃ reason, fit weakCorrelation model data =
        .error (.insufficientData reason) := by
  rw [fit]
  split
  · exact .inr ⟨_, rfl⟩
  · split
    · exact .inr ⟨_, rfl⟩
    · split
      · exact .inr ⟨_, rfl⟩
      · exact .inl ⟨_, rfl⟩

end Fit

/-! ## Counting distinct scalars -/

section Count

variable {α : Type} [Elementary α] [DecidableEq α]

omit [DecidableEq α] in
theorem any_identical_iff
    (hidentical : ∀ a b : α, Scalar.identical a b = true ↔ a = b)
    (seen : List α) (v : α) :
    seen.any (Scalar.identical v) = true ↔ v ∈ seen := by
  simp [List.any_eq_true, hidentical]

theorem nodup_foldl_distinct
    (hidentical : ∀ a b : α, Scalar.identical a b = true ↔ a = b)
    (xs : List α) {seen : List α} (hseen : seen.Nodup) :
    (xs.foldl
      (fun seen v => if seen.any (Scalar.identical v) then seen else v :: seen)
      seen).Nodup ∧
    (xs.foldl
      (fun seen v => if seen.any (Scalar.identical v) then seen else v :: seen)
      seen).toFinset = seen.toFinset ∪ xs.toFinset := by
  induction xs generalizing seen with
  | nil => simp [hseen]
  | cons v xs ih =>
      rw [List.foldl_cons]
      by_cases hv : v ∈ seen
      · rw [if_pos ((any_identical_iff hidentical seen v).mpr hv)]
        obtain ⟨hnodup, hset⟩ := ih hseen
        refine ⟨hnodup, ?_⟩
        rw [hset, List.toFinset_cons, Finset.union_insert,
          Finset.insert_eq_of_mem
            (Finset.mem_union_left _ (List.mem_toFinset.mpr hv))]
      · rw [if_neg (mt (any_identical_iff hidentical seen v).mp hv)]
        obtain ⟨hnodup, hset⟩ := ih (List.nodup_cons.mpr ⟨hv, hseen⟩)
        refine ⟨hnodup, ?_⟩
        rw [hset, List.toFinset_cons, List.toFinset_cons, Finset.insert_union,
          Finset.union_insert]

theorem distinctCount_eq_card_toFinset
    (hidentical : ∀ a b : α, Scalar.identical a b = true ↔ a = b)
    (xs : List α) :
    distinctCount xs = xs.toFinset.card := by
  obtain ⟨hnodup, hset⟩ := nodup_foldl_distinct hidentical xs List.nodup_nil
  rw [List.toFinset_nil, Finset.empty_union] at hset
  rw [distinctCount, ← hset, List.toFinset_card_of_nodup hnodup]

end Count

end LeastSquares
end NumericalMethods
