import NumericalMethods.Proofs.Binary64.Infinite

/-!
# The largest of some binary numbers

A maximum that starts from a defined number passes over undefined ones: it stays
defined, it is the start or one of the numbers, and it is at least as large as
all of them that are defined.
-/

namespace NumericalMethods
namespace Binary64

variable {bound q y : Float}

theorem larger_eq_or_eq (q y : Float) : larger q y = q ∨ larger q y = y := by
  rw [larger]
  split
  · exact .inr rfl
  · split
    · exact .inr rfl
    · exact .inl rfl

theorem isNaN_larger (hq : q.isNaN = false) : (larger q y).isNaN = false := by
  rw [larger, if_neg (Bool.eq_false_iff.mp hq)]
  split
  · rename_i hlt
    exact (isNaN_of_le (le_of_lt hlt)).2
  · exact hq

/-- The larger of a defined number and any other one reaches a bound if one of
them does. -/
theorem le_larger_iff (hq : q.isNaN = false) :
    bound ≤ larger q y ↔ bound ≤ q ∨ bound ≤ y := by
  rw [larger, if_neg (Bool.eq_false_iff.mp hq)]
  by_cases hlt : q < y
  · rw [if_pos hlt]
    refine ⟨.inr, ?_⟩
    rintro (hle | hle)
    · exact le_of_le_of_le hle (le_of_lt hlt)
    · exact hle
  · rw [if_neg hlt]
    refine ⟨.inl, ?_⟩
    rintro (hle | hle)
    · exact hle
    · have hyq : y ≤ q := (not_lt_iff_le (isNaN_of_le hle).2 hq).mp hlt
      exact le_of_le_of_le hle hyq

section Fold

variable {β : Type}

theorem le_foldl_larger_iff (hq : q.isNaN = false) (g : β → Float)
    (xs : List β) :
    bound ≤ xs.foldl (fun q x => larger q (g x)) q ↔
      bound ≤ q ∨ ∃ x ∈ xs, bound ≤ g x := by
  induction xs generalizing q with
  | nil => simp
  | cons x xs ih =>
      rw [List.foldl_cons, ih (isNaN_larger hq), le_larger_iff hq,
        List.exists_mem_cons_iff, or_assoc]

theorem isNaN_foldl_larger (hq : q.isNaN = false) (g : β → Float)
    (xs : List β) :
    (xs.foldl (fun q x => larger q (g x)) q).isNaN = false := by
  induction xs generalizing q with
  | nil => exact hq
  | cons x xs ih => exact ih (isNaN_larger hq)

theorem foldl_larger_eq_or_exists (q : Float) (g : β → Float) (xs : List β) :
    xs.foldl (fun q x => larger q (g x)) q = q ∨
      ∃ x ∈ xs, xs.foldl (fun q x => larger q (g x)) q = g x := by
  induction xs generalizing q with
  | nil => exact .inl rfl
  | cons x xs ih =>
      rw [List.foldl_cons]
      rcases ih (larger q (g x)) with hstart | ⟨x', hx', heq⟩
      · rw [hstart]
        exact (larger_eq_or_eq q (g x)).imp_right fun h =>
          ⟨x, List.mem_cons_self, h⟩
      · exact .inr ⟨x', List.mem_cons_of_mem x hx', heq⟩

end Fold

end Binary64
end NumericalMethods
