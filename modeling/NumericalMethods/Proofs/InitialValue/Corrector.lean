import NumericalMethods.InitialValue.Milne
import NumericalMethods.Proofs.Iteration

/-!
# Settling a predicted ordinate

A corrector is applied to a predicted ordinate until it moves it by no more than
the tolerance.  What one application can do is said once; a value at which the
corrector settles is finite, and a prediction that is near enough is corrected
once.
-/

namespace NumericalMethods
namespace InitialValue

variable {α : Type} [Scalar α] {improve : α → α} {tolerance : α}

/-- An application fails, or both values are finite and it is the last one if
they are near each other. -/
theorem correct_cases (improve : α → α) (tolerance previous : α) :
    correct improve tolerance previous =
      .fail (.solutionNotFinite OdeMethod.milne.name) ∨
    Scalar.isFinite (improve previous) = true ∧
      correct improve tolerance previous =
        if Scalar.abs (improve previous - previous) ≤ tolerance then
          .last (improve previous) (improve previous)
        else .step (improve previous) (improve previous) := by
  by_cases hfinite :
    (Scalar.isFinite previous && Scalar.isFinite (improve previous)) = true
  · right
    exact ⟨(Bool.and_eq_true_iff.mp hfinite).2, by simp [correct, hfinite]⟩
  · left
    simp [correct, hfinite]

theorem correct_ne_halt (improve : α → α) (tolerance previous : α) :
    correct improve tolerance previous ≠ .halt := by
  rcases correct_cases improve tolerance previous with h | ⟨-, h⟩
  · rw [h]
    exact nofun
  · rw [h]
    split
    · exact nofun
    · exact nofun

theorem isFinite_of_correct_eq_last
    {previous entry next : α}
    (hlast : correct improve tolerance previous = .last entry next) :
    Scalar.isFinite next = true := by
  rcases correct_cases improve tolerance previous with h | ⟨hfinite, h⟩
  · rw [h] at hlast
    cases hlast
  · rw [h] at hlast
    split at hlast
    · cases hlast
      exact hfinite
    · cases hlast

theorem isFinite_of_settle_eq_ok
    {cap : ℕ} {predicted x y : α}
    (hy : settle improve cap tolerance predicted x = .ok y) :
    Scalar.isFinite y = true := by
  simp only [settle] at hy
  split at hy
  · rename_i run hrun
    split at hy
    · rename_i hsettled
      obtain ⟨made, s, -, hending⟩ := exists_steps_of_iterate_eq_ok hrun
      cases hy
      cases hending with
      | capped _ => cases hsettled
      | halted _ hround =>
          exact absurd hround (correct_ne_halt improve tolerance s)
      | settled _ hround => exact isFinite_of_correct_eq_last hround
    · cases hy
  · cases hy

/-- A prediction that is near enough to its correction is corrected once. -/
theorem settle_eq_ok_of_near
    {predicted : α} (hpredicted : Scalar.isFinite predicted = true)
    (hcorrected : Scalar.isFinite (improve predicted) = true)
    (hnear : Scalar.abs (improve predicted - predicted) ≤ tolerance)
    (cap : ℕ) (x : α) :
    settle improve cap tolerance predicted x = .ok (improve predicted) := by
  have hlast : correct improve tolerance predicted =
      .last (improve predicted) (improve predicted) := by
    simp [correct, hpredicted, hcorrected, hnear]
  obtain ⟨rounds, hrounds⟩ : ∃ rounds, max cap 1 = rounds + 1 :=
    ⟨max cap 1 - 1, by omega⟩
  simp [settle, hrounds, iterate, iterateFrom, hlast]

end InitialValue
end NumericalMethods
