import Mathlib.Data.Nat.Notation
import NumericalMethods.Config
import NumericalMethods.Proofs.Failure
import NumericalMethods.Scalar.Binary64

/-!
# Usable configurations

The conditions a configuration is checked for, all at once instead of up to the
first one that is violated.
-/

namespace NumericalMethods
namespace Config

variable {α : Type} [Scalar α]

/-- A configuration that violates no condition. -/
structure Usable (c : Config α) : Prop where
  positive : ∀ p ∈ c.positives, Scalar.isPositiveFinite p.2 = true
  caps : ∀ p ∈ c.caps, p.2 ≠ 0
  inOrder : c.initialSubintervals ≤ c.maxSubintervals
  correlation : 0 ≤ c.weakCorrelation ∧ c.weakCorrelation ≤ 1
  level : ∃ level, LogLevel.lookup (α := α) c.logLevel = .ok level

theorem usable_of_validate {c : Config α} (h : c.validate = .ok ()) :
    c.Usable := by
  rw [validate] at h
  split at h
  · cases h
  · rename_i hpositive
    split at h
    · cases h
    · rename_i hcaps
      split at h
      · cases h
      · rename_i hinOrder
        split at h
        · rename_i hcorrelation
          refine ⟨fun p hp => ?_, fun p hp => ?_, Nat.not_lt.mp hinOrder,
            hcorrelation, ?_⟩
          · simpa using List.find?_eq_none.mp hpositive p hp
          · simpa using List.find?_eq_none.mp hcaps p hp
          · cases hlevel : LogLevel.lookup (α := α) c.logLevel with
            | error e => simp [hlevel, Except.map] at h
            | ok level => exact ⟨level, rfl⟩
        · cases h

namespace Usable

variable {c : Config α} (h : c.Usable)
include h

theorem initialSubintervals_pos : 0 < c.initialSubintervals :=
  Nat.pos_of_ne_zero
    (h.caps ("initial_subintervals", c.initialSubintervals)
      (by simp [Config.caps]))

theorem isPositiveFinite_singularityOffset :
    Scalar.isPositiveFinite c.singularityOffset = true :=
  h.positive ("singularity_offset", c.singularityOffset) (by simp [positives])

end Usable

theorem validate_standard : (standard : Config Float).validate = .ok () := by
  decide +kernel

end Config
end NumericalMethods
