import Mathlib.Algebra.Order.Field.Basic
import Mathlib.Logic.Function.Iterate
import Mathlib.Tactic.FieldSimp
import Mathlib.Tactic.Linarith
import Mathlib.Tactic.Ring

/-!
# Contractions of an ordered field

A contraction brings any two points closer together by a factor below one.
Along its orbit the movements shrink by this factor, so the orbit stays within a
bound given by the first movement, and the last movement tells how far a fixed
point still is.  No limit is taken: the field need not be complete.
-/

namespace NumericalMethods

variable {K : Type} [Field K] [LinearOrder K] [IsStrictOrderedRing K] {q : K}

/-! ## Geometric bounds -/

/-- A bound that a contraction followed by a movement of at most `moved`
keeps. -/
theorem mul_div_one_sub_add (hq : q < 1) (moved : K) :
    q * (moved / (1 - q)) + moved = moved / (1 - q) := by
  have hne : 1 - q ≠ 0 := (sub_pos.mpr hq).ne'
  field_simp
  ring

/-- A distance that is bounded in terms of itself. -/
theorem le_div_one_sub_mul
    (hq : q < 1) {distance moved : K} (h : distance ≤ q * (moved + distance)) :
    distance ≤ q / (1 - q) * moved := by
  rw [div_mul_eq_mul_div, le_div_iff₀ (sub_pos.mpr hq)]
  linarith

/-! ## Orbits -/

/-- Two points are brought closer together by the factor `q`. -/
structure Contracts (φ : K → K) (q : K) : Prop where
  nonneg : 0 ≤ q
  lt_one : q < 1
  abs_apply_sub_le : ∀ u v, |φ u - φ v| ≤ q * |u - v|

namespace Contracts

variable {φ : K → K}

omit [IsStrictOrderedRing K] in
theorem abs_iterate_succ_sub_le (hφ : Contracts φ q) (x : K) (k : ℕ) :
    |φ^[k + 2] x - φ^[k + 1] x| ≤ q * |φ^[k + 1] x - φ^[k] x| := by
  rw [Function.iterate_succ_apply' φ (k + 1), Function.iterate_succ_apply' φ k]
  exact hφ.abs_apply_sub_le _ _

theorem abs_iterate_sub_le_pow (hφ : Contracts φ q) (x : K) (k : ℕ) :
    |φ^[k + 1] x - φ^[k] x| ≤ q ^ k * |φ x - x| := by
  induction k with
  | zero => simp
  | succ k ih =>
      calc |φ^[k + 2] x - φ^[k + 1] x|
          ≤ q * |φ^[k + 1] x - φ^[k] x| := hφ.abs_iterate_succ_sub_le x k
        _ ≤ q * (q ^ k * |φ x - x|) := mul_le_mul_of_nonneg_left ih hφ.nonneg
        _ = q ^ (k + 1) * |φ x - x| := by rw [pow_succ', mul_assoc]

/-- The orbit stays near its start. -/
theorem abs_iterate_sub_le (hφ : Contracts φ q) (x : K) (k : ℕ) :
    |φ^[k] x - x| ≤ |φ x - x| / (1 - q) := by
  induction k with
  | zero =>
      rw [Function.iterate_zero_apply, sub_self, abs_zero]
      exact div_nonneg (abs_nonneg _) (sub_nonneg.mpr hφ.lt_one.le)
  | succ k ih =>
      rw [Function.iterate_succ_apply']
      calc |φ (φ^[k] x) - x| ≤ |φ (φ^[k] x) - φ x| + |φ x - x| :=
            abs_sub_le _ _ _
        _ ≤ q * |φ^[k] x - x| + |φ x - x| := by
          gcongr; exact hφ.abs_apply_sub_le _ _
        _ ≤ q * (|φ x - x| / (1 - q)) + |φ x - x| := by
            gcongr
            exact hφ.nonneg
        _ = |φ x - x| / (1 - q) := mul_div_one_sub_add hφ.lt_one _

/-- The last movement bounds the distance of a fixed point. -/
theorem abs_sub_fixed_le (hφ : Contracts φ q) (y : K) {z : K} (hz : φ z = z) :
    |φ y - z| ≤ q / (1 - q) * |φ y - y| := by
  apply le_div_one_sub_mul hφ.lt_one
  calc |φ y - z| = |φ y - φ z| := by rw [hz]
    _ ≤ q * |y - z| := hφ.abs_apply_sub_le y z
    _ ≤ q * (|y - φ y| + |φ y - z|) :=
        mul_le_mul_of_nonneg_left (abs_sub_le _ _ _) hφ.nonneg
    _ = q * (|φ y - y| + |φ y - z|) := by rw [abs_sub_comm y]

end Contracts
end NumericalMethods
