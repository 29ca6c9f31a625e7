import NumericalMethods.Proofs.Binary64.ErrorBounds
import NumericalMethods.Proofs.Binary64.Infinite

/-!
# Midpoints of binary numbers

The midpoint of two numbers is half of their rounded sum.  Where the sum is
finite it lies between them, and where it is too large the midpoint is infinite.
A midpoint is halfway between itself and itself, infinite or not: half of a
number leaves room for doubling.
-/

namespace NumericalMethods
namespace Binary64

open Float.Model Float.Model.UnpackedFloat

variable {x y z : Float} {s : Sign}

/-! ## Infinite midpoints -/

theorem unpack_half_of_infinite (hx : x.toModel.unpack = .infinity s) :
    (x / 2.0).toModel.unpack = .infinity s := by
  have hmodel : (x / 2.0).toModel =
      pack (UnpackedFloat.div Format.binary64 x.toModel.unpack
        (2.0 : Float).toModel.unpack) := rfl
  apply unpack_of_toModel_eq_infinity
  rw [hmodel, hx]
  cases s <;> rfl

/-- The midpoint of an infinite number and a finite one is the infinite one. -/
theorem middle_of_infinite (hx : x.toModel.unpack = .infinity s)
    (hy : y.isFinite = true ∨ y = x) :
    (x + y) / 2.0 = x ∧ (y + x) / 2.0 = x := by
  obtain ⟨hleft, hright⟩ := unpack_add_of_infinite hx hy
  constructor
  · exact eq_of_unpack_eq ((unpack_half_of_infinite hleft).trans hx.symm)
  · exact eq_of_unpack_eq ((unpack_half_of_infinite hright).trans hx.symm)

/-! ## Halves and doubles -/

/-- The divisor of a midpoint, as the methods write it. -/
theorem value_two : value 2.0 = 2 := by
  have hunpack : (2.0 : Float).toModel.unpack =
      .finite .positive 4503599627370496 (-51) (by decide) := by rfl
  rw [value_of_unpack_eq hunpack, signFactor_positive_mul]
  norm_num

theorem rounds_half (hx : x.isFinite = true) :
    Rounds (x / 2.0) (value x / 2) := by
  have htwo : value 2.0 ≠ 0 := by
    rw [value_two]
    exact two_ne_zero
  simpa only [value_two] using rounds_div (y := 2.0) hx rfl htwo

theorem isFinite_half_iff : (x / 2.0).isFinite = true ↔ x.isFinite = true := by
  refine ⟨isFinite_of_isFinite_div, ?_⟩
  intro hx
  apply (rounds_half hx).isFinite_of_abs_le hx
  rw [abs_div, abs_two]
  exact half_le_self (abs_nonneg _)

/-- Twice a number needs no more digits than the number. -/
theorem Represents.nearest_two_mul {u : UnpackedFloat} {q : ℚ}
    (h : Represents u q) :
    nearest (2 * q) = 2 * q := by
  cases h with
  | zero s => rw [mul_zero, nearest_zero]
  | @finite s m e h =>
      have hdouble : 2 * (signFactor s * ((m : ℚ) * 2 ^ e)) =
          s.apply m * 2 ^ (e + 1) := by
        rw [zpow_add_one₀ two_ne_zero, cast_apply, Int.cast_natCast]
        ring
      apply nearest_of_abs_lt hdouble
      · have hleast := h.least
        omega
      · have hmantissa : |s.apply (m : ℤ)| = m := by
          cases s with
          | positive => exact Nat.abs_cast m
          | negative => exact (abs_neg _).trans (Nat.abs_cast m)
        rw [hmantissa]
        exact_mod_cast h.lt

theorem nearest_two_mul_value (hx : x.isFinite = true) :
    nearest (2 * value x) = 2 * value x :=
  (represents_value hx).nearest_two_mul

/-- No finite number exceeds the one with the largest mantissa and exponent. -/
theorem abs_value_le_greatest (hx : x.isFinite = true) :
    |value x| ≤ (2 ^ 53 - 1) * 2 ^ (971 : ℤ) := by
  have hmodel : x.toModel.unpack.isFinite = true := hx
  cases hunpack : x.toModel.unpack with
  | notANumber => rw [hunpack] at hmodel; cases hmodel
  | infinity s => rw [hunpack] at hmodel; cases hmodel
  | zero s =>
      have hzero : value x = 0 := congrArg rational hunpack
      rw [hzero, abs_zero]
      norm_num
  | finite s m e hm =>
      obtain ⟨hcanonical, he⟩ := canonical_of_unpack_eq hunpack
      have hmantissa : (m : ℚ) ≤ 2 ^ 53 - 1 := by
        have hlt : (m : ℚ) + 1 ≤ 2 ^ 53 := by exact_mod_cast hcanonical.lt
        linarith
      have hpower : (2 : ℚ) ^ e ≤ 2 ^ (971 : ℤ) :=
        zpow_le_zpow_right₀ one_le_two he
      rw [value_of_unpack_eq hunpack, abs_signFactor_mul s hcanonical.value_pos]
      exact mul_le_mul hmantissa hpower (by positivity) (by norm_num)

/-- Half of a number is small enough to be doubled. -/
theorem isFinite_half_add_half (hx : x.isFinite = true) :
    (x / 2.0 + x / 2.0).isFinite = true := by
  have hhalf : (x / 2.0).isFinite = true := isFinite_half_iff.mpr hx
  have hgreatest : nearest ((2 ^ 53 - 1) * 2 ^ (970 : ℤ)) =
    (2 ^ 53 - 1) * 2 ^ (970 : ℤ) :=
    nearest_of_abs_lt (n := 2 ^ 53 - 1) (e := 970) (by norm_num)
      (by decide) (by decide)
  have hpower : (2 : ℚ) ^ (971 : ℤ) = 2 ^ (970 : ℤ) * 2 :=
    zpow_add_one₀ two_ne_zero 970
  have hle := abs_value_le_greatest hx
  rw [hpower] at hle
  have hbound : |value (x / 2.0)| ≤ (2 ^ 53 - 1) * 2 ^ (970 : ℤ) := by
    rw [(rounds_half hx).value_eq hhalf, abs_nearest, ← hgreatest]
    apply nearest_mono
    rw [abs_div, abs_two]
    linarith
  rw [(rounds_add hhalf hhalf).isFinite_iff, ← two_mul,
    nearest_two_mul_value hhalf, abs_mul, abs_two]
  calc 2 * |value (x / 2.0)| ≤ 2 * ((2 ^ 53 - 1) * 2 ^ (970 : ℤ)) :=
        mul_le_mul_of_nonneg_left hbound zero_le_two
    _ = (2 ^ 53 - 1) * 2 ^ (971 : ℤ) := by rw [hpower]; ring
    _ < 2 ^ 53 * 2 ^ (971 : ℤ) :=
        mul_lt_mul_of_pos_right (by norm_num) (by positivity)
    _ = 2 ^ 1024 := (pow_add 2 53 971).symm

/-! ## Between two numbers -/

theorem le_middle (hx : x.isFinite = true) (hy : y.isFinite = true)
    (hle : x ≤ y) (hsum : (x + y).isFinite = true) :
    x ≤ (x + y) / 2.0 ∧ (x + y) / 2.0 ≤ y := by
  have hmiddle : ((x + y) / 2.0).isFinite = true := isFinite_half_iff.mpr hsum
  have hvalue : value ((x + y) / 2.0) = nearest (value (x + y) / 2) :=
    (rounds_half hsum).value_eq hmiddle
  have hsum' : value (x + y) = nearest (value x + value y) :=
    (rounds_add hx hy).value_eq hsum
  rw [le_iff_value_le hx hy] at hle
  rw [le_iff_value_le hx hmiddle, le_iff_value_le hmiddle hy, hvalue]
  constructor
  · have hlower : 2 * value x ≤ value (x + y) := by
      rw [hsum', ← nearest_two_mul_value hx]
      exact nearest_mono (by linarith)
    calc value x = nearest (value x) := (nearest_value hx).symm
      _ ≤ nearest (value (x + y) / 2) := nearest_mono (by linarith)
  · have hupper : value (x + y) ≤ 2 * value y := by
      rw [hsum', ← nearest_two_mul_value hy]
      exact nearest_mono (by linarith)
    calc nearest (value (x + y) / 2) ≤ nearest (value y) :=
          nearest_mono (by linarith)
      _ = value y := nearest_value hy

/-- Numbers between two that can be doubled can be added. -/
theorem isFinite_add_of_le_of_le {low high : Float}
    (hlow : (low + low).isFinite = true) (hhigh : (high + high).isFinite = true)
    (hx : low ≤ x ∧ x ≤ high) (hy : low ≤ y ∧ y ≤ high) :
    (x + y).isFinite = true := by
  obtain ⟨hlow', -⟩ := isFinite_of_isFinite_add hlow
  obtain ⟨hhigh', -⟩ := isFinite_of_isFinite_add hhigh
  have hx' := isFinite_of_le_of_le hlow' hhigh' hx.1 hx.2
  have hy' := isFinite_of_le_of_le hlow' hhigh' hy.1 hy.2
  rw [le_iff_value_le hlow' hx', le_iff_value_le hx' hhigh'] at hx
  rw [le_iff_value_le hlow' hy', le_iff_value_le hy' hhigh'] at hy
  rw [(rounds_add hlow' hlow').isFinite_iff, abs_lt] at hlow
  rw [(rounds_add hhigh' hhigh').isFinite_iff, abs_lt] at hhigh
  rw [(rounds_add hx' hy').isFinite_iff, abs_lt]
  constructor
  · calc -2 ^ 1024 < nearest (value low + value low) := hlow.1
      _ ≤ nearest (value x + value y) := nearest_mono (add_le_add hx.1 hy.1)
  · calc nearest (value x + value y) ≤ nearest (value high + value high) :=
          nearest_mono (add_le_add hx.2 hy.2)
      _ < 2 ^ 1024 := hhigh.2

/-- A midpoint is the midpoint between itself and itself. -/
theorem middle_self (hx : x.isFinite = true) (hy : y.isFinite = true)
    (hz : z = (x + y) / 2.0) : (z + z) / 2.0 = z := by
  rcases isFinite_or_unpack_eq (isNaN_add_of_isFinite hx hy) with hsum | ⟨s, hs⟩
  · have hfinite : z.isFinite = true := hz ▸ isFinite_half_iff.mpr hsum
    have hdouble : (z + z).isFinite = true := hz ▸ isFinite_half_add_half hsum
    have hmiddle : ((z + z) / 2.0).isFinite = true :=
      isFinite_half_iff.mpr hdouble
    have hvalue : value ((z + z) / 2.0) = value z := by
      rw [(rounds_half hdouble).value_eq hmiddle,
        (rounds_add hfinite hfinite).value_eq hdouble, ← two_mul,
        nearest_two_mul_value hfinite, mul_div_cancel_left₀ _ two_ne_zero,
        nearest_value hfinite]
    by_cases hzero : value z = 0
    · obtain ⟨s, hs⟩ := exists_unpack_eq_zero
        ((beq_iff_value_eq hfinite rfl).mpr (hzero.trans value_zero.symm))
      have hsum' : (z + z).toModel.unpack = .zero s := by
        have hmodel : (z + z).toModel =
            pack (UnpackedFloat.add Format.binary64 z.toModel.unpack
              z.toModel.unpack) := rfl
        rw [hmodel, hs]
        cases s <;> rfl
      have hhalf : ((z + z) / 2.0).toModel.unpack = .zero s := by
        have hmodel : ((z + z) / 2.0).toModel =
            pack (UnpackedFloat.div Format.binary64
            (z + z).toModel.unpack (2.0 : Float).toModel.unpack) := rfl
        rw [hmodel, hsum']
        cases s <;> rfl
      exact eq_of_unpack_eq (hhalf.trans hs.symm)
    · exact eq_of_value_eq hmiddle hfinite hvalue (hvalue ▸ hzero)
  · have hinfinite : z.toModel.unpack = .infinity s :=
      hz ▸ unpack_half_of_infinite hs
    exact (middle_of_infinite hinfinite (.inr rfl)).1

end Binary64
end NumericalMethods
