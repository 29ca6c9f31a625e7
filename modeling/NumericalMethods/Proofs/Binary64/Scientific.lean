import NumericalMethods.Proofs.Binary64.ErrorBounds

/-!
# Binary numbers from decimals

A decimal is converted to the number nearest to it.  Short decimals are
converted by one operation on exact numbers, all others by one exact operation
on mantissas.
-/

namespace NumericalMethods
namespace Binary64

open Float.Model Float.Model.UnpackedFloat

/-! ## Short decimals -/

theorem value_toFloat {m : ℕ} (hpos : 0 < m) (hm : m < 2 ^ 53) :
    m.toUInt64.toFloat.isFinite = true ∧ value m.toUInt64.toFloat = m := by
  have hunpack := unpack_toFloat hpos hm
  have hlog := log2_le_of_lt hpos hm
  constructor
  · have hfinite : m.toUInt64.toFloat.isFinite =
        m.toUInt64.toFloat.toModel.unpack.isFinite := rfl
    rw [hfinite, hunpack]
    rfl
  · rw [value_of_unpack_eq hunpack, signFactor_positive_mul, Nat.cast_mul,
      Nat.cast_pow, Nat.cast_ofNat, mul_assoc, ← zpow_natCast,
      ← zpow_add₀ two_ne_zero]
    have hexponent : ((52 - m.log2 : ℕ) : ℤ) + (m.log2 - 52) = 0 := by omega
    rw [hexponent, zpow_zero, mul_one]

/-- The tabulated powers of ten are exact. -/
theorem value_powerOfTen : ∀ k : Fin 23,
    Float.exactlyRepresentablePowersOfTen[k.val].isFinite = true ∧
      value Float.exactlyRepresentablePowersOfTen[k.val] = 10 ^ k.val := by
  decide +kernel

section Conversion

variable {m k : ℕ}

theorem ofScientific_short (h : m < 2 ^ 53 ∧ k ≤ 22) (quotient : Bool) :
    Float.ofScientific m quotient k =
      if quotient then
        m.toUInt64.toFloat /
          Float.exactlyRepresentablePowersOfTen[(⟨k, by omega⟩ : Fin 23).val]
      else
        m.toUInt64.toFloat *
          Float.exactlyRepresentablePowersOfTen[(⟨k, by omega⟩ : Fin 23).val] :=
  dif_pos h

theorem ofScientific_long (h : ¬ (m < 2 ^ 53 ∧ k ≤ 22)) (quotient : Bool) :
    Float.ofScientific m quotient k =
      Float.ofModel (Float.Model.ofScientific m
        (if quotient then Int.negOfNat k else Int.ofNat k)) :=
  dif_neg h

/-! ## All decimals -/

theorem shiftLeft_pos (hm : 0 < m) : 0 < m <<< 53 := by
  rw [Nat.shiftLeft_eq]
  positivity

variable (hm : 0 < m) (hk : k ≤ 2048)
include hm hk

/-- What is converted exactly before it is rounded. -/
theorem ofScientific_unpacked (hshift : 0 < m <<< 53) (hpower : 0 < 10 ^ k)
    (e : ℤ) (he : e.natAbs = k) :
    UnpackedFloat.ofScientific Format.binary64 m e =
      if 0 ≤ e then
        UnpackedFloat.mul Format.binary64
          (.finite .positive (m <<< 53) (-53) hshift)
          (.finite .positive (10 ^ k) 0 hpower)
      else
        UnpackedFloat.div Format.binary64 (.finite .positive m 0 hm)
          (.finite .positive (10 ^ k) 0 hpower) := by
  have hbound : (2 : ℤ) ^ Format.binary64.exponentBits = 2048 := by decide
  have hlarge : ¬ e > (2 : ℤ) ^ Format.binary64.exponentBits := by
    rw [hbound]
    omega
  have hsmall : ¬ e < -((2 : ℤ) ^ Format.binary64.exponentBits + m.log2) := by
    rw [hbound]
    omega
  rw [UnpackedFloat.ofScientific, dif_neg hm.ne', if_neg hlarge, if_neg hsmall]
  by_cases hsign : 0 ≤ e
  · have hexponent : e.toNat = k := by omega
    subst hexponent
    rw [if_pos hsign, if_pos hsign]
    rfl
  · have hexponent : (-e).toNat = k := by omega
    subst hexponent
    rw [if_neg hsign, if_neg hsign]

/-- A decimal with zeros behind it becomes the number nearest to it. -/
theorem rounds_ofScientific_mul :
    Rounds (Float.ofScientific m false k) (m * 10 ^ k) := by
  by_cases hshort : m < 2 ^ 53 ∧ k ≤ 22
  · obtain ⟨hfinite, hvalue⟩ := value_toFloat hm hshort.1
    obtain ⟨hfinite', hvalue'⟩ := value_powerOfTen ⟨k, by omega⟩
    rw [ofScientific_short hshort, if_neg Bool.false_ne_true]
    have h := rounds_mul hfinite hfinite'
    rwa [hvalue, hvalue'] at h
  · have hunpacked :=
      ofScientific_unpacked hm hk (shiftLeft_pos hm) (by positivity) (k : ℤ) rfl
    rw [if_pos (Int.natCast_nonneg k)] at hunpacked
    have hvalue : ((m <<< 53 * 10 ^ k : ℕ) : ℚ) * 2 ^ (-53 : ℤ) =
        m * 10 ^ k := by
      have hshift := mul_two_pow_shiftLeft m 0 53
      rw [zpow_zero, mul_one] at hshift
      rw [Nat.cast_mul, mul_right_comm, ← hshift, Nat.cast_pow]
      rfl
    have hlarge : 2 ^ 52 ≤ m <<< 53 * 10 ^ k := by
      rw [Nat.shiftLeft_eq]
      calc 2 ^ 52 ≤ 1 * 2 ^ 53 * 1 := by decide
        _ ≤ m * 2 ^ 53 * 10 ^ k :=
            Nat.mul_le_mul (Nat.mul_le_mul_right _ hm)
              (Nat.one_le_pow _ _ (by decide))
    obtain ⟨product, hproduct⟩ : ∃ product,
        m <<< 53 * 10 ^ k = product := ⟨_, rfl⟩
    rw [hproduct] at hlarge hvalue
    have hfine : (-53 : ℤ) ≤ stepExponent ((product : ℚ) * 2 ^ (-53 : ℤ)) := by
      apply le_stepExponent_of_le
      rw [abs_of_nonneg (by positivity)]
      apply mul_le_mul_of_nonneg_right _ (by positivity)
      exact_mod_cast hlarge
    have hpos : 0 < product := lt_of_lt_of_le (by decide) hlarge
    have h := (Awaits.exact hpos hfine).represents .positive
    rw [hvalue, signFactor_positive_mul] at h
    rw [ofScientific_long hshort, if_neg Bool.false_ne_true]
    refine .of_represents
      (u := UnpackedFloat.ofScientific Format.binary64 m (k : ℤ)) ?_ rfl
    rw [hunpacked]
    subst hproduct
    exact h

/-- A decimal with digits behind its point becomes the number nearest to it. -/
theorem rounds_ofScientific_div :
    Rounds (Float.ofScientific m true k) (m / 10 ^ k) := by
  by_cases hshort : m < 2 ^ 53 ∧ k ≤ 22
  · obtain ⟨hfinite, hvalue⟩ := value_toFloat hm hshort.1
    obtain ⟨hfinite', hvalue'⟩ := value_powerOfTen ⟨k, by omega⟩
    rw [ofScientific_short hshort, if_pos rfl]
    have h := rounds_div hfinite hfinite' (by rw [hvalue']; positivity)
    rwa [hvalue, hvalue'] at h
  · rcases Nat.eq_zero_or_pos k with rfl | hpos
    · have hsame : Float.ofScientific m true 0 =
          Float.ofScientific m false 0 := by
        rw [ofScientific_long hshort, ofScientific_long hshort]
        rfl
      have h := rounds_ofScientific_mul hm hk
      rw [pow_zero, mul_one] at h
      rwa [pow_zero, div_one, hsame]
    · have hpower : 0 < 10 ^ k := by positivity
      have hexponent : (Int.negOfNat k).natAbs = k := by
        rw [Int.negOfNat_eq, Int.ofNat_eq_natCast]
        omega
      have hunpacked :=
        ofScientific_unpacked hm hk (shiftLeft_pos hm) hpower
          (Int.negOfNat k) hexponent
      have hnegative : ¬ 0 ≤ Int.negOfNat k := by
        rw [Int.negOfNat_eq, Int.ofNat_eq_natCast]
        omega
      rw [if_neg hnegative] at hunpacked
      have h := (awaits_divCore hm hpower 0 0).represents
        (Sign.positive / Sign.positive)
      have hsign : (Sign.positive / Sign.positive : Sign) = .positive := rfl
      rw [zpow_zero, mul_one, mul_one, hsign, signFactor_positive_mul,
        Nat.cast_pow, Nat.cast_ofNat] at h
      rw [ofScientific_long hshort, if_pos rfl]
      refine .of_represents
        (u := UnpackedFloat.ofScientific Format.binary64 m
          (Int.negOfNat k)) ?_ rfl
      rw [hunpacked]
      exact h

end Conversion

end Binary64
end NumericalMethods
