import NumericalMethods.Proofs.Binary64.Finite
import NumericalMethods.Proofs.Binary64.Value

/-!
# Sorting by bit patterns

The key by which numbers are sorted tells all numbers apart, the two zeros
included, and agrees with the order of their values.  So numbers that compare as
equal stand together in a sorted list.  The least and the greatest of distinct
numbers do not depend on the order in which they are compared.
-/

namespace NumericalMethods
namespace Binary64

open Float.Model Float.Model.UnpackedFloat

/-! ## The key of a number -/

theorem xor_two_pow {n : ℕ} (hn : n < 2 ^ 63) : n ^^^ 2 ^ 63 = n + 2 ^ 63 := by
  have hlow : (n ^^^ 2 ^ 63) % 2 ^ 63 = n := by
    rw [Nat.xor_mod_two_pow, Nat.mod_self, Nat.xor_zero, Nat.mod_eq_of_lt hn]
  have hhigh : (n ^^^ 2 ^ 63) / 2 ^ 63 = 1 := by
    rw [Nat.xor_div_two_pow, Nat.div_eq_of_lt hn, Nat.zero_xor,
      Nat.div_self (by decide)]
  rw [← Nat.div_add_mod (n ^^^ 2 ^ 63) (2 ^ 63), hlow, hhigh]
  omega

theorem toNat_orderKey (x : Float) :
    (orderKey x).toNat =
      if 2 ^ 63 ≤ x.toBits.toNat then 2 ^ 64 - 1 - x.toBits.toNat
      else x.toBits.toNat + 2 ^ 63 := by
  have hnegative : isNegative x = decide (2 ^ 63 ≤ x.toBits.toNat) := rfl
  rw [orderKey, hnegative]
  by_cases h : 2 ^ 63 ≤ x.toBits.toNat
  · rw [decide_eq_true h, if_pos rfl, if_pos h]
    exact UInt64.toNat_not _
  · rw [decide_eq_false h, if_neg Bool.false_ne_true, if_neg h,
      UInt64.toNat_xor]
    exact xor_two_pow (Nat.lt_of_not_le h)

theorem eq_of_toBits_eq {x y : Float} (h : x.toBits = y.toBits) : x = y := by
  obtain ⟨x⟩ := x
  obtain ⟨y⟩ := y
  have hmodel : x = y := eq_of_toBits_eq_toBits h
  rw [hmodel]

theorem orderKey_injective : Function.Injective orderKey := by
  intro x y h
  apply eq_of_toBits_eq
  apply UInt64.toNat_inj.mp
  have hkeys := congrArg UInt64.toNat h
  rw [toNat_orderKey, toNat_orderKey] at hkeys
  have hx := x.toBits.toNat_lt
  have hy := y.toBits.toNat_lt
  split at hkeys <;> split at hkeys <;> omega

theorem precedes_iff {x y : Float} :
    Scalar.precedes x y = true ↔ (orderKey x).toNat ≤ (orderKey y).toNat := by
  rw [← UInt64.le_iff_toNat_le]
  exact decide_eq_true_iff

theorem precedes_trans {x y z : Float} (hxy : Scalar.precedes x y = true)
    (hyz : Scalar.precedes y z = true) : Scalar.precedes x z = true := by
  rw [precedes_iff] at *
  exact hxy.trans hyz

theorem precedes_total (x y : Float) :
    (Scalar.precedes x y || Scalar.precedes y x) = true := by
  rw [Bool.or_eq_true, precedes_iff, precedes_iff]
  exact Nat.le_total _ _

theorem precedes_antisymm {x y : Float} (hxy : Scalar.precedes x y = true)
    (hyx : Scalar.precedes y x = true) : x = y := by
  rw [precedes_iff] at hxy hyx
  exact orderKey_injective (UInt64.toNat_inj.mp (hxy.antisymm hyx))

/-! ## Keys and values -/

/-- The value without its sign, from the bits of the exponent and of the
mantissa. -/
def magnitude (bits : ℕ) : ℚ :=
  if bits < 2 ^ 52 then bits * 2 ^ (-1074 : ℤ)
  else ((2 ^ 52 + bits % 2 ^ 52 : ℕ) : ℚ) * 2 ^
    (((bits / 2 ^ 52 : ℕ) : ℤ) - 1075)

theorem magnitude_of_lt {bits : ℕ} (h : bits < 2 ^ 52) :
    magnitude bits = bits * 2 ^ (-1074 : ℤ) :=
  if_pos h

theorem magnitude_of_le {bits : ℕ} (h : 2 ^ 52 ≤ bits) :
    magnitude bits =
      ((2 ^ 52 + bits % 2 ^ 52 : ℕ) : ℚ) * 2 ^
        (((bits / 2 ^ 52 : ℕ) : ℤ) - 1075) :=
  if_neg (Nat.not_lt.mpr h)

theorem magnitude_nonneg (bits : ℕ) : 0 ≤ magnitude bits := by
  rw [magnitude]
  split <;> positivity

/-- The mantissa grows by one, or is full, and the next one has the next
exponent. -/
theorem magnitude_mono : Monotone magnitude := by
  apply monotone_nat_of_le_succ
  intro n
  rcases lt_trichotomy (n + 1) (2 ^ 52) with h | h | h
  · rw [magnitude_of_lt (by omega), magnitude_of_lt h]
    gcongr
    exact Nat.le_succ n
  · have hn : n = 2 ^ 52 - 1 := by omega
    subst hn
    rw [magnitude_of_lt (by decide), magnitude_of_le (by decide)]
    norm_num
  · rw [magnitude_of_le (by omega), magnitude_of_le h.le]
    by_cases hfull : n % 2 ^ 52 + 1 = 2 ^ 52
    · have hmod : (n + 1) % 2 ^ 52 = 0 := by omega
      have hdiv : (n + 1) / 2 ^ 52 = n / 2 ^ 52 + 1 := by omega
      have hnext : (((n / 2 ^ 52 + 1 : ℕ) : ℤ) - 1075) =
          ((n / 2 ^ 52 : ℕ) : ℤ) - 1075 + 1 := by
        push_cast
        ring
      have hmantissa : ((2 ^ 52 + n % 2 ^ 52 : ℕ) : ℚ) ≤
          ((2 ^ 52 + 0 : ℕ) : ℚ) * 2 := by
        exact_mod_cast (by omega : 2 ^ 52 + n % 2 ^ 52 ≤ (2 ^ 52 + 0) * 2)
      rw [hmod, hdiv, hnext, zpow_add_one₀ two_ne_zero,
        mul_comm _ (2 : ℚ), ← mul_assoc]
      exact mul_le_mul_of_nonneg_right hmantissa (by positivity)
    · have hmod : (n + 1) % 2 ^ 52 = n % 2 ^ 52 + 1 := by omega
      have hdiv : (n + 1) / 2 ^ 52 = n / 2 ^ 52 := by omega
      rw [hmod, hdiv]
      gcongr
      exact Nat.le_succ _

section Fields

variable (b : BitVec Format.binary64.numBits)

theorem toNat_unpackExponent :
    (unpackExponent b).toNat = b.toNat / 2 ^ 52 % 2 ^ 11 := by
  have hfield : unpackExponent b = BitVec.extractLsb' 52 11 b := rfl
  rw [hfield, BitVec.extractLsb'_toNat, Nat.shiftRight_eq_div_pow]

theorem toNat_unpackMantissa : (unpackMantissa b).toNat = b.toNat % 2 ^ 52 := by
  have hfield : unpackMantissa b = BitVec.extractLsb' 0 52 b := rfl
  rw [hfield, BitVec.extractLsb'_toNat, Nat.shiftRight_zero]

theorem signFactor_unpackSign :
    signFactor (Sign.ofBitVec (unpackSign b)) = if 2 ^ 63 ≤ b.toNat then
      -1 else 1 := by
  have hfield : (unpackSign b).toNat = b.toNat / 2 ^ 63 % 2 ^ 1 := by
    have hfield : unpackSign b = BitVec.extractLsb' 63 1 b := rfl
    rw [hfield, BitVec.extractLsb'_toNat, Nat.shiftRight_eq_div_pow]
  have hlt : b.toNat < 2 ^ 64 := b.isLt
  by_cases hsign : 2 ^ 63 ≤ b.toNat
  · have hone : unpackSign b ≠ 0#1 := by
      intro hzero
      rw [hzero] at hfield
      have hzero' : (0#1).toNat = 0 := rfl
      omega
    rw [if_pos hsign, Sign.ofBitVec, if_neg hone, signFactor]
  · have hzero : unpackSign b = 0#1 := by
      apply BitVec.eq_of_toNat_eq
      rw [hfield, Nat.div_eq_of_lt (Nat.lt_of_not_le hsign)]
      rfl
    rw [if_neg hsign, Sign.ofBitVec, if_pos hzero, signFactor]

end Fields

/-- The value of a finite number, read off its bits. -/
theorem value_eq_magnitude {x : Float} (hx : x.isFinite = true) :
    value x = if 2 ^ 63 ≤ x.toBits.toNat then
      -magnitude (x.toBits.toNat - 2 ^ 63)
      else magnitude x.toBits.toNat := by
  let b : BitVec Format.binary64.numBits := x.toBits.toBitVec
  have hb : b.toNat = x.toBits.toNat := rfl
  have hlt : b.toNat < 2 ^ 64 := b.isLt
  have hunpack : x.toModel.unpack =
      UnpackedFloat.unpack Format.binary64 b := rfl
  have hmodel : (UnpackedFloat.unpack Format.binary64 b).isFinite = true := hx
  have hexponent := toNat_unpackExponent b
  have hmantissa := toNat_unpackMantissa b
  suffices hmagnitude : value x =
      signFactor (Sign.ofBitVec (unpackSign b)) *
        magnitude (b.toNat % 2 ^ 63) by
    rw [hmagnitude, signFactor_unpackSign, ← hb]
    by_cases hsign : 2 ^ 63 ≤ b.toNat
    · have hbits : b.toNat % 2 ^ 63 = b.toNat - 2 ^ 63 := by omega
      rw [if_pos hsign, if_pos hsign, neg_one_mul, hbits]
    · rw [if_neg hsign, if_neg hsign, one_mul,
        Nat.mod_eq_of_lt (Nat.lt_of_not_le hsign)]
  rw [value, hunpack]
  by_cases hones : unpackExponent b = -1#11
  · rcases unpack_of_ones hones with ⟨_, hinfinite⟩ | hundefined
    · rw [hinfinite] at hmodel
      cases hmodel
    · rw [hundefined] at hmodel
      cases hmodel
  · by_cases hzeros : unpackExponent b = 0#11
    · have hnone : (unpackExponent b).toNat = 0 := by rw [hzeros]; rfl
      have hbits : b.toNat % 2 ^ 63 = (unpackMantissa b).toNat := by omega
      rw [hbits, magnitude_of_lt (unpackMantissa b).isLt]
      by_cases hpositive : 0 < (unpackMantissa b).toNat
      · rw [unpack_of_short hzeros hpositive]
        rfl
      · have hzero : unpackMantissa b = 0#52 := by
          apply BitVec.eq_of_toNat_eq
          exact Nat.eq_zero_of_not_pos hpositive
        have hunpack : UnpackedFloat.unpack Format.binary64 b =
            .zero (Sign.ofBitVec (unpackSign b)) :=
          (if_neg hones).trans ((if_pos hzeros).trans (dif_pos hzero))
        rw [hunpack, Nat.eq_zero_of_not_pos hpositive, Nat.cast_zero,
          zero_mul, mul_zero]
        rfl
    · have hwhole := toNat_one_append (unpackMantissa b)
      have hpos : (unpackExponent b).toNat ≠ 0 :=
        fun h => hzeros (BitVec.eq_of_toNat_eq h)
      have hpositive : 0 < (1#1 ++ unpackMantissa b).toNat := by omega
      have hlow : b.toNat % 2 ^ 63 % 2 ^ 52 =
          (unpackMantissa b).toNat := by omega
      have hhigh : b.toNat % 2 ^ 63 / 2 ^ 52 =
          (unpackExponent b).toNat := by omega
      rw [unpack_of_mixed hones hzeros hpositive,
        magnitude_of_le (by omega), hlow, hhigh, ← hwhole]
      rfl

/-- Sorting by keys is sorting by values. -/
theorem value_le_of_precedes
    {x y : Float} (hx : x.isFinite = true) (hy : y.isFinite = true)
    (h : Scalar.precedes x y = true) : value x ≤ value y := by
  have hx' := x.toBits.toNat_lt
  have hy' := y.toBits.toNat_lt
  rw [precedes_iff, toNat_orderKey, toNat_orderKey] at h
  rw [value_eq_magnitude hx, value_eq_magnitude hy]
  by_cases hnegative : 2 ^ 63 ≤ x.toBits.toNat
  · by_cases hnegative' : 2 ^ 63 ≤ y.toBits.toNat
    · rw [if_pos hnegative, if_pos hnegative'] at h ⊢
      exact neg_le_neg (magnitude_mono (by omega))
    · rw [if_pos hnegative, if_neg hnegative']
      exact (neg_nonpos.mpr (magnitude_nonneg _)).trans (magnitude_nonneg _)
  · by_cases hnegative' : 2 ^ 63 ≤ y.toBits.toNat
    · rw [if_neg hnegative, if_pos hnegative'] at h
      omega
    · rw [if_neg hnegative, if_neg hnegative'] at h ⊢
      exact magnitude_mono (by omega)

theorem precedes_of_value_lt
    {x y : Float} (hx : x.isFinite = true) (hy : y.isFinite = true)
    (h : value x < value y) : Scalar.precedes x y = true := by
  rcases Bool.or_eq_true_iff.mp (precedes_total x y) with hxy | hyx
  · exact hxy
  · exact absurd (value_le_of_precedes hy hx hyx) (not_le.mpr h)

/-! ## The least and the greatest of a list -/

/-- Of two finite numbers the one that comes first by a key is chosen. -/
structure Chooses (choose : Float → Float → Float)
    (key : Float → ℚ) : Prop where
  either : ∀ x y : Float, x.isFinite = true → y.isFinite = true →
    choose x y = x ∨ choose x y = y
  le_left : ∀ x y : Float, x.isFinite = true → y.isFinite = true →
    key (choose x y) ≤ key x
  le_right : ∀ x y : Float, x.isFinite = true → y.isFinite = true →
    key (choose x y) ≤ key y

section Chooses

variable {choose : Float → Float → Float} {key : Float → ℚ}
variable {first first' : Float} {rest rest' : List Float}

/-- A list is combined into one of its entries that come first. -/
theorem Chooses.foldl_mem (h : Chooses choose key)
    (hfinite : ∀ x ∈ first :: rest, x.isFinite = true) :
    rest.foldl choose first ∈ first :: rest ∧
      ∀ x ∈ first :: rest, key (rest.foldl choose first) ≤ key x := by
  induction rest generalizing first with
  | nil => simp
  | cons second rest ih =>
      have hfirst : first.isFinite = true := hfinite _ (by simp)
      have hsecond : second.isFinite = true := hfinite _ (by simp)
      have heither := h.either first second hfirst hsecond
      have hfinite' : ∀ x ∈ choose first second :: rest, x.isFinite = true := by
        intro x hx
        rcases List.mem_cons.mp hx with rfl | hx
        · rcases heither with h | h
          · rwa [h]
          · rwa [h]
        · exact hfinite x (by simp [hx])
      obtain ⟨hmem, hle⟩ := ih hfinite'
      have hchosen := hle _ List.mem_cons_self
      rw [List.foldl_cons]
      constructor
      · rcases List.mem_cons.mp hmem with hlast | hlater
        · rw [hlast]
          rcases heither with h | h
          · simp [h]
          · simp [h]
        · simp [hlater]
      · intro x hx
        rcases List.mem_cons.mp hx with rfl | hx
        · exact hchosen.trans (h.le_left _ _ hfirst hsecond)
        · rcases List.mem_cons.mp hx with rfl | hx
          · exact hchosen.trans (h.le_right _ _ hfirst hsecond)
          · exact hle x (List.mem_cons_of_mem _ hx)

/-- If the key tells the entries apart, their order does not matter. -/
theorem Chooses.foldl_eq_of_perm (h : Chooses choose key)
    (hfinite : ∀ x ∈ first :: rest, x.isFinite = true)
    (hkey : ∀ x ∈ first :: rest, ∀ y ∈ first :: rest, key x = key y → x = y)
    (hperm : (first' :: rest').Perm (first :: rest)) :
    rest'.foldl choose first' = rest.foldl choose first := by
  obtain ⟨hmem, hle⟩ := h.foldl_mem hfinite
  obtain ⟨hmem', hle'⟩ := h.foldl_mem fun x hx => hfinite x (hperm.subset hx)
  apply hkey _ (hperm.subset hmem') _ hmem
  exact (hle' _ (hperm.symm.subset hmem)).antisymm (hle _ (hperm.subset hmem'))

end Chooses

theorem isNaN_of_isFinite {x : Float} (hx : x.isFinite = true) :
    x.isNaN = false := by
  have hmodel : x.toModel.unpack.isFinite = true := hx
  rw [Bool.eq_false_iff, Ne, isNaN_iff_unpack_eq]
  intro hunpack
  rw [hunpack] at hmodel
  cases hmodel

theorem Chooses.of_cases
    {choose : Float → Float → Float} {key : Float → ℚ}
    (h : ∀ x y : Float, x.isFinite = true → y.isFinite = true →
      choose x y = y ∧ key y ≤ key x ∨ choose x y = x ∧ key x ≤ key y) :
    Chooses choose key := by
  constructor
  · intro x y hx hy
    exact ((h x y hx hy).imp And.left And.left).symm
  · intro x y hx hy
    rcases h x y hx hy with ⟨hy, hle⟩ | ⟨hx, -⟩
    · rwa [hy]
    · rw [hx]
  · intro x y hx hy
    rcases h x y hx hy with ⟨hy, -⟩ | ⟨hx, hle⟩
    · rw [hy]
    · rwa [hx]

theorem chooses_smaller : Chooses smaller value := by
  apply Chooses.of_cases
  intro x y hx hy
  rw [smaller, isNaN_of_isFinite hx, if_neg Bool.false_ne_true]
  by_cases hlt : y < x
  · rw [if_pos hlt]
    exact .inl ⟨rfl, ((lt_iff_value_lt hy hx).mp hlt).le⟩
  · rw [if_neg hlt]
    exact .inr ⟨rfl, not_lt.mp fun h => hlt ((lt_iff_value_lt hy hx).mpr h)⟩

theorem chooses_larger : Chooses larger fun x => -value x := by
  apply Chooses.of_cases
  intro x y hx hy
  rw [larger, isNaN_of_isFinite hx, if_neg Bool.false_ne_true]
  by_cases hlt : x < y
  · rw [if_pos hlt]
    exact .inl ⟨rfl, neg_le_neg ((lt_iff_value_lt hx hy).mp hlt).le⟩
  · rw [if_neg hlt]
    exact .inr
      ⟨rfl, neg_le_neg (not_lt.mp fun h => hlt ((lt_iff_value_lt hx hy).mpr h))⟩

end Binary64
end NumericalMethods
