import Mathlib.Algebra.Group.Int.Defs
import Mathlib.Algebra.Group.Nat.Defs
import NumericalMethods.Scalar.Binary64

/-!
# Normal binary numbers

A normal number has a mantissa of 53 binary digits.  It is stored without loss,
and every finite number that is not too small is normal.
-/

namespace NumericalMethods
namespace Binary64

open Float.Model Float.Model.UnpackedFloat

/-- A mantissa of full length with an exponent in range. -/
structure Normal (m : ℕ) (e : ℤ) : Prop where
  lower : 2 ^ 52 ≤ m
  upper : m < 2 ^ 53
  least : -1074 ≤ e
  greatest : e ≤ 971

theorem Normal.pos {m : ℕ} {e : ℤ} (h : Normal m e) : 0 < m :=
  Nat.lt_of_lt_of_le (by decide) h.lower

theorem Normal.log2_eq {m : ℕ} {e : ℤ} (h : Normal m e) : m.log2 = 52 :=
  (Nat.log2_eq_iff (Nat.ne_of_gt h.pos)).mpr ⟨h.lower, h.upper⟩

/-! ## Storage -/

theorem unpackSign_packComponents
    (s : Sign) (e : BitVec 11) (m : BitVec 52) :
    unpackSign (packComponents Format.binary64 s e m) = s.toBitVec := by
  have hbit : unpackSign (packComponents Format.binary64 s e m) =
      BitVec.extractLsb' 63 1 (s.toBitVec ++ e ++ m) := rfl
  rw [hbit, BitVec.extractLsb'_append_eq_of_le (by decide),
    BitVec.extractLsb'_append_eq_of_le (by decide)]
  exact BitVec.extractLsb'_eq_self

theorem ofBitVec_toBitVec (s : Sign) : Sign.ofBitVec s.toBitVec = s := by
  cases s <;> rfl

theorem toNat_one_append (m : BitVec 52) :
    (1#1 ++ m).toNat = 2 ^ 52 + m.toNat := by
  rw [BitVec.toNat_append, ← Nat.shiftLeft_add_eq_or_of_lt m.isLt]
  rfl

theorem finite_congr
    {s : Sign} {m m' : ℕ} {e e' : ℤ} {hm : 0 < m} {hm' : 0 < m'}
    (hmantissa : m = m') (hexponent : e = e') :
    UnpackedFloat.finite s m e hm = .finite s m' e' hm' := by
  subst hmantissa hexponent
  rfl

theorem unpack_of_ones
    {b : BitVec Format.binary64.numBits} (hones : unpackExponent b = -1#11) :
    (∃ s, UnpackedFloat.unpack Format.binary64 b = .infinity s) ∨
    UnpackedFloat.unpack Format.binary64 b = .notANumber := by
  by_cases hmantissa : unpackMantissa b = 0#52
  · exact .inl ⟨_, (if_pos hones).trans (if_pos hmantissa)⟩
  · exact .inr ((if_pos hones).trans (if_neg hmantissa))

theorem unpack_of_short
    {b : BitVec Format.binary64.numBits} (hzeros : unpackExponent b = 0#11)
    (hpositive : 0 < (unpackMantissa b).toNat) :
    UnpackedFloat.unpack Format.binary64 b =
      .finite (Sign.ofBitVec (unpackSign b)) (unpackMantissa b).toNat (-1074)
        hpositive := by
  have hnotOnes : unpackExponent b ≠ -1#11 := by
    rw [hzeros]
    decide
  have hexponent : ((unpackExponent b).toNat : ℤ) - ((1023 : ℕ) + (52 : ℕ)) +
      1 = -1074 := by
    rw [hzeros]
    rfl
  have hmantissa : unpackMantissa b ≠ 0#52 := by
    intro hzero
    rw [hzero] at hpositive
    exact absurd hpositive (by decide)
  exact (if_neg hnotOnes).trans
    ((if_pos hzeros).trans ((dif_neg hmantissa).trans
    (finite_congr rfl hexponent)))

theorem unpack_of_zeros
    {b : BitVec Format.binary64.numBits} (hzeros : unpackExponent b = 0#11) :
    (∃ s, UnpackedFloat.unpack Format.binary64 b = .zero s) ∨
    ∃ s m hm, m < 2 ^ 52 ∧
      UnpackedFloat.unpack Format.binary64 b = .finite s m (-1074) hm := by
  have hnotOnes : unpackExponent b ≠ -1#11 := by
    rw [hzeros]
    decide
  by_cases hmantissa : unpackMantissa b = 0#52
  · exact .inl
      ⟨_, (if_neg hnotOnes).trans ((if_pos hzeros).trans (dif_pos hmantissa))⟩
  · have hpositive : 0 < (unpackMantissa b).toNat :=
      Nat.pos_of_ne_zero fun h => hmantissa (BitVec.eq_of_toNat_eq h)
    exact .inr ⟨_, _, hpositive, (unpackMantissa b).isLt,
      unpack_of_short hzeros hpositive⟩

theorem unpack_of_mixed
    {b : BitVec Format.binary64.numBits} (hnotOnes : unpackExponent b ≠ -1#11)
    (hnotZeros : unpackExponent b ≠ 0#11)
    (hpositive : 0 < (1#1 ++ unpackMantissa b).toNat) :
    UnpackedFloat.unpack Format.binary64 b =
      .finite (Sign.ofBitVec (unpackSign b)) (1#1 ++ unpackMantissa b).toNat
        ((unpackExponent b).toNat - 1075) hpositive :=
  (if_neg hnotOnes).trans (if_neg hnotZeros)

theorem pack_finite (s : Sign) (m : ℕ) (e : ℤ) (hm : 0 < m) :
    UnpackedFloat.pack Format.binary64 (.finite s m e hm) =
      if 2 ^ 11 ≤ (e + 1023 + 52).toNat + 1 then
        packedInfinity Format.binary64 s
      else if m.log2 + 1 = 53 then
        packComponents Format.binary64 s (BitVec.ofNat 11 (e + 1023 + 52).toNat)
          (BitVec.ofNat 52 m)
      else packComponents Format.binary64 s 0#11 (BitVec.ofNat 52 m) :=
  rfl

/-- The bits of a normal number: its sign, its exponent, and its mantissa
without the leading digit. -/
theorem pack_of_normal
    {s : Sign} {m : ℕ} {e : ℤ} (h : Normal m e) :
    UnpackedFloat.pack Format.binary64 (.finite s m e h.pos) =
      packComponents Format.binary64 s (BitVec.ofNat 11 (e + 1075).toNat)
        (BitVec.ofNat 52 m) := by
  have hleast := h.least
  have hgreatest := h.greatest
  have hlog : m.log2 + 1 = 53 := by rw [h.log2_eq]
  have hbias : (e + 1023 + 52).toNat = (e + 1075).toNat := by congr 1; omega
  have hfits : ¬ 2 ^ 11 ≤ (e + 1023 + 52).toNat + 1 := by omega
  rw [pack_finite, if_neg hfits, if_pos hlog, hbias]

/-- A normal number is stored without loss. -/
theorem unpack_pack_of_normal
    {s : Sign} {m : ℕ} {e : ℤ} (h : Normal m e) :
    (Float.Model.pack (.finite s m e h.pos)).unpack = .finite s m e h.pos := by
  have hleast := h.least
  have hgreatest := h.greatest
  have hlower := h.lower
  have hupper := h.upper
  have hexponent : (BitVec.ofNat 11 (e + 1075).toNat).toNat =
      (e + 1075).toNat := by
    rw [BitVec.toNat_ofNat, Nat.mod_eq_of_lt (by omega)]
  have hmantissa : (1#1 ++ BitVec.ofNat 52 m).toNat = m := by
    rw [toNat_one_append, BitVec.toNat_ofNat]
    omega
  have hnotOnes : BitVec.ofNat 11 (e + 1075).toNat ≠ -1#11 := by
    intro heq
    have hones : (-1#11 : BitVec 11).toNat = 2047 := by decide
    rw [← heq, hexponent] at hones
    omega
  have hnotZeros : BitVec.ofNat 11 (e + 1075).toNat ≠ 0#11 := by
    intro heq
    have hzeros : (0#11 : BitVec 11).toNat = 0 := by decide
    rw [← heq, hexponent] at hzeros
    omega
  let b := packComponents Format.binary64 s (BitVec.ofNat 11 (e + 1075).toNat)
    (BitVec.ofNat 52 m)
  have hb : unpackExponent b = BitVec.ofNat 11 (e + 1075).toNat :=
    unpackExponent_packComponents
  have hb' : unpackMantissa b = BitVec.ofNat 52 m :=
    unpackMantissa_packComponents
  have hsign : Sign.ofBitVec (unpackSign b) = s := by
    rw [unpackSign_packComponents, ofBitVec_toBitVec]
  have hwhole : (1#1 ++ unpackMantissa b).toNat = m := by rw [hb', hmantissa]
  have hbias : ((unpackExponent b).toNat : ℤ) - 1075 = e := by
    rw [hb, hexponent]
    omega
  have hunpack : UnpackedFloat.unpack Format.binary64 b =
      .finite s m e h.pos := by
    rw [unpack_of_mixed (by rwa [hb]) (by rwa [hb])
      (by rw [hwhole]; exact h.pos), hsign]
    exact finite_congr hwhole hbias
  rw [Float.Model.unpack, Float.Model.pack, UInt64.toBitVec_ofBitVec,
    pack_of_normal h]
  exact hunpack

/-- The bits of a number with a short mantissa and the least exponent. -/
theorem pack_of_lt
    {s : Sign} {m : ℕ} (hm : 0 < m) (hshort : m < 2 ^ 52) :
    UnpackedFloat.pack Format.binary64 (.finite s m (-1074) hm) =
      packComponents Format.binary64 s 0#11 (BitVec.ofNat 52 m) := by
  have hlog : ¬ m.log2 + 1 = 53 := by
    have hlt : m.log2 < 52 := (Nat.log2_lt (Nat.ne_of_gt hm)).mpr hshort
    omega
  have hfits : ¬ 2 ^ 11 ≤ ((-1074 : ℤ) + 1023 + 52).toNat + 1 := by decide
  rw [pack_finite, if_neg hfits, if_neg hlog]

/-- So is a number with a short mantissa and the least exponent. -/
theorem unpack_pack_of_lt
    {s : Sign} {m : ℕ} (hm : 0 < m) (hshort : m < 2 ^ 52) :
    (Float.Model.pack (.finite s m (-1074) hm)).unpack =
      .finite s m (-1074) hm := by
  let b := packComponents Format.binary64 s 0#11 (BitVec.ofNat 52 m)
  have hexponent : unpackExponent b = 0#11 := unpackExponent_packComponents
  have hmantissa : unpackMantissa b = BitVec.ofNat 52 m :=
    unpackMantissa_packComponents
  have hsign : Sign.ofBitVec (unpackSign b) = s := by
    rw [unpackSign_packComponents, ofBitVec_toBitVec]
  have hwhole : (unpackMantissa b).toNat = m := by
    rw [hmantissa]
    exact Nat.mod_eq_of_lt hshort
  have hunpack : UnpackedFloat.unpack Format.binary64 b =
      .finite s m (-1074) hm := by
    rw [unpack_of_short hexponent (by rw [hwhole]; exact hm), hsign]
    exact finite_congr hwhole rfl
  rw [Float.Model.unpack, Float.Model.pack, UInt64.toBitVec_ofBitVec,
    pack_of_lt hm hshort]
  exact hunpack

/-! ## Storing twice -/

/-- A finite number is normal, or has a short mantissa and the least
exponent. -/
theorem normal_or_eq_least
    {b : BitVec Format.binary64.numBits} {s : Sign} {m : ℕ} {e : ℤ} {hm : 0 < m}
    (hb : UnpackedFloat.unpack Format.binary64 b = .finite s m e hm) :
    Normal m e ∨ m < 2 ^ 52 ∧ e = -1074 := by
  by_cases hones : unpackExponent b = -1#11
  · rcases unpack_of_ones hones with ⟨_, hinfinite⟩ | hundefined
    · rw [hinfinite] at hb
      cases hb
    · rw [hundefined] at hb
      cases hb
  · by_cases hzeros : unpackExponent b = 0#11
    · right
      rcases unpack_of_zeros hzeros with ⟨_, hzero⟩ | ⟨_, _, _, hshort, hleast⟩
      · rw [hzero] at hb
        cases hb
      · rw [hleast] at hb
        injection hb with _ hmantissa he
        exact ⟨hmantissa ▸ hshort, he.symm⟩
    · left
      have hfraction : (unpackMantissa b).toNat < 2 ^ 52 :=
        (unpackMantissa b).isLt
      have hexponent : (unpackExponent b).toNat < 2 ^ 11 :=
        (unpackExponent b).isLt
      have hpositive : (unpackExponent b).toNat ≠ 0 := fun h =>
        hzeros (BitVec.eq_of_toNat_eq h)
      have hsmall : (unpackExponent b).toNat ≠ 2047 := fun h =>
        hones (BitVec.eq_of_toNat_eq h)
      have hwhole := toNat_one_append (unpackMantissa b)
      rw [unpack_of_mixed hones hzeros (by omega)] at hb
      injection hb with _ hmantissa he
      exact ⟨by omega, by omega, by omega, by omega⟩

/-- What was stored once is stored again without loss. -/
theorem unpack_pack_unpack (x : Float.Model) :
    (Float.Model.pack x.unpack).unpack = x.unpack := by
  cases hx : x.unpack with
  | notANumber => rfl
  | infinity s => cases s <;> rfl
  | zero s => cases s <;> rfl
  | finite s m e hm =>
      rcases normal_or_eq_least hx with hnormal | ⟨hshort, rfl⟩
      · exact unpack_pack_of_normal hnormal
      · exact unpack_pack_of_lt hm hshort

/-! ## Bits -/

/-- The three fields make up the bits. -/
theorem packComponents_unpack (b : BitVec Format.binary64.numBits) :
    packComponents Format.binary64 (Sign.ofBitVec (unpackSign b))
      (unpackExponent b) (unpackMantissa b) = b := by
  have hsign : (Sign.ofBitVec (unpackSign b)).toBitVec = unpackSign b := by
    generalize unpackSign b = s
    revert s
    decide
  have hfields : packComponents Format.binary64 (Sign.ofBitVec (unpackSign b))
      (unpackExponent b) (unpackMantissa b) =
      BitVec.extractLsb' 63 1 b ++ BitVec.extractLsb' 52 11 b ++
        BitVec.extractLsb' 0 52 b := by
    rw [packComponents, hsign]
    rfl
  have hupper : BitVec.extractLsb' 63 1 b ++ BitVec.extractLsb' 52 11 b =
      BitVec.extractLsb' 52 12 b :=
    BitVec.extractLsb'_append_extractLsb'_eq_extractLsb' rfl
  have hall : BitVec.extractLsb' 52 12 b ++ BitVec.extractLsb' 0 52 b =
      BitVec.extractLsb' 0 64 b :=
    BitVec.extractLsb'_append_extractLsb'_eq_extractLsb' rfl
  rw [hfields, hupper, hall]
  exact BitVec.extractLsb'_eq_self

theorem eq_of_toBits_eq_toBits {x y : Float.Model}
    (h : x.toBits = y.toBits) : x = y := by
  obtain ⟨b, hb⟩ := x
  obtain ⟨b', hb'⟩ := y
  have hbits : b = b' := h
  subst hbits
  rfl

/-- Storing what was read from a stored number leads back to it. -/
theorem pack_unpack (x : Float.Model) : Float.Model.pack x.unpack = x := by
  obtain ⟨⟨b : BitVec Format.binary64.numBits⟩, hvalid⟩ := x
  let s := Sign.ofBitVec (unpackSign b)
  have hb : packComponents Format.binary64 s (unpackExponent b)
      (unpackMantissa b) = b :=
    packComponents_unpack b
  suffices hbits : UnpackedFloat.pack Format.binary64
      (UnpackedFloat.unpack Format.binary64 b) = b by
    exact eq_of_toBits_eq_toBits (congrArg UInt64.ofBitVec hbits)
  by_cases hones : unpackExponent b = -1#11
  · by_cases hmantissa : unpackMantissa b = 0#52
    · have hunpack : UnpackedFloat.unpack Format.binary64 b = .infinity s :=
        (if_pos hones).trans (if_pos hmantissa)
      rw [hunpack, ← hb, hones, hmantissa]
      rfl
    · have hunpack : UnpackedFloat.unpack Format.binary64 b = .notANumber :=
        (if_pos hones).trans (if_neg hmantissa)
      rw [hunpack]
      exact (hvalid.eq_packedNaN hones hmantissa).symm
  · by_cases hzeros : unpackExponent b = 0#11
    · by_cases hmantissa : unpackMantissa b = 0#52
      · have hunpack : UnpackedFloat.unpack Format.binary64 b = .zero s :=
          (if_neg hones).trans ((if_pos hzeros).trans (dif_pos hmantissa))
        rw [hunpack, ← hb, hzeros, hmantissa]
        rfl
      · have hpositive : 0 < (unpackMantissa b).toNat :=
          Nat.pos_of_ne_zero fun h => hmantissa (BitVec.eq_of_toNat_eq h)
        rw [unpack_of_short hzeros hpositive,
          pack_of_lt hpositive (unpackMantissa b).isLt, BitVec.ofNat_toNat,
          BitVec.setWidth_eq, ← hzeros]
        exact hb
    · have hwhole := toNat_one_append (unpackMantissa b)
      have hlt : (unpackMantissa b).toNat < 2 ^ 52 := (unpackMantissa b).isLt
      have hpositive : 0 < (1#1 ++ unpackMantissa b).toNat := by omega
      have hexponent : (unpackExponent b).toNat < 2 ^ 11 :=
        (unpackExponent b).isLt
      have hne : (unpackExponent b).toNat ≠ 0 :=
        fun h => hzeros (BitVec.eq_of_toNat_eq h)
      have hne' : (unpackExponent b).toNat ≠ 2047 :=
        fun h => hones (BitVec.eq_of_toNat_eq h)
      have hnormal : Normal (1#1 ++ unpackMantissa b).toNat
          ((unpackExponent b).toNat - 1075) :=
            ⟨by omega, by omega, by omega, by omega⟩
      have hmantissa : BitVec.ofNat 52 (1#1 ++ unpackMantissa b).toNat =
          unpackMantissa b := by
        apply BitVec.eq_of_toNat_eq
        rw [BitVec.toNat_ofNat, hwhole]
        omega
      have hbias : (((unpackExponent b).toNat : ℤ) - 1075 + 1075).toNat =
          (unpackExponent b).toNat := by omega
      rw [unpack_of_mixed hones hzeros hpositive, pack_of_normal hnormal,
        hmantissa, hbias, BitVec.ofNat_toNat, BitVec.setWidth_eq]
      exact hb

/-- A number is known by its unpacked form. -/
theorem eq_of_unpack_eq {x y : Float}
    (h : x.toModel.unpack = y.toModel.unpack) : x = y := by
  have hmodel : x.toModel = y.toModel := by
    rw [← pack_unpack x.toModel, h, pack_unpack]
  obtain ⟨x⟩ := x
  obtain ⟨y⟩ := y
  exact congrArg Float.ofModel hmodel

/-! ## Numbers that are not too small -/

/-- Twice the least normal number. -/
def leastHalvable : Float :=
  Float.ofBits 0x0020000000000000

/-- From there on finite numbers are normal, with an exponent to spare. -/
theorem exists_unpack_eq_of_le
    {x : Float} (hx : leastHalvable ≤ x) (hfinite : x.isFinite = true) :
    ∃ (m : ℕ) (e : ℤ) (h : Normal m e), -1073 ≤ e ∧
      x.toModel.unpack = .finite .positive m e h.pos := by
  have hle : (leastHalvable.toModel.unpack).le x.toModel.unpack = true :=
    of_decide_eq_true hx
  have hleast : leastHalvable.toModel.unpack =
      .finite .positive (2 ^ 52) (-1073) (by decide) := by rfl
  rw [hleast] at hle
  have hmodel : x.toModel.unpack.isFinite = true := hfinite
  cases hunpack : x.toModel.unpack with
  | notANumber => rw [hunpack] at hmodel; cases hmodel
  | infinity s => rw [hunpack] at hmodel; cases hmodel
  | zero s => rw [hunpack] at hle; cases hle
  | finite s m e hm =>
      rw [hunpack] at hle
      cases s with
      | negative => cases hle
      | positive =>
          have hcompare : ((compare (-1073) e).then (compare (2 ^ 52) m)).isLE =
              true := hle
          have hexponent : -1073 ≤ e := by
            refine Int.not_lt.mp fun hlt => ?_
            have hgt : compare (-1073) e = .gt := Int.compare_eq_gt.mpr hlt
            rw [hgt] at hcompare
            cases hcompare
          have hnormal : Normal m e := by
            rcases normal_or_eq_least hunpack with h | h
            · exact h
            · omega
          exact ⟨m, e, hnormal, hexponent, rfl⟩

end Binary64
end NumericalMethods
