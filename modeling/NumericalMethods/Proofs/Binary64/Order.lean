import NumericalMethods.Proofs.Binary64.Packing
import NumericalMethods.Proofs.Binary64.Undefined

/-!
# The order of binary numbers

Nothing is larger than infinity.  What is not larger than a bound is at most the
bound, unless one of them is undefined.
-/

namespace NumericalMethods
namespace Binary64

open Float.Model Float.Model.UnpackedFloat

theorem lt_iff_compare {x y : Float} :
    x < y ↔ x.toModel.unpack.compare y.toModel.unpack = some .lt := by
  have hlt : x < y ↔ decide (x.toModel.lt y.toModel = true) = true := Iff.rfl
  rw [hlt, decide_eq_true_iff]
  exact beq_iff_eq

theorem le_iff_compare {x y : Float} :
    x ≤ y ↔ (x.toModel.unpack.compare y.toModel.unpack).any (·.isLE) =
      true := by
  have hle : x ≤ y ↔ decide (x.toModel.le y.toModel = true) = true := Iff.rfl
  rw [hle, decide_eq_true_iff]
  exact Iff.rfl

theorem le_of_lt {x y : Float} (h : x < y) : x ≤ y := by
  rw [lt_iff_compare] at h
  rw [le_iff_compare, h]
  rfl

theorem not_infinity_lt (x : Float) : ¬ (Scalar.infinity : Float) < x := by
  have hunpack : (Scalar.infinity : Float).toModel.unpack =
      .infinity .positive := rfl
  rw [lt_iff_compare, hunpack]
  cases x.toModel.unpack with
  | notANumber => exact nofun
  | infinity s => cases s <;> exact nofun
  | zero s => exact nofun
  | finite s m e hm => exact nofun

/-- Both zeros have the same place in the order. -/
theorem compare_zero (s t : Sign) (v : UnpackedFloat) :
    (zero s).compare v = (zero t).compare v := by
  cases v with
  | notANumber => rfl
  | infinity u => cases u <;> rfl
  | zero u => rfl
  | finite u m e hm => cases u <;> rfl

/-- Adding a number to zero leaves its place in the order. -/
theorem zero_add_lt_iff {x y : Float} : 0 + x < y ↔ x < y := by
  have hsum : (0 + x).toModel =
      pack (UnpackedFloat.add Format.binary64 (zero .positive)
        x.toModel.unpack) := rfl
  rw [lt_iff_compare, lt_iff_compare, hsum]
  cases hx : x.toModel.unpack with
  | notANumber => rfl
  | infinity s => cases s <;> rfl
  | zero s =>
      have hadd :
          (pack (UnpackedFloat.add Format.binary64 (zero .positive)
            (zero s))).unpack =
          zero .positive := by cases s <;> rfl
      rw [hadd, compare_zero .positive s]
  | finite s m e hm =>
      have hadd : UnpackedFloat.add Format.binary64 (zero .positive)
          (finite s m e hm) =
          x.toModel.unpack := hx.symm
      rw [hadd, unpack_pack_unpack, hx]

/-- Defined numbers are compared in one order. -/
theorem exists_compare_eq {u v : UnpackedFloat}
    (hu : u ≠ .notANumber) (hv : v ≠ .notANumber) :
    ∃ o, u.compare v = some o ∧ v.compare u = some o.swap := by
  cases u with
  | notANumber => exact absurd rfl hu
  | infinity s =>
      cases v with
      | notANumber => exact absurd rfl hv
      | infinity t => cases s <;> cases t <;> exact ⟨_, rfl, rfl⟩
      | zero t => cases s <;> exact ⟨_, rfl, rfl⟩
      | finite t m e hm => cases s <;> exact ⟨_, rfl, rfl⟩
  | zero s =>
      cases v with
      | notANumber => exact absurd rfl hv
      | infinity t => cases t <;> exact ⟨_, rfl, rfl⟩
      | zero t => exact ⟨_, rfl, rfl⟩
      | finite t m e hm => cases t <;> exact ⟨_, rfl, rfl⟩
  | finite s m e hm =>
      cases v with
      | notANumber => exact absurd rfl hv
      | infinity t => cases t <;> exact ⟨_, rfl, rfl⟩
      | zero t => cases s <;> exact ⟨_, rfl, rfl⟩
      | finite t m' e' hm' =>
          have hswap : (compare e' e).then (compare m' m) =
              ((compare e e').then (compare m m')).swap := by
            rw [Ordering.swap_then, Int.compare_swap, Nat.compare_swap]
          cases s with
          | positive =>
              cases t with
              | positive => exact ⟨_, rfl, congrArg some hswap⟩
              | negative => exact ⟨_, rfl, rfl⟩
          | negative =>
              cases t with
              | positive => exact ⟨_, rfl, rfl⟩
              | negative =>
                  exact ⟨_, rfl,
                    congrArg (fun o : Ordering => some o.swap) hswap⟩

theorem not_lt_iff_le {x y : Float} (hx : x.isNaN = false)
    (hy : y.isNaN = false) :
    ¬ y < x ↔ x ≤ y := by
  have hdefined : ∀ {z : Float}, z.isNaN = false →
      z.toModel.unpack ≠ .notANumber := by
    intro z hz h
    rw [isNaN_iff_unpack_eq.mpr h] at hz
    cases hz
  obtain ⟨o, hxy, hyx⟩ := exists_compare_eq (hdefined hx) (hdefined hy)
  rw [lt_iff_compare, le_iff_compare, hxy, hyx]
  cases o with
  | lt => simp
  | eq => simp
  | gt => simp

theorem unpack_ne_notANumber
    {b : BitVec Format.binary64.numBits} (hb : unpackExponent b ≠ -1#11) :
    UnpackedFloat.unpack Format.binary64 b ≠ .notANumber := by
  by_cases hzeros : unpackExponent b = 0#11
  · rcases unpack_of_zeros hzeros with ⟨s, h⟩ | ⟨s, m, hm, -, h⟩
    · rw [h]
      exact nofun
    · rw [h]
      exact nofun
  · have hpositive : 0 < (1#1 ++ unpackMantissa b).toNat := by
      rw [toNat_one_append]
      omega
    rw [unpack_of_mixed hb hzeros hpositive]
    exact nofun

/-- Storing a finite number may lead to infinity, but leaves it defined. -/
theorem unpack_pack_ne_notANumber (s : Sign) (m : ℕ) (e : ℤ) (hm : 0 < m) :
    (Float.Model.pack (.finite s m e hm)).unpack ≠ .notANumber := by
  rw [Float.Model.unpack, Float.Model.pack,
    UInt64.toBitVec_ofBitVec, pack_finite]
  by_cases hlarge : 2 ^ 11 ≤ (e + 1023 + 52).toNat + 1
  · rw [if_pos hlarge]
    have hinfinity : UnpackedFloat.unpack Format.binary64
        (packedInfinity Format.binary64 s) =
        .infinity s := by
      cases s <;> rfl
    simp [hinfinity]
  · rw [if_neg hlarge]
    apply unpack_ne_notANumber
    split
    · rw [unpackExponent_packComponents]
      intro hones
      have htoNat := congrArg BitVec.toNat hones
      rw [BitVec.toNat_ofNat, Nat.mod_eq_of_lt (by omega)] at htoNat
      have hall : (-1#11 : BitVec 11).toNat = 2047 := by decide
      omega
    · rw [unpackExponent_packComponents]
      decide

theorem isNaN_abs_of_isFinite {x : Float} (hx : x.isFinite = true) :
    x.abs.isNaN = false := by
  have hmodel : x.toModel.unpack.isFinite = true := hx
  have habs : x.abs.toModel = pack x.toModel.unpack.abs := rfl
  rw [Bool.eq_false_iff, Ne, isNaN_iff_unpack_eq, habs]
  cases hunpack : x.toModel.unpack with
  | notANumber => rw [hunpack] at hmodel; cases hmodel
  | infinity s => rw [hunpack] at hmodel; cases hmodel
  | zero s =>
      have hzero : (zero s).abs = zero .positive := rfl
      rw [hzero]
      exact nofun
  | finite s m e hm => exact unpack_pack_ne_notANumber .positive m e hm

end Binary64
end NumericalMethods
