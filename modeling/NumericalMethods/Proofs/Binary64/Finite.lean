import NumericalMethods.Proofs.Binary64.Order

/-!
# Binary numbers that are not finite

What is infinite or undefined stays so in a sum, in a product and as a dividend,
and a quotient by zero is one of the two.  Every finite number lies below
infinity.
-/

namespace NumericalMethods
namespace Binary64

open Float.Model Float.Model.UnpackedFloat

theorem isFinite_of_toModel_eq
    {x : Float} {u : UnpackedFloat} (hx : x.toModel = pack u)
    (hu : u.isFinite = false) :
    x.isFinite = false := by
  have hmodel : x.isFinite = x.toModel.unpack.isFinite := rfl
  rw [hmodel, hx]
  cases u with
  | notANumber => rfl
  | infinity s => cases s <;> rfl
  | zero s => cases hu
  | finite s m e hm => cases hu

theorem isFinite_add_of_right
    {x y : Float} (hy : y.isFinite = false) : (x + y).isFinite = false := by
  have hmodel : y.toModel.unpack.isFinite = false := hy
  refine isFinite_of_toModel_eq rfl ?_
  cases hunpack : y.toModel.unpack with
  | notANumber => cases x.toModel.unpack <;> rfl
  | infinity s =>
      cases x.toModel.unpack with
      | infinity t => cases s <;> cases t <;> rfl
      | notANumber => rfl
      | zero t => rfl
      | finite t m e hm => rfl
  | zero s => rw [hunpack] at hmodel; cases hmodel
  | finite s m e hm => rw [hunpack] at hmodel; cases hmodel

theorem isFinite_add_of_left
    {x y : Float} (hx : x.isFinite = false) : (x + y).isFinite = false := by
  have hmodel : x.toModel.unpack.isFinite = false := hx
  refine isFinite_of_toModel_eq rfl ?_
  cases hunpack : x.toModel.unpack with
  | notANumber => cases y.toModel.unpack <;> rfl
  | infinity s =>
      cases y.toModel.unpack with
      | infinity t => cases s <;> cases t <;> rfl
      | notANumber => rfl
      | zero t => rfl
      | finite t m e hm => rfl
  | zero s => rw [hunpack] at hmodel; cases hmodel
  | finite s m e hm => rw [hunpack] at hmodel; cases hmodel

theorem isFinite_mul_of_left
    {x y : Float} (hx : x.isFinite = false) : (x * y).isFinite = false := by
  have hmodel : x.toModel.unpack.isFinite = false := hx
  refine isFinite_of_toModel_eq rfl ?_
  cases hunpack : x.toModel.unpack with
  | notANumber => cases y.toModel.unpack <;> rfl
  | infinity s => cases y.toModel.unpack <;> rfl
  | zero s => rw [hunpack] at hmodel; cases hmodel
  | finite s m e hm => rw [hunpack] at hmodel; cases hmodel

theorem isFinite_mul_of_right
    {x y : Float} (hy : y.isFinite = false) : (x * y).isFinite = false := by
  have hmodel : y.toModel.unpack.isFinite = false := hy
  refine isFinite_of_toModel_eq rfl ?_
  cases hunpack : y.toModel.unpack with
  | notANumber => cases x.toModel.unpack <;> rfl
  | infinity s => cases x.toModel.unpack <;> rfl
  | zero s => rw [hunpack] at hmodel; cases hmodel
  | finite s m e hm => rw [hunpack] at hmodel; cases hmodel

theorem isFinite_div_of_left
    {x y : Float} (hx : x.isFinite = false) : (x / y).isFinite = false := by
  have hmodel : x.toModel.unpack.isFinite = false := hx
  refine isFinite_of_toModel_eq rfl ?_
  cases hunpack : x.toModel.unpack with
  | notANumber => cases y.toModel.unpack <;> rfl
  | infinity s => cases y.toModel.unpack <;> rfl
  | zero s => rw [hunpack] at hmodel; cases hmodel
  | finite s m e hm => rw [hunpack] at hmodel; cases hmodel

/-- A finite sum has finite terms. -/
theorem isFinite_of_isFinite_add
    {x y : Float} (h : (x + y).isFinite = true) :
    x.isFinite = true ∧ y.isFinite = true := by
  constructor
  · cases hx : x.isFinite with
    | true => rfl
    | false => rw [isFinite_add_of_left hx] at h; cases h
  · cases hy : y.isFinite with
    | true => rfl
    | false => rw [isFinite_add_of_right hy] at h; cases h

/-- A finite product has finite factors. -/
theorem isFinite_of_isFinite_mul
    {x y : Float} (h : (x * y).isFinite = true) :
    x.isFinite = true ∧ y.isFinite = true := by
  constructor
  · cases hx : x.isFinite with
    | true => rfl
    | false => rw [isFinite_mul_of_left hx] at h; cases h
  · cases hy : y.isFinite with
    | true => rfl
    | false => rw [isFinite_mul_of_right hy] at h; cases h

/-- A finite quotient has a finite dividend. -/
theorem isFinite_of_isFinite_div
    {x y : Float} (h : (x / y).isFinite = true) : x.isFinite = true := by
  cases hx : x.isFinite with
  | true => rfl
  | false => rw [isFinite_div_of_left hx] at h; cases h

/-- What equals a finite number is finite. -/
theorem isFinite_of_beq
    {x y : Float} (hy : y.isFinite = true) (h : (x == y) = true) :
    x.isFinite = true := by
  have hmodel : y.toModel.unpack.isFinite = true := hy
  have hcompare : (x.toModel.unpack.compare y.toModel.unpack == some .eq) =
      true := h
  have hfinite : x.isFinite = x.toModel.unpack.isFinite := rfl
  rw [hfinite]
  cases hx : x.toModel.unpack with
  | zero s => rfl
  | finite s m e hm => rfl
  | notANumber => rw [hx] at hcompare; cases hcompare
  | infinity s =>
      rw [hx] at hcompare
      generalize y.toModel.unpack = v at hmodel hcompare
      cases v with
      | notANumber => cases hmodel
      | infinity t => cases hmodel
      | zero t => cases s <;> cases hcompare
      | finite t m e hm => cases s <;> cases hcompare

/-- Both zeros are equal to zero, and nothing else is. -/
theorem exists_unpack_eq_zero {x : Float} (hx : (x == 0) = true) :
    ∃ s, x.toModel.unpack = .zero s := by
  have hcompare : (x.toModel.unpack.compare (zero .positive) == some .eq) =
      true := hx
  cases hunpack : x.toModel.unpack with
  | zero s => exact ⟨s, rfl⟩
  | notANumber => rw [hunpack] at hcompare; cases hcompare
  | infinity s => rw [hunpack] at hcompare; cases s <;> cases hcompare
  | finite s m e hm => rw [hunpack] at hcompare; cases s <;> cases hcompare

theorem abs_of_beq_zero {x : Float} (hx : (x == 0) = true) : x.abs = 0 := by
  have hmodel : x.abs.toModel = pack x.toModel.unpack.abs := rfl
  obtain ⟨s, hs⟩ := exists_unpack_eq_zero hx
  apply eq_of_unpack_eq
  rw [hmodel, hs]
  rfl

theorem isFinite_div_of_zero
    {x y : Float} (hy : (y == 0) = true) : (x / y).isFinite = false := by
  obtain ⟨s, hs⟩ := exists_unpack_eq_zero hy
  refine isFinite_of_toModel_eq rfl ?_
  rw [hs]
  cases x.toModel.unpack <;> rfl

theorem lt_infinity {x : Float} (hx : x.isFinite = true) :
    x < Scalar.infinity := by
  have hmodel : x.toModel.unpack.isFinite = true := hx
  have hunpack : (Scalar.infinity : Float).toModel.unpack =
      .infinity .positive := rfl
  rw [lt_iff_compare, hunpack]
  cases hx : x.toModel.unpack with
  | notANumber => rw [hx] at hmodel; cases hmodel
  | infinity s => rw [hx] at hmodel; cases hmodel
  | zero s => rfl
  | finite s m e hm => cases s <;> rfl

/-- What lies between finite numbers is finite. -/
theorem isFinite_of_le_of_le {x y z : Float} (hx : x.isFinite = true)
    (hz : z.isFinite = true) (hxy : x ≤ y) (hyz : y ≤ z) :
    y.isFinite = true := by
  have hmodel : x.toModel.unpack.isFinite = true := hx
  have hmodel' : z.toModel.unpack.isFinite = true := hz
  have hfinite : y.isFinite = y.toModel.unpack.isFinite := rfl
  rw [le_iff_compare] at hxy hyz
  rw [hfinite]
  cases hunpack : y.toModel.unpack with
  | zero s => rfl
  | finite s m e hm => rfl
  | notANumber =>
      rw [hunpack] at hyz
      cases hyz
  | infinity s =>
      rw [hunpack] at hxy hyz
      cases s with
      | positive =>
          generalize z.toModel.unpack = v at hmodel' hyz
          cases v with
          | notANumber => cases hmodel'
          | infinity s => cases hmodel'
          | zero s => cases hyz
          | finite s m e hm => cases hyz
      | negative =>
          generalize x.toModel.unpack = u at hmodel hxy
          cases u with
          | notANumber => cases hmodel
          | infinity s => cases hmodel
          | zero s => cases hxy
          | finite s m e hm => cases s <;> cases hxy

end Binary64
end NumericalMethods
