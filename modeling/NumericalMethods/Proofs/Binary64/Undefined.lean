import NumericalMethods.Scalar.Binary64

/-!
# Undefined binary numbers

An operation on an undefined number has an undefined result.
-/

namespace NumericalMethods
namespace Binary64

open Float.Model

theorem isNaN_iff_unpack_eq {x : Float} :
    x.isNaN = true ↔ x.toModel.unpack = .notANumber := by
  have hmodel : x.isNaN = x.toModel.unpack.isNaN := rfl
  rw [hmodel]
  constructor
  · intro h
    cases hx : x.toModel.unpack with
    | notANumber => rfl
    | infinity s => rw [hx] at h; cases h
    | zero s => rw [hx] at h; cases h
    | finite s m e hm => rw [hx] at h; cases h
  · intro h
    rw [h]
    rfl

theorem isNaN_of_toModel_eq
    {x : Float} {u : UnpackedFloat}
    (hx : x.toModel = pack u) (hu : u = .notANumber) :
    x.isNaN = true := by
  rw [isNaN_iff_unpack_eq, hx, hu]
  rfl

@[simp]
theorem isNaN_undefined : (Scalar.undefined : Float).isNaN = true := by
  decide

theorem isNaN_sub_of_left {x y : Float} (hx : x.isNaN = true) :
    (x - y).isNaN = true := by
  rw [isNaN_iff_unpack_eq] at hx
  refine isNaN_of_toModel_eq rfl ?_
  rw [hx]
  rfl

theorem isNaN_sub_of_right {x y : Float} (hy : y.isNaN = true) :
    (x - y).isNaN = true := by
  rw [isNaN_iff_unpack_eq] at hy
  refine isNaN_of_toModel_eq rfl ?_
  rw [hy]
  cases x.toModel.unpack <;> rfl

theorem isNaN_div_of_left {x y : Float} (hx : x.isNaN = true) :
    (x / y).isNaN = true := by
  rw [isNaN_iff_unpack_eq] at hx
  refine isNaN_of_toModel_eq rfl ?_
  rw [hx]
  rfl

theorem isNaN_abs {x : Float} (hx : x.isNaN = true) : x.abs.isNaN = true := by
  rw [isNaN_iff_unpack_eq] at hx
  refine isNaN_of_toModel_eq rfl ?_
  rw [hx]
  rfl

end Binary64
end NumericalMethods
