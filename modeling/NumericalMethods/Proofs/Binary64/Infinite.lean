import NumericalMethods.Proofs.Binary64.Arithmetic
import NumericalMethods.Proofs.Binary64.Sorting

/-!
# Infinite binary numbers

An operation on finite numbers gives a finite or an infinite number, but never
leaves the result undefined, unless it divides by zero.  An infinite number
absorbs finite ones in sums and differences, and it is as far from zero as a
number can be.  With the infinite numbers at its ends, the order is transitive,
and undefined numbers are the only ones not below themselves.
-/

namespace NumericalMethods
namespace Binary64

open Float.Model Float.Model.UnpackedFloat

variable {x y z : Float} {s : Sign}

theorem isFinite_or_unpack_eq (hx : x.isNaN = false) :
    x.isFinite = true ∨ ∃ s, x.toModel.unpack = .infinity s := by
  have hmodel : x.isFinite = x.toModel.unpack.isFinite := rfl
  rw [hmodel]
  cases hunpack : x.toModel.unpack with
  | notANumber => rw [isNaN_iff_unpack_eq.mpr hunpack] at hx; cases hx
  | infinity s => exact .inr ⟨s, rfl⟩
  | zero s => exact .inl rfl
  | finite s m e hm => exact .inl rfl

theorem isNaN_of_infinite (hx : x.toModel.unpack = .infinity s) :
    x.isNaN = false := by
  rw [Bool.eq_false_iff, Ne, isNaN_iff_unpack_eq, hx]
  exact nofun

theorem unpack_of_toModel_eq_infinity (hz : z.toModel = pack (.infinity s)) :
    z.toModel.unpack = .infinity s := by
  rw [hz]
  cases s <;> rfl

/-! ## Results that are too large -/

/-- What stands for a number is stored as a finite or as an infinite one. -/
theorem Represents.isNaN_eq_false {u : UnpackedFloat} {r : ℚ}
    (h : Represents u r) (hz : z.toModel = pack u) : z.isNaN = false := by
  by_cases hfinite : z.isFinite = true
  · exact isNaN_of_isFinite hfinite
  · obtain ⟨s, hs, -⟩ :=
      h.exists_unpack_eq_infinity hz fun hsmall =>
        hfinite ((h.stored hz).1.mpr hsmall)
    exact isNaN_of_infinite hs

section Operations

variable (hx : x.isFinite = true) (hy : y.isFinite = true)
include hx hy

theorem isNaN_add_of_isFinite : (x + y).isNaN = false :=
  ((represents_value hx).add (represents_value hy)).isNaN_eq_false rfl

theorem isNaN_sub_of_isFinite : (x - y).isNaN = false :=
  ((represents_value hx).sub (represents_value hy)).isNaN_eq_false rfl

theorem isNaN_mul_of_isFinite : (x * y).isNaN = false :=
  ((represents_value hx).mul (represents_value hy)).isNaN_eq_false rfl

theorem isNaN_div_of_isFinite (hne : value y ≠ 0) : (x / y).isNaN = false :=
  ((represents_value hx).div (represents_value hy) hne).isNaN_eq_false rfl

end Operations

/-! ## Infinite operands -/

/-- An infinite number absorbs what is added, unless that is infinite the
other way. -/
theorem unpack_add_of_infinite (hx : x.toModel.unpack = .infinity s)
    (hy : y.isFinite = true ∨ y = x) :
    (x + y).toModel.unpack = .infinity s ∧
    (y + x).toModel.unpack = .infinity s := by
  have hleft : (x + y).toModel =
      pack (UnpackedFloat.add Format.binary64 x.toModel.unpack
        y.toModel.unpack) := rfl
  have hright : (y + x).toModel =
      pack (UnpackedFloat.add Format.binary64 y.toModel.unpack
        x.toModel.unpack) := rfl
  suffices habsorbs :
      UnpackedFloat.add Format.binary64 (.infinity s) y.toModel.unpack =
          .infinity s ∧
        UnpackedFloat.add Format.binary64 y.toModel.unpack (.infinity s) =
          .infinity s by
    rw [hx, habsorbs.1] at hleft
    rw [hx, habsorbs.2] at hright
    exact ⟨unpack_of_toModel_eq_infinity hleft,
      unpack_of_toModel_eq_infinity hright⟩
  rcases hy with hy | rfl
  · obtain ⟨q, hrepresents⟩ : ∃ q, Represents y.toModel.unpack q :=
      ⟨_, represents_value hy⟩
    generalize y.toModel.unpack = v at hrepresents ⊢
    cases hrepresents with
    | zero t => exact ⟨rfl, rfl⟩
    | finite t h => exact ⟨rfl, rfl⟩
  · rw [hx]
    cases s <;> exact ⟨rfl, rfl⟩

/-- What an infinite number is taken from, or what is taken from it, does not
matter. -/
theorem exists_unpack_sub_of_infinite (hx : x.toModel.unpack = .infinity s)
    (hy : y.isFinite = true) :
    (∃ t, (x - y).toModel.unpack = .infinity t) ∧
    ∃ t, (y - x).toModel.unpack = .infinity t := by
  have hleft : (x - y).toModel =
      pack (UnpackedFloat.sub Format.binary64 x.toModel.unpack
        y.toModel.unpack) := rfl
  have hright : (y - x).toModel =
      pack (UnpackedFloat.sub Format.binary64 y.toModel.unpack
        x.toModel.unpack) := rfl
  rw [hx] at hleft hright
  obtain ⟨q, hrepresents⟩ : ∃ q, Represents y.toModel.unpack q :=
    ⟨_, represents_value hy⟩
  generalize y.toModel.unpack = v at hrepresents hleft hright
  cases hrepresents with
  | zero t =>
      exact ⟨⟨s, unpack_of_toModel_eq_infinity hleft⟩, -s,
        unpack_of_toModel_eq_infinity hright⟩
  | finite t h =>
      exact ⟨⟨s, unpack_of_toModel_eq_infinity hleft⟩, -s,
        unpack_of_toModel_eq_infinity hright⟩

theorem exists_unpack_mul_of_infinite (hx : x.toModel.unpack = .infinity s)
    (hy : y.isFinite = true) (hne : value y ≠ 0) :
    ∃ t, (x * y).toModel.unpack = .infinity t := by
  have hmodel : (x * y).toModel =
      pack (UnpackedFloat.mul Format.binary64 x.toModel.unpack
        y.toModel.unpack) := rfl
  rw [hx] at hmodel
  have hrepresents := represents_value hy
  generalize value y = q at hne hrepresents
  generalize y.toModel.unpack = v at hmodel hrepresents
  cases hrepresents with
  | zero t => exact absurd rfl hne
  | finite t h => exact ⟨s * t, unpack_of_toModel_eq_infinity hmodel⟩

theorem abs_of_infinite (hx : x.toModel.unpack = .infinity s) :
    x.abs = Scalar.infinity := by
  have hmodel : x.abs.toModel = pack x.toModel.unpack.abs := rfl
  apply eq_of_unpack_eq
  rw [hx] at hmodel
  exact unpack_of_toModel_eq_infinity hmodel

/-- A finite number taken away leaves a number defined or undefined. -/
theorem isNaN_sub_eq (hy : y.isFinite = true) : (x - y).isNaN = x.isNaN := by
  cases hx : x.isNaN with
  | true => exact isNaN_sub_of_left hx
  | false =>
      rcases isFinite_or_unpack_eq hx with hfinite | ⟨s, hs⟩
      · exact isNaN_sub_of_isFinite hfinite hy
      · obtain ⟨t, ht⟩ := (exists_unpack_sub_of_infinite hs hy).1
        exact isNaN_of_infinite ht

theorem isNaN_abs_eq (x : Float) : x.abs.isNaN = x.isNaN := by
  cases hx : x.isNaN with
  | true => exact isNaN_abs hx
  | false =>
      rcases isFinite_or_unpack_eq hx with hfinite | ⟨s, hs⟩
      · exact isNaN_abs_of_isFinite hfinite
      · rw [abs_of_infinite hs]
        rfl

/-! ## Order -/

theorem le_trans_of_isFinite (hx : x.isFinite = true) (hz : z.isFinite = true)
    (hxy : x ≤ y) (hyz : y ≤ z) : x ≤ z := by
  have hy : y.isFinite = true := isFinite_of_le_of_le hx hz hxy hyz
  rw [le_iff_value_le hx hy] at hxy
  rw [le_iff_value_le hy hz] at hyz
  rw [le_iff_value_le hx hz]
  exact hxy.trans hyz

theorem isNaN_of_le (h : x ≤ y) : x.isNaN = false ∧ y.isNaN = false := by
  rw [le_iff_compare] at h
  rw [Bool.eq_false_iff, Bool.eq_false_iff, Ne, Ne, isNaN_iff_unpack_eq,
    isNaN_iff_unpack_eq]
  constructor
  · intro hx
    rw [hx] at h
    cases h
  · intro hy
    rw [hy] at h
    generalize x.toModel.unpack = u at h
    cases u <;> cases h

/-- Only the least number is below itself. -/
theorem eq_of_le_least (hz : z.toModel.unpack = .infinity .negative)
    (h : y ≤ z) : y = z := by
  apply eq_of_unpack_eq
  rw [hz]
  rw [le_iff_compare, hz] at h
  cases hunpack : y.toModel.unpack with
  | notANumber => rw [hunpack] at h; cases h
  | zero t => rw [hunpack] at h; cases h
  | finite t m e hm => rw [hunpack] at h; cases t <;> cases h
  | infinity t =>
      rw [hunpack] at h
      cases t with
      | positive => cases h
      | negative => rfl

theorem least_le (hx : x.toModel.unpack = .infinity .negative)
    (hz : z.isNaN = false) :
    x ≤ z := by
  rw [le_iff_compare, hx]
  cases hunpack : z.toModel.unpack with
  | notANumber => rw [isNaN_iff_unpack_eq.mpr hunpack] at hz; cases hz
  | zero t => rfl
  | finite t m e hm => rfl
  | infinity t => cases t <;> rfl

/-- Only the greatest number is above itself. -/
theorem eq_of_infinity_le (h : Scalar.infinity ≤ y) : y = Scalar.infinity := by
  have hdefined := (isNaN_of_le h).2
  have hnot := (not_lt_iff_le (isNaN_of_le h).1 hdefined).mpr h
  rcases isFinite_or_unpack_eq hdefined with hfinite | ⟨s, hs⟩
  · exact absurd (lt_infinity hfinite) hnot
  · cases s with
    | positive => exact eq_of_unpack_eq hs
    | negative =>
        rw [eq_of_le_least hs h]

theorem le_of_le_of_le (hxy : x ≤ y) (hyz : y ≤ z) : x ≤ z := by
  have hz := (isNaN_of_le hyz).2
  rcases isFinite_or_unpack_eq (isNaN_of_le hxy).1 with hx | ⟨s, hs⟩
  · rcases isFinite_or_unpack_eq hz with hz | ⟨t, ht⟩
    · exact le_trans_of_isFinite hx hz hxy hyz
    · cases t with
      | positive =>
          have hinfinity : z = Scalar.infinity := eq_of_unpack_eq ht
          rw [hinfinity]
          exact le_of_lt (lt_infinity hx)
      | negative => rwa [← eq_of_le_least ht hyz]
  · cases s with
    | positive =>
        have hinfinity : x = Scalar.infinity := eq_of_unpack_eq hs
        rw [hinfinity] at hxy ⊢
        rwa [← eq_of_infinity_le hxy]
    | negative => exact least_le hs hz

theorem le_self_iff : x ≤ x ↔ x.isNaN = false := by
  constructor
  · intro h
    exact (isNaN_of_le h).1
  · intro hx
    rcases isFinite_or_unpack_eq hx with hfinite | ⟨s, hs⟩
    · exact (le_iff_value_le hfinite hfinite).mpr le_rfl
    · rw [le_iff_compare, hs]
      cases s <;> rfl

/-- Only finite numbers are smaller than something in magnitude. -/
theorem isFinite_of_abs_lt (h : x.abs < y) : x.isFinite = true := by
  have hle := le_of_lt h
  have hdefined : x.isNaN = false := by
    rw [Bool.eq_false_iff]
    intro hundefined
    have habs := isNaN_abs hundefined
    rw [(isNaN_of_le hle).1] at habs
    cases habs
  refine (isFinite_or_unpack_eq hdefined).resolve_right ?_
  rintro ⟨s, hs⟩
  rw [abs_of_infinite hs] at h
  exact not_infinity_lt y h

end Binary64
end NumericalMethods
