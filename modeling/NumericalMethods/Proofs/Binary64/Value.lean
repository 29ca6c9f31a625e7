import NumericalMethods.Proofs.Binary64.Nearest
import NumericalMethods.Proofs.Binary64.Order

/-!
# The value of a binary number

A finite binary number stands for a rational number.  It is stored in a
canonical form, with a mantissa of full length unless its exponent is the least
one, so that numbers other than zero are known by their values, and comparing
numbers is comparing values.
-/

namespace NumericalMethods
namespace Binary64

open Float.Model Float.Model.UnpackedFloat

/-- A mantissa of full length, or of any length with the least exponent. -/
structure Canonical (m : ℕ) (e : ℤ) : Prop where
  pos : 0 < m
  lt : m < 2 ^ 53
  least : -1074 ≤ e
  full : 2 ^ 52 ≤ m ∨ e = -1074

def signFactor : Sign → ℚ
  | .positive => 1
  | .negative => -1

/-- The number stands for a rational number. -/
inductive Represents : UnpackedFloat → ℚ → Prop
  | zero (s : Sign) : Represents (.zero s) 0
  | finite (s : Sign) {m : ℕ} {e : ℤ} (h : Canonical m e) :
      Represents (.finite s m e h.pos) (signFactor s * (m * 2 ^ e))

/-- The rational number that a number stands for; zero stands in where there is
none. -/
def rational : UnpackedFloat → ℚ
  | .finite s m e _ => signFactor s * (m * 2 ^ e)
  | _ => 0

/-- The value of a binary number. -/
def value (x : Float) : ℚ :=
  rational x.toModel.unpack

theorem value_of_unpack_eq
    {x : Float} {s : Sign} {m : ℕ} {e : ℤ} {hm : 0 < m}
    (hx : x.toModel.unpack = .finite s m e hm) :
    value x = signFactor s * (m * 2 ^ e) :=
  congrArg rational hx

/-! ## Signs -/

theorem signFactor_positive_mul (q : ℚ) : signFactor .positive * q = q :=
  one_mul q

theorem signFactor_negative_mul (q : ℚ) : signFactor .negative * q = -q :=
  neg_one_mul q

theorem signFactor_neg (s : Sign) : signFactor (-s) = -signFactor s := by
  cases s with
  | positive => rfl
  | negative => exact (neg_neg 1).symm

theorem signFactor_mul (s t : Sign) :
    signFactor (s * t) = signFactor s * signFactor t := by
  have hpositive : Sign.positive * t = t := by cases t <;> rfl
  have hnegative : Sign.negative * t = -t := by cases t <;> rfl
  cases s with
  | positive => rw [hpositive, signFactor_positive_mul]
  | negative => rw [hnegative, signFactor_neg, signFactor_negative_mul]

theorem signFactor_div (s t : Sign) :
    signFactor (s / t) = signFactor s * signFactor t :=
  signFactor_mul s t

theorem signFactor_mul_self (s : Sign) : signFactor s * signFactor s = 1 := by
  cases s <;> norm_num [signFactor]

theorem signFactor_injective : Function.Injective signFactor := by
  intro s t h
  cases s with
  | positive =>
      cases t with
      | positive => rfl
      | negative => norm_num [signFactor] at h
  | negative =>
      cases t with
      | positive => norm_num [signFactor] at h
      | negative => rfl

theorem abs_signFactor_mul (s : Sign) {q : ℚ} (hq : 0 < q) :
    |signFactor s * q| = q := by
  cases s with
  | positive => rw [signFactor_positive_mul, abs_of_pos hq]
  | negative => rw [signFactor_negative_mul, abs_neg, abs_of_pos hq]

theorem cast_apply (s : Sign) (n : ℤ) :
    ((s.apply n : ℤ) : ℚ) = signFactor s * n := by
  cases s with
  | positive => exact (one_mul _).symm
  | negative =>
      have hneg : Sign.negative.apply n = -n := rfl
      rw [hneg, Int.cast_neg]
      exact (neg_one_mul _).symm

/-! ## Some values -/

theorem value_zero : value 0 = 0 :=
  rfl

theorem value_one : value 1 = 1 := by
  have hunpack : (1 : Float).toModel.unpack =
      .finite .positive 4503599627370496 (-52) (by decide) := by rfl
  rw [value_of_unpack_eq hunpack, signFactor_positive_mul]
  norm_num

theorem value_half : value 0.5 = 1 / 2 := by
  have hunpack : (0.5 : Float).toModel.unpack =
      .finite .positive 4503599627370496 (-53) (by decide) := by rfl
  rw [value_of_unpack_eq hunpack, signFactor_positive_mul]
  norm_num

theorem value_billionth : value (1e-9 : Float) = 4835703278458517 / 2 ^ 82 := by
  have hunpack : (1e-9 : Float).toModel.unpack =
      .finite .positive 4835703278458517 (-82) (by decide) := by rfl
  rw [value_of_unpack_eq hunpack, signFactor_positive_mul, div_eq_mul_inv]
  rfl

theorem value_trillionth : value (1e-12 : Float) =
    4951760157141521 / 2 ^ 92 := by
  have hunpack : (1e-12 : Float).toModel.unpack =
      .finite .positive 4951760157141521 (-92) (by decide) := by rfl
  rw [value_of_unpack_eq hunpack, signFactor_positive_mul, div_eq_mul_inv]
  rfl

/-! ## Canonical forms -/

theorem Canonical.normal {m : ℕ} {e : ℤ} (h : Canonical m e)
    (hfull : 2 ^ 52 ≤ m) (he : e ≤ 971) : Normal m e :=
  ⟨hfull, h.lt, h.least, he⟩

theorem Canonical.value_pos {m : ℕ} {e : ℤ} (h : Canonical m e) :
    (0 : ℚ) < m * 2 ^ e := by
  have hm : (0 : ℚ) < m := by exact_mod_cast h.pos
  positivity

theorem Canonical.value_lt {m : ℕ} {e : ℤ} (h : Canonical m e) :
    (m : ℚ) * 2 ^ e < 2 ^ 53 * 2 ^ e := by
  apply mul_lt_mul_of_pos_right _ (by positivity)
  exact_mod_cast h.lt

theorem Canonical.two_pow_le_value {m : ℕ} {e : ℤ} (h : Canonical m e)
    (he : e ≠ -1074) :
    (2 : ℚ) ^ 52 * 2 ^ e ≤ m * 2 ^ e := by
  apply mul_le_mul_of_nonneg_right _ (by positivity)
  exact_mod_cast h.full.resolve_right he

theorem Canonical.lt_of_exponent_lt
    {m m' : ℕ} {e e' : ℤ} (h : Canonical m e) (h' : Canonical m' e')
    (he : e < e') :
    (m : ℚ) * 2 ^ e < m' * 2 ^ e' := by
  have hstep : (2 : ℚ) ^ (e + 1) ≤ 2 ^ e' := zpow_le_zpow_right₀ one_le_two he
  rw [zpow_add_one₀ two_ne_zero] at hstep
  have hleast := h.least
  calc (m : ℚ) * 2 ^ e < 2 ^ 53 * 2 ^ e := h.value_lt
    _ = 2 ^ 52 * (2 ^ e * 2) := by ring
    _ ≤ 2 ^ 52 * 2 ^ e' := mul_le_mul_of_nonneg_left hstep (by positivity)
    _ ≤ m' * 2 ^ e' := h'.two_pow_le_value (by omega)

/-- Canonical numbers are compared by exponents first, and then by mantissas. -/
theorem Canonical.compare_eq
    {m m' : ℕ} {e e' : ℤ} (h : Canonical m e) (h' : Canonical m' e') :
    (compare e e').then (compare m m') =
      compare ((m : ℚ) * 2 ^ e) (m' * 2 ^ e') := by
  rcases lt_trichotomy e e' with hlt | rfl | hgt
  · have hvalue := h.lt_of_exponent_lt h' hlt
    rw [compare_lt_iff_lt.mpr hlt, compare_lt_iff_lt.mpr hvalue]
    rfl
  · have hstep : (0 : ℚ) < 2 ^ e := by positivity
    rw [compare_eq_iff_eq.mpr rfl, Ordering.then]
    rcases lt_trichotomy m m' with hlt | rfl | hgt
    · have hvalue : (m : ℚ) * 2 ^ e < m' * 2 ^ e :=
        mul_lt_mul_of_pos_right (by exact_mod_cast hlt) hstep
      rw [compare_lt_iff_lt.mpr hlt, compare_lt_iff_lt.mpr hvalue]
    · rw [compare_eq_iff_eq.mpr rfl, compare_eq_iff_eq.mpr rfl]
    · have hvalue : (m' : ℚ) * 2 ^ e < m * 2 ^ e :=
        mul_lt_mul_of_pos_right (by exact_mod_cast hgt) hstep
      rw [compare_gt_iff_gt.mpr hgt, compare_gt_iff_gt.mpr hvalue]
  · have hvalue := h'.lt_of_exponent_lt h hgt
    rw [compare_gt_iff_gt.mpr hgt, compare_gt_iff_gt.mpr hvalue]
    rfl

theorem canonical_of_unpack_eq
    {x : Float.Model} {s : Sign} {m : ℕ} {e : ℤ} {hm : 0 < m}
    (hx : x.unpack = .finite s m e hm) : Canonical m e ∧ e ≤ 971 := by
  rcases normal_or_eq_least hx with h | ⟨hshort, rfl⟩
  · exact ⟨⟨hm, h.upper, h.least, .inl h.lower⟩, h.greatest⟩
  · exact ⟨⟨hm, by omega, le_rfl, .inr rfl⟩, by decide⟩

/-- A finite number stands for its value. -/
theorem represents_value {x : Float} (hx : x.isFinite = true) :
    Represents x.toModel.unpack (value x) := by
  have hmodel : x.toModel.unpack.isFinite = true := hx
  rw [value]
  cases hunpack : x.toModel.unpack with
  | notANumber => rw [hunpack] at hmodel; cases hmodel
  | infinity s => rw [hunpack] at hmodel; cases hmodel
  | zero s => exact .zero s
  | finite s m e hm => exact .finite s (canonical_of_unpack_eq hunpack).1

/-! ## The order of values -/

theorem compare_neg_neg (p q : ℚ) : compare (-p) (-q) = (compare p q).swap := by
  rcases lt_trichotomy p q with h | rfl | h
  · rw [compare_lt_iff_lt.mpr h, compare_gt_iff_gt.mpr (neg_lt_neg h)]
    rfl
  · rw [compare_eq_iff_eq.mpr rfl, compare_eq_iff_eq.mpr rfl]
    rfl
  · rw [compare_gt_iff_gt.mpr h, compare_lt_iff_lt.mpr (neg_lt_neg h)]
    rfl

theorem compare_eq_of_represents
    {u v : UnpackedFloat} {p q : ℚ} (hu : Represents u p)
    (hv : Represents v q) :
    u.compare v = some (compare p q) := by
  cases hu with
  | zero s =>
      cases hv with
      | zero t => rw [compare_eq_iff_eq.mpr rfl]; rfl
      | finite t h =>
          have hpos := h.value_pos
          cases t with
          | positive =>
              rw [signFactor_positive_mul, compare_lt_iff_lt.mpr hpos]
              rfl
          | negative =>
              rw [signFactor_negative_mul,
                compare_gt_iff_gt.mpr (neg_neg_of_pos hpos)]
              rfl
  | finite s h =>
      have hpos := h.value_pos
      cases hv with
      | zero t =>
          cases s with
          | positive =>
              rw [signFactor_positive_mul, compare_gt_iff_gt.mpr hpos]
              rfl
          | negative =>
              rw [signFactor_negative_mul,
                compare_lt_iff_lt.mpr (neg_neg_of_pos hpos)]
              rfl
      | finite t h' =>
          have hpos' := h'.value_pos
          cases s with
          | positive =>
              cases t with
              | positive =>
                  rw [signFactor_positive_mul, signFactor_positive_mul,
                    ← h.compare_eq h']
                  rfl
              | negative =>
                  rw [signFactor_positive_mul, signFactor_negative_mul,
                    compare_gt_iff_gt.mpr ((neg_neg_of_pos hpos').trans hpos)]
                  rfl
          | negative =>
              cases t with
              | positive =>
                  rw [signFactor_positive_mul, signFactor_negative_mul,
                    compare_lt_iff_lt.mpr ((neg_neg_of_pos hpos).trans hpos')]
                  rfl
              | negative =>
                  rw [signFactor_negative_mul, signFactor_negative_mul,
                    compare_neg_neg, ← h.compare_eq h']
                  rfl

section Order

variable {x y : Float}

theorem lt_iff_value_lt (hx : x.isFinite = true) (hy : y.isFinite = true) :
    x < y ↔ value x < value y := by
  rw [lt_iff_compare,
    compare_eq_of_represents (represents_value hx) (represents_value hy),
    Option.some_inj, compare_lt_iff_lt]

theorem le_iff_value_le (hx : x.isFinite = true) (hy : y.isFinite = true) :
    x ≤ y ↔ value x ≤ value y := by
  rw [le_iff_compare,
    compare_eq_of_represents (represents_value hx) (represents_value hy)]
  exact Std.LawfulBCmp.isLE_iff_le

theorem beq_iff_value_eq (hx : x.isFinite = true) (hy : y.isFinite = true) :
    (x == y) = true ↔ value x = value y := by
  have hbeq : (x == y) =
      (x.toModel.unpack.compare y.toModel.unpack == some .eq) := rfl
  rw [hbeq,
    compare_eq_of_represents (represents_value hx) (represents_value hy),
    beq_iff_eq, Option.some_inj, compare_eq_iff_eq]

end Order

/-! ## Numbers with the same value -/

theorem Canonical.unique
    {m m' : ℕ} {e e' : ℤ} (h : Canonical m e) (h' : Canonical m' e')
    (hvalue : (m : ℚ) * 2 ^ e = m' * 2 ^ e') : m = m' ∧ e = e' := by
  have he : e = e' := by
    rcases lt_trichotomy e e' with hlt | heq | hgt
    · exact absurd hvalue (h.lt_of_exponent_lt h' hlt).ne
    · exact heq
    · exact absurd hvalue (h'.lt_of_exponent_lt h hgt).ne'
  subst he
  refine ⟨?_, rfl⟩
  exact_mod_cast mul_right_cancel₀ (zpow_ne_zero e two_ne_zero) hvalue

theorem Represents.eq_of_ne_zero
    {u v : UnpackedFloat} {p q : ℚ} (hu : Represents u p) (hv : Represents v q)
    (h : p = q) (hne : p ≠ 0) : u = v := by
  cases hu with
  | zero s => exact absurd rfl hne
  | @finite s m e hm =>
      cases hv with
      | zero t => exact absurd h hne
      | @finite t m' e' hm' =>
          have hmagnitude : |signFactor s * ((m : ℚ) * 2 ^ e)| =
              |signFactor t * ((m' : ℚ) * 2 ^ e')| := by rw [h]
          rw [abs_signFactor_mul s hm.value_pos,
            abs_signFactor_mul t hm'.value_pos]
            at hmagnitude
          obtain ⟨rfl, rfl⟩ := hm.unique hm' hmagnitude
          have hsign : signFactor s = signFactor t :=
            mul_right_cancel₀ hm.value_pos.ne' h
          rw [signFactor_injective hsign]

/-- A number other than zero is known by its value. -/
theorem eq_of_value_eq
    {x y : Float} (hx : x.isFinite = true) (hy : y.isFinite = true)
    (h : value x = value y) (hne : value x ≠ 0) : x = y :=
  eq_of_unpack_eq
    ((represents_value hx).eq_of_ne_zero (represents_value hy) h hne)

end Binary64
end NumericalMethods
