import NumericalMethods.Proofs.Binary64.Finite
import NumericalMethods.Proofs.Binary64.Rounding

/-!
# Arithmetic by values

The value of a sum, a difference, a product or a quotient of finite numbers is
the number nearest to the exact result.  Where that is too large for the format,
the result is infinite instead.
-/

namespace NumericalMethods
namespace Binary64

open Float.Model Float.Model.UnpackedFloat

/-! ## Storing a result -/

theorem unpack_pack_of_canonical
    {m : ℕ} {e : ℤ} (s : Sign) (h : Canonical m e) (he : e ≤ 971) :
    (Float.Model.pack (.finite s m e h.pos)).unpack = .finite s m e h.pos := by
  by_cases hfull : 2 ^ 52 ≤ m
  · exact unpack_pack_of_normal (h.normal hfull he)
  · have hleast : e = -1074 := h.full.resolve_left hfull
    subst hleast
    exact unpack_pack_of_lt h.pos (Nat.lt_of_not_le hfull)

/-- A number with too large an exponent is stored as infinity. -/
theorem unpack_pack_of_lt_exponent (s : Sign) {m : ℕ} {e : ℤ} (hm : 0 < m)
    (he : 971 < e) :
    (Float.Model.pack (.finite s m e hm)).unpack = .infinity s := by
  rw [Float.Model.unpack, Float.Model.pack,
    UInt64.toBitVec_ofBitVec, pack_finite, if_pos (by omega)]
  cases s <;> rfl

/-- The exponent tells whether a number is too large. -/
theorem Canonical.le_iff_value_lt {m : ℕ} {e : ℤ} (h : Canonical m e) :
    e ≤ 971 ↔ (m : ℚ) * 2 ^ e < 2 ^ 1024 := by
  have hsplit : (2 : ℚ) ^ 1024 = 2 ^ 52 * 2 ^ (972 : ℤ) := pow_add 2 52 972
  constructor
  · intro he
    have hpower : (2 : ℚ) ^ (e + 1) ≤ 2 ^ (972 : ℤ) :=
      zpow_le_zpow_right₀ one_le_two (by omega)
    rw [zpow_add_one₀ two_ne_zero] at hpower
    have hvalue := h.value_lt
    rw [hsplit]
    linarith
  · intro hlt
    by_contra he
    have hpower : (2 : ℚ) ^ (972 : ℤ) ≤ 2 ^ e :=
      zpow_le_zpow_right₀ one_le_two (by omega)
    have hvalue := h.two_pow_le_value (by omega)
    rw [hsplit] at hlt
    linarith

/-- A number is stored with its value unless it is too large. -/
theorem Represents.stored
    {u : UnpackedFloat} {r : ℚ} (h : Represents u r) {z : Float}
    (hz : z.toModel = pack u) :
    (z.isFinite = true ↔ |r| < 2 ^ 1024) ∧
    (z.isFinite = true → value z = r) := by
  have hfinite : z.isFinite = (pack u).unpack.isFinite := by rw [← hz]; rfl
  rw [hfinite, value, hz]
  cases h with
  | zero s =>
      have hunpack : (Float.Model.pack (.zero s)).unpack = .zero s := by
        cases s <;> rfl
      rw [hunpack, abs_zero]
      exact ⟨⟨fun _ => by positivity, fun _ => rfl⟩, fun _ => rfl⟩
  | @finite s m e h =>
      rw [abs_signFactor_mul s h.value_pos, ← h.le_iff_value_lt]
      by_cases he : e ≤ 971
      · rw [unpack_pack_of_canonical s h he]
        exact ⟨⟨fun _ => he, fun _ => rfl⟩, fun _ => rfl⟩
      · rw [unpack_pack_of_lt_exponent s h.pos (by omega)]
        refine ⟨⟨?_, fun h => absurd h he⟩, ?_⟩
        · exact fun h => absurd h Bool.false_ne_true
        · exact fun h => absurd h Bool.false_ne_true

/-! ## Results rounded to the format -/

/-- The number is the nearest one to `q`, or infinite where that is too
large. -/
structure Rounds (z : Float) (q : ℚ) : Prop where
  isFinite_iff : z.isFinite = true ↔ |nearest q| < 2 ^ 1024
  value_eq : z.isFinite = true → value z = nearest q

theorem Rounds.of_represents
    {z : Float} {u : UnpackedFloat} {q : ℚ} (h : Represents u (nearest q))
    (hz : z.toModel = pack u) : Rounds z q :=
  ⟨(h.stored hz).1, (h.stored hz).2⟩

section Operations

variable {x y : Float}

theorem rounds_add (hx : x.isFinite = true) (hy : y.isFinite = true) :
    Rounds (x + y) (value x + value y) :=
  .of_represents ((represents_value hx).add (represents_value hy)) rfl

theorem rounds_sub (hx : x.isFinite = true) (hy : y.isFinite = true) :
    Rounds (x - y) (value x - value y) :=
  .of_represents ((represents_value hx).sub (represents_value hy)) rfl

theorem rounds_mul (hx : x.isFinite = true) (hy : y.isFinite = true) :
    Rounds (x * y) (value x * value y) :=
  .of_represents ((represents_value hx).mul (represents_value hy)) rfl

theorem rounds_div (hx : x.isFinite = true) (hy : y.isFinite = true)
    (hne : value y ≠ 0) :
    Rounds (x / y) (value x / value y) :=
  .of_represents ((represents_value hx).div (represents_value hy) hne) rfl

theorem nearest_value (hx : x.isFinite = true) : nearest (value x) = value x :=
  (represents_value hx).nearest_eq

theorem abs_value_lt (hx : x.isFinite = true) : |value x| < 2 ^ 1024 := by
  have hz : x.toModel = pack x.toModel.unpack := (pack_unpack x.toModel).symm
  exact ((represents_value hx).stored hz).1.mp hx

theorem abs_nearest (q : ℚ) : |nearest q| = nearest |q| := by
  rcases le_total 0 q with h | h
  · rw [abs_of_nonneg h, abs_of_nonneg (nearest_nonneg h)]
  · rw [abs_of_nonpos h, nearest_neg, abs_of_nonpos]
    rw [← neg_nonneg, ← nearest_neg]
    exact nearest_nonneg (neg_nonneg.mpr h)

/-- What is not larger than a number of the format is not too large. -/
theorem Rounds.isFinite_of_abs_le
    {z : Float} {q : ℚ} (h : Rounds z q) (hx : x.isFinite = true)
    (hq : |q| ≤ |value x|) :
    z.isFinite = true := by
  rw [h.isFinite_iff, abs_nearest]
  calc
    nearest |q| ≤ nearest |value x| := nearest_mono hq
    _ = |value x| := by rw [← abs_nearest, nearest_value hx]
    _ < 2 ^ 1024 := abs_value_lt hx

/-! ## Results that are too large -/

/-- What is too large is stored as the infinity of its sign. -/
theorem Represents.exists_unpack_eq_infinity
    {z : Float} {u : UnpackedFloat} {r : ℚ} (h : Represents u r)
    (hz : z.toModel = pack u) (hlarge : ¬ |r| < 2 ^ 1024) :
    ∃ s, z.toModel.unpack = .infinity s ∧ 0 < signFactor s * r := by
  cases h with
  | zero s =>
      rw [abs_zero] at hlarge
      exact absurd (by positivity) hlarge
  | finite s h =>
      rw [abs_signFactor_mul s h.value_pos, ← h.le_iff_value_lt, not_le]
        at hlarge
      refine ⟨s, ?_, ?_⟩
      · rw [hz]
        exact unpack_pack_of_lt_exponent s h.pos hlarge
      · rw [← mul_assoc, signFactor_mul_self, one_mul]
        exact h.value_pos

/-- A sum that is not smaller than its first term is finite if something is
above it. -/
theorem isFinite_of_add_lt
    {z : Float} (hx : x.isFinite = true) (hy : y.isFinite = true)
    (hnonneg : 0 ≤ value y) (hlt : x + y < z) : (x + y).isFinite = true := by
  by_contra hinfinite
  rw [(rounds_add hx hy).isFinite_iff] at hinfinite
  have hbelow : value x ≤ nearest (value x + value y) := by
    rw [← nearest_value hx]
    exact nearest_mono (by rw [nearest_value hx]; linarith)
  obtain ⟨s, hs, hsign⟩ := Represents.exists_unpack_eq_infinity (z := x + y)
    ((represents_value hx).add (represents_value hy)) rfl hinfinite
  cases s with
  | positive =>
      have hinfinity : x + y = Scalar.infinity := eq_of_unpack_eq hs
      exact not_infinity_lt z (hinfinity ▸ hlt)
  | negative =>
      rw [signFactor_negative_mul, neg_pos] at hsign
      have hbound : (0 : ℚ) < 2 ^ 1024 := by positivity
      have hx' := (abs_lt.mp (abs_value_lt hx)).1
      exact hinfinite (abs_lt.mpr ⟨hx'.trans_le hbelow, hsign.trans hbound⟩)

/-- A difference that is not larger than its first term is finite if something
is below it. -/
theorem isFinite_of_lt_sub
    {z : Float} (hx : x.isFinite = true) (hy : y.isFinite = true)
    (hnonneg : 0 ≤ value y) (hlt : z < x - y) : (x - y).isFinite = true := by
  by_contra hinfinite
  rw [(rounds_sub hx hy).isFinite_iff] at hinfinite
  have habove : nearest (value x - value y) ≤ value x := by
    rw [← nearest_value hx]
    exact nearest_mono (by rw [nearest_value hx]; linarith)
  obtain ⟨s, hs, hsign⟩ := Represents.exists_unpack_eq_infinity (z := x - y)
    ((represents_value hx).sub (represents_value hy)) rfl hinfinite
  cases s with
  | negative =>
      rw [lt_iff_compare, hs] at hlt
      cases hz : z.toModel.unpack with
      | notANumber => rw [hz] at hlt; cases hlt
      | infinity t => rw [hz] at hlt; cases t <;> cases hlt
      | zero t => rw [hz] at hlt; cases hlt
      | finite t m e hm => rw [hz] at hlt; cases t <;> cases hlt
  | positive =>
      rw [signFactor_positive_mul] at hsign
      have hbound : (0 : ℚ) < 2 ^ 1024 := by positivity
      have hx' := (abs_lt.mp (abs_value_lt hx)).2
      exact hinfinite
        (abs_lt.mpr ⟨(neg_neg_of_pos hbound).trans hsign, habove.trans_lt hx'⟩)

/-! ## Signs and magnitudes -/

theorem Represents.neg {u : UnpackedFloat} {q : ℚ} (h : Represents u q) :
    Represents u.neg (-q) := by
  cases h with
  | zero s =>
      rw [neg_zero]
      exact .zero (-s)
  | finite s h =>
      rw [← neg_mul, ← signFactor_neg]
      exact .finite (-s) h

theorem Represents.abs {u : UnpackedFloat} {q : ℚ} (h : Represents u q) :
    Represents u.abs |q| := by
  cases h with
  | zero s =>
      rw [abs_zero]
      exact .zero .positive
  | @finite s m e h =>
      have hvalue : |signFactor s * ((m : ℚ) * 2 ^ e)| =
          signFactor .positive * (m * 2 ^ e) := by
        rw [abs_signFactor_mul s h.value_pos, signFactor_positive_mul]
      rw [hvalue]
      exact .finite .positive h

theorem isFinite_neg (hx : x.isFinite = true) : (-x).isFinite = true := by
  have h := ((represents_value hx).neg.stored (z := -x) rfl).1
  rw [h, abs_neg]
  exact abs_value_lt hx

theorem value_neg (hx : x.isFinite = true) : value (-x) = -value x :=
  ((represents_value hx).neg.stored (z := -x) rfl).2 (isFinite_neg hx)

theorem isFinite_abs (hx : x.isFinite = true) : x.abs.isFinite = true := by
  have h := ((represents_value hx).abs.stored (z := x.abs) rfl).1
  rw [h, abs_abs]
  exact abs_value_lt hx

theorem value_abs (hx : x.isFinite = true) : value x.abs = |value x| :=
  ((represents_value hx).abs.stored (z := x.abs) rfl).2 (isFinite_abs hx)

end Operations

/-! ## Counts -/

theorem rounds_ofNat {n : ℕ} (hn : n < 2 ^ 65) : Rounds (Float.ofNat n) n := by
  have hz : (Float.ofNat n).toModel = pack (Float.ofNat n).toModel.unpack :=
    (pack_unpack _).symm
  rcases Nat.eq_zero_or_pos n with rfl | hpos
  · have hunpack : (Float.ofNat 0).toModel.unpack = .zero .positive := rfl
    refine .of_represents ?_ hz
    rw [hunpack, Nat.cast_zero, nearest_zero]
    exact .zero _
  · have hvalue : ((n * 2 ^ 53 : ℕ) : ℚ) * 2 ^ (-53 : ℤ) = n := by
      rw [Nat.cast_mul, Nat.cast_pow, Nat.cast_ofNat, mul_assoc, ← zpow_natCast,
        ← zpow_add₀ two_ne_zero]
      exact mul_one _
    have hfine : (-53 : ℤ) ≤
        stepExponent (((n * 2 ^ 53 : ℕ) : ℚ) * 2 ^ (-53 : ℤ)) := by
      apply le_stepExponent_of_le
      rw [abs_of_nonneg (by positivity)]
      apply mul_le_mul_of_nonneg_right _ (by positivity)
      exact_mod_cast (by omega : 2 ^ 52 ≤ n * 2 ^ 53)
    have h := (Awaits.exact (by omega) hfine).represents .positive
    rw [hvalue, signFactor_positive_mul, ← unpack_ofNat hpos hn] at h
    exact .of_represents h hz

end Binary64
end NumericalMethods
