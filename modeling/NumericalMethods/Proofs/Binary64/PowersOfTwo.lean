import NumericalMethods.Proofs.Binary64.ErrorBounds
import NumericalMethods.Proofs.Binary64.Zero

/-!
# Powers of two as factors

Multiplying by a power of two moves the exponent of a number and keeps its
digits.  Rounding therefore commutes with it as long as both results keep all 53
digits, or are exact because nothing lies between the multiples of the least
positive number.  Numbers that differ by such a factor stay so under the
operations, each with the factor that exact arithmetic gives it.
-/

namespace NumericalMethods
namespace Binary64

/-! ## Rounding -/

section Nearest

variable {q : ℚ} {k : ℤ}

theorem log_mul_two_pow (hq : 0 < q) (k : ℤ) :
    Int.log 2 (q * 2 ^ k) = Int.log 2 q + k := by
  refine eq_of_forall_le_iff fun e => ?_
  have hscaled : (2 : ℚ) ^ e ≤ q * 2 ^ k ↔ (2 : ℚ) ^ (e - k) ≤ q := by
    rw [zpow_sub₀ two_ne_zero, div_le_iff₀ (by positivity)]
  rw [← sub_le_iff_le_add, ← Int.zpow_le_iff_le_log one_lt_two hq,
    ← Int.zpow_le_iff_le_log one_lt_two (by positivity)]
  exact_mod_cast hscaled

/-- Zero, or no smaller than the least normal number: rounding leaves all 53
digits. -/
def HasFullPrecision (q : ℚ) : Prop :=
  q = 0 ∨ 2 ^ (-1022 : ℤ) ≤ |q|

instance (q : ℚ) : Decidable (HasFullPrecision q) :=
  inferInstanceAs (Decidable (_ ∨ _))

theorem stepExponent_eq_log_sub (hq : 2 ^ (-1022 : ℤ) ≤ |q|) :
    stepExponent q = Int.log 2 |q| - 52 := by
  have hpos : 0 < |q| := lt_of_lt_of_le (by positivity) hq
  have hlog : -1022 ≤ Int.log 2 |q| := by
    rw [← Int.zpow_le_iff_le_log one_lt_two hpos]
    exact_mod_cast hq
  exact max_eq_left (by omega)

theorem nearest_mul_two_pow_of_step
    (hstep : stepExponent (q * 2 ^ k) = stepExponent q + k) :
    nearest (q * 2 ^ k) = nearest q * 2 ^ k := by
  have hsteps : q * 2 ^ k / 2 ^ (stepExponent q + k) =
      q / 2 ^ stepExponent q := by
    rw [zpow_add₀ two_ne_zero]
    field_simp
  rw [nearest, hstep, hsteps, zpow_add₀ two_ne_zero, nearest, mul_assoc]

theorem HasFullPrecision.nearest_mul_two_pow (hq : HasFullPrecision q)
    (hq' : HasFullPrecision (q * 2 ^ k)) :
    nearest (q * 2 ^ k) = nearest q * 2 ^ k := by
  rcases eq_or_ne q 0 with rfl | hne
  · simp
  · have hlarge := hq.resolve_left hne
    have hlarge' := hq'.resolve_left (mul_ne_zero hne (by positivity))
    apply nearest_mul_two_pow_of_step
    rw [stepExponent_eq_log_sub hlarge,
      stepExponent_eq_log_sub hlarge', abs_mul,
      abs_of_pos (by positivity : (0 : ℚ) < 2 ^ k),
      log_mul_two_pow (abs_pos.mpr hne)]
    omega

/-- Among the least numbers, multiples of the least positive one have digits to
spare. -/
theorem IsMultiple.exists_abs_lt (hq : IsMultiple q)
    (hsmall : |q| < 2 ^ (-1022 : ℤ)) :
    ∃ n : ℤ, q = n * 2 ^ (-1074 : ℤ) ∧ |n| < 2 ^ 53 := by
  obtain ⟨n, hn⟩ := hq
  have hbound : |(n : ℚ)| * 2 ^ (-1074 : ℤ) < 2 ^ 53 * 2 ^ (-1074 : ℤ) := by
    calc |(n : ℚ)| * 2 ^ (-1074 : ℤ) = |q| := by
          rw [hn, abs_mul,
            abs_of_pos (by positivity : (0 : ℚ) < 2 ^ (-1074 : ℤ))]
      _ < 2 ^ (-1022 : ℤ) := hsmall
      _ < 2 ^ (-1021 : ℤ) := zpow_lt_zpow_right₀ one_lt_two (by decide)
      _ = 2 ^ 53 * 2 ^ (-1074 : ℤ) := by
          rw [← zpow_natCast, ← zpow_add₀ two_ne_zero]
          rfl
  exact ⟨n, hn, by exact_mod_cast lt_of_mul_lt_mul_right hbound (by positivity)⟩

theorem IsMultiple.nearest_mul_two_pow_of_nonneg (hq : IsMultiple q)
    (hk : 0 ≤ k) :
    nearest (q * 2 ^ k) = nearest q * 2 ^ k := by
  rcases le_or_gt (2 ^ (-1022 : ℤ)) |q| with hlarge | hsmall
  · apply HasFullPrecision.nearest_mul_two_pow (.inr hlarge) (.inr _)
    rw [abs_mul, abs_of_pos (by positivity : (0 : ℚ) < 2 ^ k)]
    exact hlarge.trans
      (le_mul_of_one_le_right (abs_nonneg q) (one_le_zpow₀ one_le_two hk))
  · obtain ⟨n, hn, hdigits⟩ := hq.exists_abs_lt hsmall
    have hscaled : q * 2 ^ k = n * 2 ^ (-1074 + k) := by
      rw [zpow_add₀ two_ne_zero, ← mul_assoc, ← hn]
    rw [nearest_of_abs_lt hn le_rfl hdigits,
      nearest_of_abs_lt hscaled (by omega) hdigits]

/-- No digits of a sum are lost below the normal numbers. -/
theorem IsMultiple.nearest_mul_two_pow (hq : IsMultiple q)
    (hq' : IsMultiple (q * 2 ^ k)) :
    nearest (q * 2 ^ k) = nearest q * 2 ^ k := by
  rcases le_total 0 k with hk | hk
  · exact hq.nearest_mul_two_pow_of_nonneg hk
  · have hback := hq'.nearest_mul_two_pow_of_nonneg (k := -k) (by omega)
    rw [mul_assoc, ← zpow_add₀ two_ne_zero, add_neg_cancel, zpow_zero,
      mul_one] at hback
    rw [hback, mul_assoc, ← zpow_add₀ two_ne_zero, neg_add_cancel,
      zpow_zero, mul_one]

end Nearest

/-! ## Numbers that differ by a power of two -/

/-- The second of two numbers is the first one times `2 ^ k`. -/
structure IsScaled (k : ℤ) (x y : Float) : Prop where
  isFinite_left : x.isFinite = true
  isFinite_right : y.isFinite = true
  value_eq : value y = value x * 2 ^ k

instance (k : ℤ) (x y : Float) : Decidable (IsScaled k x y) :=
  decidable_of_iff (x.isFinite = true ∧ y.isFinite = true ∧
    value y = value x * 2 ^ k)
    ⟨fun h => ⟨h.1, h.2.1, h.2.2⟩, fun h => ⟨h.1, h.2, h.3⟩⟩

/-- The product of two numbers is finite and has lost no digits below the normal
numbers. -/
structure ProductKept (x y : Float) : Prop where
  isFinite : (x * y).isFinite = true
  hasFullPrecision : HasFullPrecision (value x * value y)

/-- The reciprocal of a number is finite and has lost no digits below the normal
numbers. -/
structure ReciprocalKept (x : Float) : Prop where
  isFinite : (1 / x).isFinite = true
  hasFullPrecision : HasFullPrecision (value x)⁻¹

instance (x y : Float) : Decidable (ProductKept x y) :=
  decidable_of_iff ((x * y).isFinite = true ∧
    HasFullPrecision (value x * value y))
    ⟨fun h => ⟨h.1, h.2⟩, fun h => ⟨h.1, h.2⟩⟩

instance (x : Float) : Decidable (ReciprocalKept x) :=
  decidable_of_iff ((1 / x).isFinite = true ∧ HasFullPrecision (value x)⁻¹)
    ⟨fun h => ⟨h.1, h.2⟩, fun h => ⟨h.1, h.2⟩⟩

section Scaled

variable {k l : ℤ} {x x' y y' : Float}

theorem isScaled_refl (hx : x.isFinite = true) : IsScaled 0 x x :=
  ⟨hx, hx, by rw [zpow_zero, mul_one]⟩

theorem Rounds.isScaled {p q : ℚ} (hx : Rounds x p) (hy : Rounds y q)
    (hfinite : x.isFinite = true) (hfinite' : y.isFinite = true)
    (hscaled : nearest q = nearest p * 2 ^ k) : IsScaled k x y :=
  ⟨hfinite, hfinite', by
    rw [hx.value_eq hfinite, hy.value_eq hfinite', hscaled]⟩

theorem IsScaled.add (hx : IsScaled k x x') (hy : IsScaled k y y')
    (hfinite : (x + y).isFinite = true) (hfinite' : (x' + y').isFinite = true) :
    IsScaled k (x + y) (x' + y') := by
  have hsum : value x' + value y' = (value x + value y) * 2 ^ k := by
    rw [hx.value_eq, hy.value_eq, add_mul]
  have hmultiple := (isMultiple_value hx.1).add (isMultiple_value hy.1)
  have hmultiple' := (isMultiple_value hx.2).add (isMultiple_value hy.2)
  refine (rounds_add hx.1 hy.1).isScaled (rounds_add hx.2 hy.2)
    hfinite hfinite' ?_
  rw [hsum] at hmultiple' ⊢
  exact hmultiple.nearest_mul_two_pow hmultiple'

theorem IsScaled.sub (hx : IsScaled k x x') (hy : IsScaled k y y')
    (hfinite : (x - y).isFinite = true) (hfinite' : (x' - y').isFinite = true) :
    IsScaled k (x - y) (x' - y') := by
  have hdifference : value x' - value y' = (value x - value y) * 2 ^ k := by
    rw [hx.value_eq, hy.value_eq, sub_mul]
  have hmultiple := (isMultiple_value hx.1).sub (isMultiple_value hy.1)
  have hmultiple' := (isMultiple_value hx.2).sub (isMultiple_value hy.2)
  refine (rounds_sub hx.1 hy.1).isScaled (rounds_sub hx.2 hy.2)
    hfinite hfinite' ?_
  rw [hdifference] at hmultiple' ⊢
  exact hmultiple.nearest_mul_two_pow hmultiple'

theorem IsScaled.mul (hx : IsScaled k x x') (hy : IsScaled l y y')
    (hkept : ProductKept x y) (hkept' : ProductKept x' y') :
    IsScaled (k + l) (x * y) (x' * y') := by
  have hproduct : value x' * value y' = value x * value y * 2 ^ (k + l) := by
    rw [hx.value_eq, hy.value_eq, zpow_add₀ two_ne_zero]
    ring
  refine (rounds_mul hx.1 hy.1).isScaled (rounds_mul hx.2 hy.2)
    hkept.1 hkept'.1 ?_
  have hprecision := hkept'.2
  rw [hproduct] at hprecision ⊢
  exact hkept.2.nearest_mul_two_pow hprecision

theorem IsScaled.reciprocal (hx : IsScaled k x x') (hne : value x ≠ 0)
    (hkept : ReciprocalKept x) (hkept' : ReciprocalKept x') :
    IsScaled (-k) (1 / x) (1 / x') := by
  have hne' : value x' ≠ 0 := by
    rw [hx.value_eq]
    exact mul_ne_zero hne (by positivity)
  have hreciprocal : (value x')⁻¹ = (value x)⁻¹ * 2 ^ (-k) := by
    rw [hx.value_eq, mul_inv, zpow_neg]
  have hrounds := rounds_div (x := 1) rfl hx.1 hne
  have hrounds' := rounds_div (x := 1) rfl hx.2 hne'
  rw [value_one, one_div] at hrounds hrounds'
  refine hrounds.isScaled hrounds' hkept.1 hkept'.1 ?_
  have hprecision := hkept'.2
  rw [hreciprocal] at hprecision ⊢
  exact hkept.2.nearest_mul_two_pow hprecision

/-- Changing the sign loses nothing. -/
theorem IsScaled.mul_sign (hx : IsScaled k x x') (odd : Bool) :
    IsScaled k (x * if odd then -1 else 1) (x' * if odd then -1 else 1) := by
  have hone : value (-1) = -1 := by rw [value_neg rfl, value_one]
  have hfinite : (if odd then (-1 : Float) else 1).isFinite = true := by
    cases odd <;> rfl
  have hmul : ∀ {z : Float}, z.isFinite = true →
      (z * if odd then -1 else 1).isFinite = true ∧
        value (z * if odd then -1 else 1) = value z * if odd then
          -1 else 1 := by
    intro z hz
    have hrounds := rounds_mul hz hfinite
    have hvalue : value (if odd then (-1 : Float) else 1) = if odd then
        -1 else 1 := by
      cases odd
      · exact value_one
      · exact hone
    have hzFinite : (z * if odd then -1 else 1).isFinite = true := by
      apply hrounds.isFinite_of_abs_le hz
      rw [hvalue]
      cases odd <;> simp
    refine ⟨hzFinite, ?_⟩
    rw [hrounds.value_eq hzFinite, hvalue]
    cases odd <;> simp [nearest_value hz]
  refine ⟨(hmul hx.1).1, (hmul hx.2).1, ?_⟩
  rw [(hmul hx.1).2, (hmul hx.2).2, hx.value_eq]
  ring

theorem IsScaled.neg (hx : IsScaled k x x') : IsScaled k (-x) (-x') :=
  ⟨isFinite_neg hx.1, isFinite_neg hx.2, by
    rw [value_neg hx.1, value_neg hx.2, hx.value_eq, neg_mul]⟩

theorem IsScaled.abs (hx : IsScaled k x x') : IsScaled k x.abs x'.abs :=
  ⟨isFinite_abs hx.1, isFinite_abs hx.2, by
    rw [value_abs hx.1, value_abs hx.2, hx.value_eq, abs_mul,
      abs_of_pos (by positivity : (0 : ℚ) < 2 ^ k)]⟩

theorem IsScaled.lt_iff (hx : IsScaled k x x') (hy : IsScaled k y y') :
    x < y ↔ x' < y' := by
  rw [lt_iff_value_lt hx.1 hy.1, lt_iff_value_lt hx.2 hy.2,
    hx.value_eq, hy.value_eq, mul_lt_mul_iff_left₀ (by positivity)]

theorem IsScaled.value_eq_zero_iff (hx : IsScaled k x x') : value x' = 0 ↔
    value x = 0 := by
  rw [hx.value_eq, mul_eq_zero_iff_right (by positivity)]

theorem IsScaled.beq_zero (hx : IsScaled k x x') : (x' == 0) = (x == 0) := by
  rw [Bool.eq_iff_iff, beq_iff_value_eq hx.2 rfl,
    beq_iff_value_eq hx.1 rfl, value_zero, hx.value_eq_zero_iff]

end Scaled

end Binary64
end NumericalMethods
