import NumericalMethods.Proofs.Binary64.SquareRoot

/-!
# Bands of magnitudes

Numbers that are zero, or lie between two powers of two in magnitude.  An
operation leads from one band to another: the exponents of a product are added,
and those of a root are halved.  A difference of numbers of 53 digits is zero or
no smaller than the last digit of the smallest of them.  Inside the bands
nothing overflows, and no product loses digits.
-/

namespace NumericalMethods
namespace Binary64

/-! ## Exact results -/

/-- Zero, or a magnitude from `2 ^ a` to `2 ^ b`. -/
structure InBand (a b : ℤ) (q : ℚ) : Prop where
  lower : q = 0 ∨ 2 ^ a ≤ |q|
  upper : |q| ≤ 2 ^ b

instance (a b : ℤ) (q : ℚ) : Decidable (InBand a b q) :=
  decidable_of_iff ((q = 0 ∨ 2 ^ a ≤ |q|) ∧ |q| ≤ 2 ^ b)
    ⟨fun h => ⟨h.1, h.2⟩, fun h => ⟨h.1, h.2⟩⟩

section InBand

variable {a b a' b' : ℤ} {p q : ℚ}

theorem InBand.mono (h : InBand a b q) (ha : a' ≤ a) (hb : b ≤ b') :
    InBand a' b' q :=
  ⟨h.lower.imp_right (le_trans (zpow_le_zpow_right₀ one_le_two ha)),
    h.upper.trans (zpow_le_zpow_right₀ one_le_two hb)⟩

theorem InBand.hasFullPrecision (h : InBand a b q) (ha : -1022 ≤ a) :
    HasFullPrecision q :=
  (h.mono ha le_rfl).lower

theorem InBand.mul (hp : InBand a b p) (hq : InBand a' b' q) :
    InBand (a + a') (b + b') (p * q) := by
  constructor
  · rcases hp.lower with rfl | hp'
    · exact .inl (zero_mul q)
    · rcases hq.lower with rfl | hq'
      · exact .inl (mul_zero p)
      · right
        rw [abs_mul, zpow_add₀ two_ne_zero]
        exact mul_le_mul hp' hq' (by positivity) (abs_nonneg p)
  · rw [abs_mul, zpow_add₀ two_ne_zero]
    exact mul_le_mul hp.upper hq.upper (abs_nonneg q) (by positivity)

/-- Sums of numbers that are not negative are no smaller than either. -/
theorem InBand.add_of_nonneg (hp : InBand a b p) (hq : InBand a b q)
    (hp' : 0 ≤ p) (hq' : 0 ≤ q) : InBand a (b + 1) (p + q) := by
  have hpUpper := hp.upper
  have hqUpper := hq.upper
  have hsum := add_nonneg hp' hq'
  rw [abs_of_nonneg hp'] at hpUpper
  rw [abs_of_nonneg hq'] at hqUpper
  constructor
  · rcases hp.lower with rfl | hlower
    · rw [zero_add]
      exact hq.lower
    · right
      rw [abs_of_nonneg hp'] at hlower
      rw [abs_of_nonneg hsum]
      linarith
  · rw [abs_of_nonneg hsum, zpow_add_one₀ two_ne_zero]
    linarith

theorem InBand.nearestRoot (h : InBand (2 * a) (2 * b) q) (hq : 0 ≤ q) :
    InBand (a - 1) (b + 1) (nearestRoot q) := by
  have hroot := nearestRoot_nonneg q
  have hsquare : ∀ e : ℤ, (2 : ℚ) ^ (2 * e) = (2 ^ e) ^ 2 := by
    intro e
    rw [mul_comm, zpow_mul]
    norm_cast
  rcases hq.eq_or_lt with rfl | hpos
  · rw [nearestRoot_zero]
    exact ⟨.inl rfl, by rw [abs_zero]; positivity⟩
  · obtain ⟨hupper, hlower⟩ := nearestRoot_mul_self_bounds hpos
    have hqLower := h.lower.resolve_left hpos.ne'
    have hqUpper := h.upper
    rw [abs_of_pos hpos, hsquare] at hqLower hqUpper
    rw [← sq] at hupper hlower
    constructor
    · right
      rw [abs_of_nonneg hroot]
      apply le_of_sq_le_sq _ hroot
      rw [zpow_sub_one₀ two_ne_zero, mul_pow]
      linarith
    · rw [abs_of_nonneg hroot]
      apply le_of_sq_le_sq _ (by positivity)
      rw [zpow_add_one₀ two_ne_zero, mul_pow]
      linarith

theorem nearest_two_zpow {e : ℤ} (he : -1074 ≤ e) :
    nearest (2 ^ e) = 2 ^ e := by
  apply nearest_of_abs_lt (n := 1) (e := e) _ he (by decide)
  rw [Int.cast_one, one_mul]

/-- Rounding does not leave a band. -/
theorem InBand.nearest (h : InBand a b q) (ha : -1074 ≤ a) (hb : -1074 ≤ b) :
    InBand a b (nearest q) := by
  constructor
  · rcases h.lower with rfl | hlower
    · exact .inl nearest_zero
    · right
      rw [abs_nearest, ← nearest_two_zpow ha]
      exact nearest_mono hlower
  · rw [abs_nearest, ← nearest_two_zpow hb]
    exact nearest_mono h.upper

theorem InBand.rounds {z : Float} (h : InBand a b q) (hz : Rounds z q)
    (ha : -1074 ≤ a) (hb : -1074 ≤ b) (hb' : b ≤ 1023) :
    z.isFinite = true ∧ InBand a b (value z) := by
  have hnearest := h.nearest ha hb
  have hfinite : z.isFinite = true := by
    rw [hz.isFinite_iff]
    calc |Binary64.nearest q| ≤ 2 ^ b := hnearest.upper
      _ ≤ 2 ^ (1023 : ℤ) := zpow_le_zpow_right₀ one_le_two hb'
      _ < 2 ^ (1024 : ℤ) := zpow_lt_zpow_right₀ one_lt_two (by decide)
      _ = 2 ^ 1024 := zpow_natCast 2 1024
  exact ⟨hfinite, hz.value_eq hfinite ▸ hnearest⟩

end InBand

/-! ## Numbers -/

/-- A finite number in a band. -/
structure Within (a b : ℤ) (x : Float) : Prop where
  isFinite : x.isFinite = true
  inBand : InBand a b (value x)

instance (a b : ℤ) (x : Float) : Decidable (Within a b x) :=
  decidable_of_iff (x.isFinite = true ∧ InBand a b (value x))
    ⟨fun h => ⟨h.1, h.2⟩, fun h => ⟨h.1, h.2⟩⟩

section Within

variable {a b a' b' : ℤ} {x y : Float}

theorem within_one : Within 0 0 1 :=
  ⟨rfl, by rw [value_one]; exact ⟨.inr (by norm_num), by norm_num⟩⟩

theorem Within.mono (h : Within a b x) (ha : a' ≤ a) (hb : b ≤ b') :
    Within a' b' x :=
  ⟨h.isFinite, h.inBand.mono ha hb⟩

theorem Within.mul (hx : Within a b x) (hy : Within a' b' y)
    (ha : -1022 ≤ a + a') (hb : -1074 ≤ b + b') (hb' : b + b' ≤ 1023) :
    ProductKept x y ∧ Within (a + a') (b + b') (x * y) := by
  have hproduct := hx.inBand.mul hy.inBand
  obtain ⟨hfinite, hband⟩ :=
    hproduct.rounds (rounds_mul hx.isFinite hy.isFinite)
    (by omega) hb hb'
  exact ⟨⟨hfinite, hproduct.hasFullPrecision ha⟩, hfinite, hband⟩

/-- The last of 53 digits of a number is known by its magnitude. -/
theorem Within.exists_eq_mul (hx : Within a b x) :
    ∃ n : ℤ, value x = n * 2 ^ (a - 52) := by
  rcases hx.inBand.lower with hzero | hlower
  · exact ⟨0, by rw [hzero, Int.cast_zero, zero_mul]⟩
  · have hle : a - 52 ≤ stepExponent (value x) := by
      apply le_stepExponent_of_le
      calc (2 : ℚ) ^ 52 * 2 ^ (a - 52) = 2 ^ a := by
            rw [← zpow_natCast, ← zpow_add₀ two_ne_zero]
            congr 1
            omega
        _ ≤ |value x| := hlower
    obtain ⟨k, hk⟩ := Int.le.dest hle
    refine ⟨halfEven (value x / 2 ^ stepExponent (value x)) * 2 ^ k, ?_⟩
    calc value x = nearest (value x) := (nearest_value hx.isFinite).symm
      _ = halfEven (value x / 2 ^ stepExponent (value x)) * 2 ^
        (a - 52 + k) := by
          rw [nearest, hk]
      _ = _ := by
          rw [zpow_add₀ two_ne_zero, zpow_natCast]
          push_cast
          ring

/-- Exact differences are zero or no smaller than the last digit. -/
theorem Within.inBand_sub (hx : Within a b x) (hy : Within a b y) :
    InBand (a - 52) (b + 1) (value x - value y) := by
  obtain ⟨m, hm⟩ := hx.exists_eq_mul
  obtain ⟨n, hn⟩ := hy.exists_eq_mul
  constructor
  · rcases eq_or_ne m n with rfl | hne
    · left
      rw [hm, hn, sub_self]
    · right
      have hone : (1 : ℚ) ≤ |(m : ℚ) - n| := by
        exact_mod_cast Int.one_le_abs (sub_ne_zero.mpr hne)
      rw [hm, hn, ← sub_mul, abs_mul,
        abs_of_pos (by positivity : (0 : ℚ) < 2 ^ (a - 52))]
      exact le_mul_of_one_le_left (by positivity) hone
  · calc |value x - value y| ≤ |value x| + |value y| := abs_sub _ _
      _ ≤ 2 ^ b + 2 ^ b := add_le_add hx.inBand.upper hy.inBand.upper
      _ = 2 ^ (b + 1) := by
          rw [zpow_add_one₀ two_ne_zero]
          ring

theorem Within.sub (hx : Within a b x) (hy : Within a b y) (ha : -1022 ≤ a)
    (hb : -1075 ≤ b) (hb' : b ≤ 1022) : Within (a - 52) (b + 1) (x - y) := by
  obtain ⟨hfinite, hband⟩ :=
    (hx.inBand_sub hy).rounds (rounds_sub hx.isFinite hy.isFinite)
    (by omega) (by omega) (by omega)
  exact ⟨hfinite, hband⟩

theorem Within.neg (hx : Within a b x) : Within a b (-x) := by
  refine ⟨isFinite_neg hx.isFinite, ?_, ?_⟩
  · rw [value_neg hx.isFinite, neg_eq_zero, abs_neg]
    exact hx.inBand.lower
  · rw [value_neg hx.isFinite, abs_neg]
    exact hx.inBand.upper

theorem Within.add (hx : Within a b x) (hy : Within a b y) (ha : -1022 ≤ a)
    (hb : -1075 ≤ b) (hb' : b ≤ 1022) : Within (a - 52) (b + 1) (x + y) := by
  have hsum := hx.inBand_sub hy.neg
  rw [value_neg hy.isFinite, sub_neg_eq_add] at hsum
  obtain ⟨hfinite, hband⟩ := hsum.rounds (rounds_add hx.isFinite hy.isFinite)
    (by omega) (by omega) (by omega)
  exact ⟨hfinite, hband⟩

theorem Within.add_of_nonneg (hx : Within a b x) (hy : Within a b y)
    (hx' : 0 ≤ value x) (hy' : 0 ≤ value y) (ha : -1074 ≤ a) (hb : -1075 ≤ b)
    (hb' : b ≤ 1022) :
    Within a (b + 1) (x + y) ∧ 0 ≤ value (x + y) := by
  have hsum := hx.inBand.add_of_nonneg hy.inBand hx' hy'
  have hrounds := rounds_add hx.isFinite hy.isFinite
  obtain ⟨hfinite, hband⟩ := hsum.rounds hrounds ha (by omega) (by omega)
  refine ⟨⟨hfinite, hband⟩, ?_⟩
  rw [hrounds.value_eq hfinite]
  exact nearest_nonneg (add_nonneg hx' hy')

theorem Within.sqrt (hx : Within (2 * a) (2 * b) x) (hx' : 0 ≤ value x) :
    Within (a - 1) (b + 1) x.sqrt :=
  ⟨isFinite_sqrt hx.isFinite hx',
    value_sqrt hx.isFinite hx' ▸ hx.inBand.nearestRoot hx'⟩

end Within

end Binary64
end NumericalMethods
