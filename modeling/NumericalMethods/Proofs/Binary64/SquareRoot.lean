import Mathlib.Data.Nat.Sqrt
import NumericalMethods.Proofs.Binary64.PowersOfTwo
import NumericalMethods.Proofs.Binary64.Signs

/-!
# Square roots

The square root of a finite number is found as a whole number of steps: the
number is taken in squares of steps, and the root of that count is rounded to
the nearest whole number.  The step is known by the exponent of the number,
halved, so a factor of a power of four becomes one of a power of two.  The range
is never left.
-/

namespace NumericalMethods
namespace Binary64

open Float.Model Float.Model.UnpackedFloat

/-! ## The nearest root -/

/-- The whole number nearest to a square root.  There are no ties. -/
def roundedSqrt (n : ℕ) : ℕ :=
  if n - n.sqrt * n.sqrt ≤ n.sqrt then n.sqrt else n.sqrt + 1

/-- The exponent of the step between the numbers near the square root of `q`. -/
def rootExponent (q : ℚ) : ℤ :=
  Int.log 2 q / 2 - 52

/-- The binary number nearest to the square root of `q`, for a `q` of 53
digits. -/
def nearestRoot (q : ℚ) : ℚ :=
  roundedSqrt ⌊q / 4 ^ rootExponent q⌋₊ * 2 ^ rootExponent q

section Root

variable {q : ℚ} {k : ℤ}

theorem four_zpow (k : ℤ) : (4 : ℚ) ^ k = 2 ^ (2 * k) := by
  rw [zpow_mul]
  norm_num

theorem nearestRoot_zero : nearestRoot 0 = 0 := by
  simp [nearestRoot, roundedSqrt]

theorem nearestRoot_nonneg (q : ℚ) : 0 ≤ nearestRoot q := by
  rw [nearestRoot]
  positivity

/-- A power of four under the root is a power of two before it. -/
theorem nearestRoot_mul_four_pow (hq : 0 ≤ q) (k : ℤ) :
    nearestRoot (q * 4 ^ k) = nearestRoot q * 2 ^ k := by
  rcases hq.eq_or_lt with rfl | hpos
  · simp [nearestRoot_zero]
  · have hexponent : rootExponent (q * 4 ^ k) = rootExponent q + k := by
      rw [rootExponent, four_zpow, log_mul_two_pow hpos, rootExponent]
      omega
    have hcount : q * 4 ^ k / 4 ^ (rootExponent q + k) =
        q / 4 ^ rootExponent q := by
      rw [zpow_add₀ four_ne_zero]
      field_simp
    rw [nearestRoot, hexponent, hcount, zpow_add₀ two_ne_zero,
      nearestRoot, mul_assoc]

theorem sqrt_le_roundedSqrt (n : ℕ) : n.sqrt ≤ roundedSqrt n := by
  rw [roundedSqrt]
  split <;> omega

theorem roundedSqrt_le (n : ℕ) : roundedSqrt n ≤ n.sqrt + 1 := by
  rw [roundedSqrt]
  split <;> omega

/-- Rounding changes the root of a count by less than a factor of two. -/
theorem roundedSqrt_bounds {n : ℕ} (hn : 0 < n) :
    roundedSqrt n * roundedSqrt n ≤ 4 * n ∧
    n + 1 ≤ 4 * (roundedSqrt n * roundedSqrt n) := by
  have hroot : 0 < n.sqrt := Nat.sqrt_pos.mpr hn
  have hlower := Nat.sqrt_le n
  have hupper := Nat.succ_le_succ_sqrt n
  have hle := sqrt_le_roundedSqrt n
  have hge := roundedSqrt_le n
  constructor
  · nlinarith
  · nlinarith

/-- The count of squares of steps has 105 or 106 binary digits. -/
theorem two_pow_le_div_rootExponent (hq : 0 < q) :
    2 ^ 104 ≤ q / 4 ^ rootExponent q ∧ q / 4 ^ rootExponent q < 2 ^ 106 := by
  have hlower : (2 : ℚ) ^ Int.log 2 q ≤ q := by
    exact_mod_cast Int.zpow_log_le_self (b := 2) one_lt_two hq
  have hupper : q < (2 : ℚ) ^ (Int.log 2 q + 1) := by
    exact_mod_cast Int.lt_zpow_succ_log_self (b := 2) one_lt_two q
  have hstep : (0 : ℚ) < 2 ^ (2 * rootExponent q) := by positivity
  rw [four_zpow, le_div_iff₀ hstep, div_lt_iff₀ hstep, ← zpow_natCast,
    ← zpow_natCast, ← zpow_add₀ two_ne_zero, ← zpow_add₀ two_ne_zero]
  constructor
  · refine le_trans (zpow_le_zpow_right₀ one_le_two ?_) hlower
    rw [rootExponent]
    omega
  · refine lt_of_lt_of_le hupper (zpow_le_zpow_right₀ one_le_two ?_)
    rw [rootExponent]
    omega

theorem nearestRoot_mul_self_bounds (hq : 0 < q) :
    nearestRoot q * nearestRoot q ≤ 4 * q ∧
    q < 4 * (nearestRoot q * nearestRoot q) := by
  set count := q / 4 ^ rootExponent q with hcount
  have hpower : (0 : ℚ) < 4 ^ rootExponent q := by positivity
  have hsquare : (2 : ℚ) ^ rootExponent q * 2 ^ rootExponent q =
      4 ^ rootExponent q := by
    rw [← mul_zpow]
    norm_num
  have hq' : q = count * 4 ^ rootExponent q := by
    rw [hcount, div_mul_cancel₀ _ hpower.ne']
  have hlarge : 1 ≤ count := by
    have := (two_pow_le_div_rootExponent hq).1
    rw [← hcount] at this
    exact le_trans (by norm_num) this
  have hpos : 0 < ⌊count⌋₊ := Nat.floor_pos.mpr hlarge
  obtain ⟨hupper, hlower⟩ := roundedSqrt_bounds hpos
  have hfloor : (⌊count⌋₊ : ℚ) ≤ count :=
    Nat.floor_le (zero_le_one.trans hlarge)
  have hfloor' : count < ⌊count⌋₊ + 1 := Nat.lt_floor_add_one count
  have hroot : nearestRoot q * nearestRoot q =
      roundedSqrt ⌊count⌋₊ * roundedSqrt ⌊count⌋₊ * 4 ^ rootExponent q := by
    rw [nearestRoot, ← hcount, ← hsquare]
    ring
  have hupper' : ((roundedSqrt ⌊count⌋₊ * roundedSqrt ⌊count⌋₊ : ℕ) : ℚ) ≤
      4 * ⌊count⌋₊ := by
    exact_mod_cast hupper
  have hlower' : (⌊count⌋₊ : ℚ) + 1 ≤
      4 * (roundedSqrt ⌊count⌋₊ * roundedSqrt ⌊count⌋₊ : ℕ) := by
    exact_mod_cast hlower
  rw [hroot]
  push_cast at hupper' hlower'
  constructor
  · calc _ ≤ 4 * count * 4 ^ rootExponent q :=
          mul_le_mul_of_nonneg_right (by linarith) hpower.le
      _ = 4 * q := by rw [mul_assoc, ← hq']
  · calc q = count * 4 ^ rootExponent q := hq'
      _ < 4 * (roundedSqrt ⌊count⌋₊ * roundedSqrt ⌊count⌋₊) * 4 ^
        rootExponent q :=
          mul_lt_mul_of_pos_right (by linarith) hpower
      _ = _ := mul_assoc _ _ _

end Root

/-! ## The operation -/

section Operation

variable {m : ℕ} {e : ℤ}

theorem rootExponent_of_canonical (h : Canonical m e) :
    rootExponent (m * 2 ^ e) = ((m.log2 : ℤ) + e) / 2 - 52 := by
  have hm : (0 : ℚ) < m := by exact_mod_cast h.pos
  rw [rootExponent, log_mul_two_pow hm, Int.log_natCast, Nat.log2_eq_log_two]

/-- On which side of the half of a step a root lies that is cut off to a whole
number. -/
def rootAccuracy (n : ℕ) : Accuracy :=
  if n - n.sqrt * n.sqrt = 0 then .exact
  else .inexact (if n - n.sqrt * n.sqrt ≤ n.sqrt then .lt else .gt)

/-- The mantissa is shifted to the count of squares of steps. -/
theorem sqrtCore_eq (h : Canonical m e) :
    sqrtCore Format.binary64 m e =
      let count := ⌊(m * 2 ^ e : ℚ) / 4 ^ rootExponent (m * 2 ^ e)⌋₊
      (count.sqrt, rootExponent (m * 2 ^ e), rootAccuracy count) := by
  have hlog : m.log2 ≤ 52 := log2_le_of_lt h.pos h.lt
  have hleast := h.least
  have hexponent := rootExponent_of_canonical h
  set T := rootExponent (m * 2 ^ e) with hT
  have htarget : min (e.ediv 2)
      (Format.binary64.targetExponent ((totalExponent m e + 1).ediv 2)) =
        T := by
    have htotal : Format.binary64.targetExponent
        ((totalExponent m e + 1).ediv 2) =
        max (((m.log2 : ℤ) + 1 + e + 1) / 2 - 53) (-1074) := rfl
    have hhalf : e.ediv 2 = e / 2 := rfl
    rw [htotal, hhalf]
    omega
  have hshift : m <<< (e - 2 * T).toNat = ⌊(m * 2 ^ e : ℚ) / 4 ^ T⌋₊ := by
    have hamount : e - 2 * T = ((e - 2 * T).toNat : ℤ) := by omega
    rw [four_zpow, mul_div_assoc, ← zpow_sub₀ two_ne_zero, hamount,
      zpow_natCast, Nat.shiftLeft_eq]
    exact_mod_cast (Nat.floor_natCast _).symm
  rw [sqrtCore, htarget, hshift]
  rfl

/-- What is left over from a root, as a fraction in the same half. -/
def leftOver (n : ℕ) : ℚ :=
  if n - n.sqrt * n.sqrt = 0 then 0 else if n - n.sqrt * n.sqrt ≤ n.sqrt then
    1 / 4 else 3 / 4

theorem leftOver_bounds (n : ℕ) : 0 ≤ leftOver n ∧ leftOver n < 1 := by
  rw [leftOver]
  split
  · norm_num
  · split <;> norm_num

theorem holds_leftOver (n : ℕ) :
    Holds (.ofMantissaAndAccuracy n.sqrt (rootAccuracy n))
      (n.sqrt + leftOver n) := by
  rw [leftOver, rootAccuracy]
  split
  · rw [add_zero]
    exact holds_exact _
  · split
    · simp only [Holds, ExtendedMantissa.ofMantissaAndAccuracy, FractionOf,
        add_sub_cancel_left]
      norm_num
    · simp only [Holds, ExtendedMantissa.ofMantissaAndAccuracy, FractionOf,
        add_sub_cancel_left]
      norm_num

theorem halfEven_sqrt_add_leftOver (n : ℕ) :
    halfEven (n.sqrt + leftOver n) = roundedSqrt n := by
  have hnear : |n.sqrt + leftOver n - ((roundedSqrt n : ℤ) : ℚ)| < 1 / 2 := by
    rw [leftOver, roundedSqrt]
    by_cases hexact : n - n.sqrt * n.sqrt = 0
    · norm_num [hexact]
    · by_cases hbelow : n - n.sqrt * n.sqrt ≤ n.sqrt
      · norm_num [hexact, hbelow]
      · norm_num [hexact, hbelow]
  exact halfEven_eq hnear.le fun h => absurd h hnear.ne

/-- A count with 105 or 106 binary digits has a root with 53. -/
theorem sqrt_add_leftOver_bounds {n : ℕ} (hlower : 2 ^ 104 ≤ n)
    (hupper : n < 2 ^ 106) :
    (2 : ℚ) ^ 52 ≤ n.sqrt + leftOver n ∧ n.sqrt + leftOver n < 2 ^ 53 := by
  obtain ⟨hnonneg, hlt⟩ := leftOver_bounds n
  have hdigits : 2 ^ 52 ≤ n.sqrt := by
    rw [Nat.le_sqrt, ← pow_add]
    exact hlower
  have hdigits' : n.sqrt + 1 ≤ 2 ^ 53 := by
    rw [Nat.succ_le_iff, Nat.sqrt_lt, ← pow_add]
    exact hupper
  have hcast : (2 : ℚ) ^ 52 ≤ n.sqrt := by exact_mod_cast hdigits
  have hcast' : (n.sqrt : ℚ) + 1 ≤ 2 ^ 53 := by exact_mod_cast hdigits'
  exact ⟨by linarith, by linarith⟩

/-- The root is rounded like a number in the same half of a step. -/
theorem Canonical.represents_sqrt (h : Canonical m e) :
    Represents
      (UnpackedFloat.sqrt Format.binary64 (.finite .positive m e h.pos))
      (nearestRoot (m * 2 ^ e)) := by
  set v : ℚ := m * 2 ^ e with hv
  set count := ⌊v / 4 ^ rootExponent v⌋₊ with hcount
  obtain ⟨hlower, hupper⟩ := two_pow_le_div_rootExponent (q := v) h.value_pos
  obtain ⟨hfull, hfew⟩ : (2 : ℚ) ^ 52 ≤ count.sqrt + leftOver count ∧
      count.sqrt + leftOver count < 2 ^ 53 := by
    apply sqrt_add_leftOver_bounds
    · exact Nat.le_floor (by exact_mod_cast hlower)
    · rw [hcount, Nat.floor_lt (by linarith)]
      exact_mod_cast hupper
  let p : ℚ := (count.sqrt + leftOver count) * 2 ^ rootExponent v
  have hstep : (0 : ℚ) < 2 ^ rootExponent v := by positivity
  have hpos : 0 < p := mul_pos (by linarith) hstep
  have hleast : -1074 ≤ rootExponent v := by
    rw [rootExponent_of_canonical h]
    have := h.least
    omega
  have hexponent : stepExponent p = rootExponent v := by
    apply stepExponent_eq_of_lt hpos.ne' hleast
    · rw [abs_of_pos hpos]
      exact mul_lt_mul_of_pos_right hfew hstep
    · rw [abs_of_pos hpos]
      exact .inr (mul_le_mul_of_nonneg_right hfull hstep.le)
  have hcounted : p / 2 ^ rootExponent v = count.sqrt + leftOver count :=
    mul_div_cancel_right₀ _ hstep.ne'
  have hnearest : nearest p = nearestRoot v := by
    rw [nearest, hexponent, hcounted, halfEven_sqrt_add_leftOver,
      nearestRoot, ← hcount, Int.cast_natCast]
  have hawaits : Awaits count.sqrt (rootExponent v) (rootAccuracy count) p := by
    refine ⟨hpos, hcounted ▸ holds_leftOver count, hexponent.ge, .inl ?_⟩
    have hroot : (0 : ℚ) < count.sqrt := by linarith [(leftOver_bounds count).2]
    exact_mod_cast hroot
  have hsqrt : UnpackedFloat.sqrt Format.binary64
      (.finite .positive m e h.pos) =
      roundWithAccuracy Format.binary64 .positive
        (sqrtCore Format.binary64 m e).1 (sqrtCore Format.binary64 m e).2.1
          (sqrtCore Format.binary64 m e).2.2 := rfl
  have hrepresents := hawaits.represents .positive
  rw [signFactor_positive_mul, hnearest] at hrepresents
  rw [hsqrt, sqrtCore_eq h]
  exact hrepresents

end Operation

section Value

variable {x x' : Float} {k : ℤ}

/-- The square root of a number that is not negative is the nearest root. -/
theorem Represents.sqrt {u : UnpackedFloat} {q : ℚ} (h : Represents u q)
    (hq : 0 ≤ q) :
    Represents (UnpackedFloat.sqrt Format.binary64 u) (nearestRoot q) := by
  cases h with
  | zero s =>
      rw [nearestRoot_zero]
      exact .zero s
  | @finite s m e h =>
      cases s with
      | positive =>
          rw [signFactor_positive_mul]
          exact h.represents_sqrt
      | negative =>
          rw [signFactor_negative_mul] at hq
          linarith [h.value_pos]

/-- The root of a number is far from the largest numbers. -/
theorem nearestRoot_lt (hx : x.isFinite = true) (hnonneg : 0 ≤ value x) :
    |nearestRoot (value x)| < 2 ^ 1024 := by
  rcases hnonneg.eq_or_lt with hzero | hpos
  · rw [← hzero, nearestRoot_zero, abs_zero]
    positivity
  · have hbound := (nearestRoot_mul_self_bounds hpos).1
    have hvalue := (abs_lt.mp (abs_value_lt hx)).2
    have htwo : (2 : ℚ) ^ 2 ≤ 2 ^ 1024 :=
      pow_le_pow_right₀ one_le_two (by norm_num)
    have hfour : (4 : ℚ) ≤ 2 ^ 1024 := le_trans (by norm_num) htwo
    refine abs_lt_of_sq_lt_sq ?_ (by positivity)
    calc nearestRoot (value x) ^ 2 ≤ 4 * value x := (sq _).trans_le hbound
      _ < 4 * 2 ^ 1024 := mul_lt_mul_of_pos_left hvalue four_pos
      _ ≤ 2 ^ 1024 * 2 ^ 1024 :=
        mul_le_mul_of_nonneg_right hfour (by positivity)
      _ = (2 ^ 1024) ^ 2 := (sq (2 ^ 1024)).symm

theorem isFinite_sqrt (hx : x.isFinite = true) (hnonneg : 0 ≤ value x) :
    x.sqrt.isFinite = true :=
  (((represents_value hx).sqrt hnonneg).stored (z := x.sqrt) rfl).1.mpr
    (nearestRoot_lt hx hnonneg)

theorem value_sqrt (hx : x.isFinite = true) (hnonneg : 0 ≤ value x) :
    value x.sqrt = nearestRoot (value x) :=
  (((represents_value hx).sqrt hnonneg).stored (z := x.sqrt) rfl).2
    (isFinite_sqrt hx hnonneg)

/-- No square root is negative, and that of a negative number is undefined. -/
theorem not_sqrt_lt_zero (x : Float) : ¬ x.sqrt < 0 := by
  have hmodel : x.sqrt.toModel =
      pack (UnpackedFloat.sqrt Format.binary64 x.toModel.unpack) := rfl
  have hroot : ∀ {q : ℚ}, Represents x.toModel.unpack q → 0 ≤ q →
      ¬ x.sqrt < 0 := by
    intro q h hq
    rw [(h.sqrt hq).lt_zero_iff hmodel]
    exact (nearestRoot_nonneg q).not_gt
  have hundefined : x.sqrt.toModel = pack .notANumber → ¬ x.sqrt < 0 := by
    intro hnan hlt
    have hdefined := (isNaN_of_le (le_of_lt hlt)).1
    rw [isNaN_of_toModel_eq hnan rfl] at hdefined
    cases hdefined
  cases hx : x.toModel.unpack with
  | notANumber =>
      rw [hx] at hmodel
      exact hundefined hmodel
  | infinity s =>
      rw [hx] at hmodel
      cases s with
      | positive =>
          rw [lt_zero_iff_hasSign, unpack_of_toModel_eq_infinity hmodel]
          exact nofun
      | negative => exact hundefined hmodel
  | zero s =>
      have hzero : Represents x.toModel.unpack 0 := by
        rw [hx]
        exact .zero s
      exact hroot hzero le_rfl
  | finite s m e hm =>
      cases s with
      | positive =>
          have hcanonical := (canonical_of_unpack_eq hx).1
          have hpositive := Represents.finite .positive hcanonical
          rw [← hx, signFactor_positive_mul] at hpositive
          exact hroot hpositive hcanonical.value_pos.le
      | negative =>
          rw [hx] at hmodel
          exact hundefined hmodel

theorem IsScaled.sqrt (hx : IsScaled (2 * k) x x') (hnonneg : 0 ≤ value x) :
    IsScaled k x.sqrt x'.sqrt := by
  have hnonneg' : 0 ≤ value x' := by
    rw [hx.value_eq]
    positivity
  refine ⟨isFinite_sqrt hx.1 hnonneg, isFinite_sqrt hx.2 hnonneg', ?_⟩
  rw [value_sqrt hx.1 hnonneg, value_sqrt hx.2 hnonneg',
    hx.value_eq, ← four_zpow, nearestRoot_mul_four_pow hnonneg]

end Value

end Binary64
end NumericalMethods
