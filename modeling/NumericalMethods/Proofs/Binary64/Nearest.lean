import Mathlib.Algebra.Order.Field.Power
import Mathlib.Algebra.Order.Floor.Ring
import Mathlib.Data.Int.Log
import Mathlib.Data.Rat.Floor
import Mathlib.Tactic.FieldSimp
import Mathlib.Tactic.Linarith
import Mathlib.Tactic.NormNum
import Mathlib.Tactic.Positivity
import Mathlib.Tactic.Ring

/-!
# The nearest binary number

Near a rational number the binary numbers of 53 digits are the multiples of a
power of two, which grows with the number and is never below the `-1074`th.  The
nearest of them, the even one on a tie, is `nearest`.  It respects the order,
leaves binary numbers alone, and is off by at most half a step.  No bound is set
on large numbers here.
-/

namespace NumericalMethods
namespace Binary64

/-! ## The nearest whole number -/

/-- The nearest whole number; a half goes to the even neighbour. -/
def halfEven (q : ℚ) : ℤ :=
  if Int.fract q < 1 / 2 then ⌊q⌋
  else if 1 / 2 < Int.fract q then ⌊q⌋ + 1
  else ⌊q⌋ + ⌊q⌋ % 2

theorem even_add_emod_two (n : ℤ) : Even (n + n % 2) := by
  rw [Int.even_iff]
  omega

theorem halfEven_spec (q : ℚ) :
    |q - halfEven q| ≤ 1 / 2 ∧
      (|q - halfEven q| = 1 / 2 → Even (halfEven q)) := by
  have hq : q = ⌊q⌋ + Int.fract q := (Int.floor_add_fract q).symm
  have hnonneg := Int.fract_nonneg q
  have hlt := Int.fract_lt_one q
  rw [halfEven]
  split
  · rename_i hbelow
    have hdistance : |q - ⌊q⌋| = Int.fract q := by
      rw [Int.self_sub_floor, abs_of_nonneg hnonneg]
    rw [hdistance]
    exact ⟨hbelow.le, fun h => absurd h hbelow.ne⟩
  · split
    · rename_i habove
      have hdistance : |q - ((⌊q⌋ + 1 : ℤ) : ℚ)| = 1 - Int.fract q := by
        push_cast
        rw [abs_of_nonpos (by linarith)]
        linarith
      rw [hdistance]
      exact ⟨by linarith, fun h => by linarith⟩
    · refine ⟨?_, fun _ => even_add_emod_two _⟩
      have hhalf : Int.fract q = 1 / 2 := by
        rename_i h₁ h₂
        exact le_antisymm (not_lt.mp h₂) (not_lt.mp h₁)
      rcases Int.emod_two_eq_zero_or_one ⌊q⌋ with h | h
      · rw [h, add_zero, Int.self_sub_floor, hhalf]
        norm_num
      · have hdistance : q - ((⌊q⌋ + 1 : ℤ) : ℚ) = -(1 / 2) := by
          push_cast
          linarith
        rw [h, hdistance]
        norm_num

/-- Only one whole number is as near as half a step, and even on a tie. -/
theorem halfEven_eq
    {q : ℚ} {n : ℤ} (hnear : |q - n| ≤ 1 / 2)
    (heven : |q - n| = 1 / 2 → Even n) :
    halfEven q = n := by
  obtain ⟨hnear', heven'⟩ := halfEven_spec q
  by_contra hne
  have hgap : 1 ≤ |halfEven q - n| := Int.one_le_abs (sub_ne_zero.mpr hne)
  have hgap' : (1 : ℚ) ≤ |(halfEven q : ℚ) - n| := by exact_mod_cast hgap
  have htriangle : |(halfEven q : ℚ) - n| ≤ |q - halfEven q| + |q - n| := by
    rw [abs_sub_comm q]
    exact abs_sub_le _ q _
  have hle : |(halfEven q : ℚ) - n| ≤ 1 := by linarith
  have hone : |halfEven q - n| = 1 := by
    apply le_antisymm _ hgap
    exact_mod_cast hle
  have hodd : ¬ Even (halfEven q - n) := by
    rcases abs_eq (zero_le_one' ℤ) |>.mp hone with h | h <;> rw [h] <;> decide
  exact hodd ((heven' (by linarith)).sub (heven (by linarith)))

@[simp]
theorem halfEven_intCast (n : ℤ) : halfEven n = n := by
  apply halfEven_eq
  · norm_num
  · norm_num

theorem halfEven_neg (q : ℚ) : halfEven (-q) = -halfEven q := by
  obtain ⟨hnear, heven⟩ := halfEven_spec q
  have hdistance : |-q - ((-halfEven q : ℤ) : ℚ)| = |q - halfEven q| := by
    rw [Int.cast_neg, ← abs_neg]
    congr 1
    ring
  apply halfEven_eq
  · rwa [hdistance]
  · intro h
    exact (heven (hdistance ▸ h)).neg

theorem halfEven_mono {p q : ℚ} (h : p ≤ q) : halfEven p ≤ halfEven q := by
  obtain ⟨hp, hpeven⟩ := halfEven_spec p
  obtain ⟨hq, hqeven⟩ := halfEven_spec q
  by_contra hlt
  rw [not_le] at hlt
  have hgap : (halfEven q : ℚ) + 1 ≤ halfEven p := by exact_mod_cast hlt
  obtain ⟨hp1, hp2⟩ := abs_le.mp hp
  obtain ⟨hq1, hq2⟩ := abs_le.mp hq
  have hsame : p = q := by linarith
  subst hsame
  exact hlt.false

/-! ## Steps -/

/-- The exponent of the step between the binary numbers near `q`. -/
def stepExponent (q : ℚ) : ℤ :=
  max (Int.log 2 |q| - 52) (-1074)

theorem least_le_stepExponent (q : ℚ) : -1074 ≤ stepExponent q :=
  le_max_right _ _

@[simp]
theorem stepExponent_neg (q : ℚ) : stepExponent (-q) = stepExponent q := by
  rw [stepExponent, abs_neg, stepExponent]

theorem stepExponent_mono {p q : ℚ} (hp : 0 < |p|) (h : |p| ≤ |q|) :
    stepExponent p ≤ stepExponent q :=
  max_le_max_right _ (Int.sub_le_sub_right (Int.log_mono_right hp h) _)

/-- A number has less than 54 digits in its steps. -/
theorem abs_lt_two_pow_mul_step (q : ℚ) :
    |q| < 2 ^ 53 * 2 ^ stepExponent q := by
  have hlog : |q| < 2 ^ (Int.log 2 |q| + 1) := by
    exact_mod_cast Int.lt_zpow_succ_log_self (b := 2) one_lt_two |q|
  have hle : Int.log 2 |q| + 1 ≤ 53 + stepExponent q := by
    have := le_max_left (Int.log 2 |q| - 52) (-1074)
    rw [← stepExponent] at this
    omega
  calc |q| < 2 ^ (Int.log 2 |q| + 1) := hlog
    _ ≤ (2 : ℚ) ^ (53 + stepExponent q) := zpow_le_zpow_right₀ one_le_two hle
    _ = 2 ^ 53 * 2 ^ stepExponent q := by
        rw [zpow_add₀ two_ne_zero]
        norm_num

/-- It has all 53 of them unless the steps are the least ones. -/
theorem two_pow_mul_step_le
    {q : ℚ} (hq : q ≠ 0) (hstep : stepExponent q ≠ -1074) :
    2 ^ 52 * 2 ^ stepExponent q ≤ |q| := by
  have hlog : (2 : ℚ) ^ Int.log 2 |q| ≤ |q| := by
    exact_mod_cast Int.zpow_log_le_self (b := 2) one_lt_two (abs_pos.mpr hq)
  have hexponent : stepExponent q = Int.log 2 |q| - 52 := by
    rw [stepExponent] at hstep ⊢
    omega
  calc (2 : ℚ) ^ 52 * 2 ^ stepExponent q = 2 ^ Int.log 2 |q| := by
        rw [hexponent, zpow_sub₀ two_ne_zero]
        norm_num
        ring
    _ ≤ |q| := hlog

theorem stepExponent_le_of_lt
    {q : ℚ} (hq : q ≠ 0) {e : ℤ} (he : -1074 ≤ e) (hlt : |q| < 2 ^ 53 * 2 ^ e) :
    stepExponent q ≤ e := by
  apply max_le _ he
  have hlog : Int.log 2 |q| < 53 + e := by
    rw [← Int.lt_zpow_iff_log_lt one_lt_two (abs_pos.mpr hq)]
    rw [Nat.cast_ofNat, zpow_add₀ two_ne_zero]
    exact_mod_cast hlt
  omega

theorem le_stepExponent_of_le
    {q : ℚ} {e : ℤ} (hle : 2 ^ 52 * 2 ^ e ≤ |q|) : e ≤ stepExponent q := by
  have hq : 0 < |q| := lt_of_lt_of_le (by positivity) hle
  have hlog : 52 + e ≤ Int.log 2 |q| := by
    rw [← Int.zpow_le_iff_le_log one_lt_two hq]
    rw [Nat.cast_ofNat, zpow_add₀ two_ne_zero]
    exact_mod_cast hle
  exact le_max_of_le_left (by omega)

/-- The step is known by the number of digits in steps. -/
theorem stepExponent_eq_of_lt
    {q : ℚ} (hq : q ≠ 0) {e : ℤ} (he : -1074 ≤ e) (hlt : |q| < 2 ^ 53 * 2 ^ e)
    (hfull : e = -1074 ∨ 2 ^ 52 * 2 ^ e ≤ |q|) : stepExponent q = e := by
  apply le_antisymm (stepExponent_le_of_lt hq he hlt)
  rcases hfull with rfl | hle
  · exact least_le_stepExponent q
  · exact le_stepExponent_of_le hle

/-! ## The nearest number -/

/-- The nearest binary number; a tie goes to an even number of steps. -/
def nearest (q : ℚ) : ℚ :=
  halfEven (q / 2 ^ stepExponent q) * 2 ^ stepExponent q

@[simp]
theorem nearest_zero : nearest 0 = 0 := by
  have h : halfEven 0 = 0 := by exact_mod_cast halfEven_intCast 0
  rw [nearest, zero_div, h, Int.cast_zero, zero_mul]

@[simp]
theorem nearest_neg (q : ℚ) : nearest (-q) = -nearest q := by
  rw [nearest, stepExponent_neg, neg_div, halfEven_neg, Int.cast_neg,
    neg_mul, nearest]

/-- The nearest number is off by at most half a step. -/
theorem abs_nearest_sub_le (q : ℚ) :
    |nearest q - q| ≤ 2 ^ stepExponent q / 2 := by
  have hstep : (0 : ℚ) < 2 ^ stepExponent q := by positivity
  have hfactor : nearest q - q =
      -(q / 2 ^ stepExponent q - halfEven (q / 2 ^ stepExponent q)) * 2 ^
        stepExponent q := by
    rw [nearest]
    field_simp
    ring
  rw [hfactor, abs_mul, abs_neg, abs_of_pos hstep]
  have hhalf := (halfEven_spec (q / 2 ^ stepExponent q)).1
  nlinarith

/-- A multiple of a step that is no finer than its own is its own nearest
number. -/
theorem nearest_eq_self
    {q : ℚ} {n : ℤ} {e : ℤ} (hq : q = n * 2 ^ e) (he : stepExponent q ≤ e) :
    nearest q = q := by
  obtain ⟨k, hk⟩ := Int.le.dest he
  have hsteps : q / 2 ^ stepExponent q = ((n * 2 ^ k : ℤ) : ℚ) := by
    rw [div_eq_iff (by positivity)]
    push_cast
    rw [mul_assoc, ← zpow_natCast, ← zpow_add₀ two_ne_zero,
      add_comm (k : ℤ), hk, ← hq]
  rw [nearest, hsteps, halfEven_intCast, ← hsteps,
    div_mul_cancel₀ _ (by positivity)]

/-- A number of at most 53 binary digits is its own nearest number. -/
theorem nearest_of_abs_lt
    {q : ℚ} {n : ℤ} {e : ℤ} (hq : q = n * 2 ^ e) (he : -1074 ≤ e)
    (hn : |n| < 2 ^ 53) :
    nearest q = q := by
  rcases eq_or_ne q 0 with rfl | hne
  · exact nearest_zero
  · apply nearest_eq_self hq
    apply stepExponent_le_of_lt hne he
    rw [hq, abs_mul, abs_of_pos (by positivity : (0 : ℚ) < 2 ^ e)]
    apply mul_lt_mul_of_pos_right _ (by positivity)
    exact_mod_cast hn

/-- The number of steps of a positive number that is nearest to it. -/
theorem halfEven_div_step_le {q : ℚ} (hq : 0 ≤ q) :
    0 ≤ halfEven (q / 2 ^ stepExponent q) ∧
    halfEven (q / 2 ^ stepExponent q) ≤ 2 ^ 53 := by
  constructor
  · have h := halfEven_mono (p := ((0 : ℤ) : ℚ)) (q := q / 2 ^ stepExponent q)
      (by rw [Int.cast_zero]; positivity)
    rwa [halfEven_intCast] at h
  · have hlt := abs_lt_two_pow_mul_step q
    rw [abs_of_nonneg hq] at hlt
    have hquotient : q / 2 ^ stepExponent q ≤ ((2 ^ 53 : ℤ) : ℚ) := by
      rw [div_le_iff₀ (by positivity)]
      exact_mod_cast hlt.le
    have h := halfEven_mono hquotient
    rwa [halfEven_intCast] at h

theorem le_halfEven_div_step
    {q : ℚ} (hq : 0 < q) (hstep : stepExponent q ≠ -1074) :
    2 ^ 52 ≤ halfEven (q / 2 ^ stepExponent q) := by
  have hle := two_pow_mul_step_le hq.ne' hstep
  rw [abs_of_pos hq] at hle
  have hquotient : ((2 ^ 52 : ℤ) : ℚ) ≤ q / 2 ^ stepExponent q := by
    rw [le_div_iff₀ (by positivity)]
    exact_mod_cast hle
  have h := halfEven_mono hquotient
  rwa [halfEven_intCast] at h

theorem nearest_nonneg {q : ℚ} (hq : 0 ≤ q) : 0 ≤ nearest q := by
  rw [nearest]
  have h := (halfEven_div_step_le hq).1
  positivity

theorem nearest_mono_of_pos {p q : ℚ} (hp : 0 < p) (h : p ≤ q) :
    nearest p ≤ nearest q := by
  have hq : 0 < q := hp.trans_le h
  have hle : stepExponent p ≤ stepExponent q :=
    stepExponent_mono (abs_pos.mpr hp.ne')
      (by rwa [abs_of_pos hp, abs_of_pos hq])
  rcases hle.eq_or_lt with heq | hlt
  · rw [nearest, nearest, heq]
    apply mul_le_mul_of_nonneg_right _ (by positivity)
    exact_mod_cast halfEven_mono (div_le_div_of_nonneg_right h (by positivity))
  · have hstep : stepExponent q ≠ -1074 := by
      have := least_le_stepExponent p
      omega
    have hupper : (halfEven (p / 2 ^ stepExponent p) : ℚ) ≤ 2 ^ 53 := by
      exact_mod_cast (halfEven_div_step_le hp.le).2
    have hlower : (2 : ℚ) ^ 52 ≤ halfEven (q / 2 ^ stepExponent q) := by
      exact_mod_cast le_halfEven_div_step hq hstep
    have hsteps : (2 : ℚ) ^ (stepExponent p + 1) ≤ 2 ^ stepExponent q :=
      zpow_le_zpow_right₀ one_le_two hlt
    rw [zpow_add_one₀ two_ne_zero] at hsteps
    calc nearest p ≤ 2 ^ 53 * 2 ^ stepExponent p :=
          mul_le_mul_of_nonneg_right hupper (by positivity)
      _ = 2 ^ 52 * (2 ^ stepExponent p * 2) := by ring
      _ ≤ 2 ^ 52 * 2 ^ stepExponent q :=
        mul_le_mul_of_nonneg_left hsteps (by positivity)
      _ ≤ nearest q := mul_le_mul_of_nonneg_right hlower (by positivity)

/-- The nearest number respects the order. -/
theorem nearest_mono {p q : ℚ} (h : p ≤ q) : nearest p ≤ nearest q := by
  rcases lt_or_ge 0 p with hp | hp
  · exact nearest_mono_of_pos hp h
  · rcases lt_or_ge q 0 with hq | hq
    · have hneg :=
        nearest_mono_of_pos (p := -q) (q := -p) (by linarith) (by linarith)
      rw [nearest_neg, nearest_neg] at hneg
      linarith
    · have hleft := nearest_nonneg (q := -p) (by linarith)
      rw [nearest_neg] at hleft
      linarith [nearest_nonneg hq]

/-- A multiple of the least step is rounded with a small relative error. -/
theorem abs_nearest_sub_le_mul
    {q : ℚ} {n : ℤ} (hq : q = n * 2 ^ (-1074 : ℤ)) :
    |nearest q - q| ≤ |q| / 2 ^ 53 := by
  rcases eq_or_ne q 0 with rfl | hne
  · simp
  · by_cases hstep : stepExponent q = -1074
    · rw [nearest_eq_self hq hstep.le, sub_self, abs_zero]
      positivity
    · calc |nearest q - q| ≤ 2 ^ stepExponent q / 2 := abs_nearest_sub_le q
        _ = 2 ^ 52 * 2 ^ stepExponent q / 2 ^ 53 := by ring
        _ ≤ |q| / 2 ^ 53 :=
            div_le_div_of_nonneg_right (two_pow_mul_step_le hne hstep)
              (by positivity)

end Binary64
end NumericalMethods
