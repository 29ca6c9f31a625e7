import NumericalMethods.Proofs.Binary64.Arithmetic

/-!
# Bounds of rounding errors

The values of all finite numbers are multiples of the least one, and so are
their sums and differences and their products with whole numbers.  These are
rounded with a small relative error, however small they are.  Any other number,
a quotient for example, is at most doubled.
-/

namespace NumericalMethods
namespace Binary64

/-! ## Multiples of the least positive number -/

/-- A whole number of the least steps. -/
def IsMultiple (q : ℚ) : Prop :=
  ∃ n : ℤ, q = n * 2 ^ (-1074 : ℤ)

theorem isMultiple_mul_two_pow (n : ℤ) {e : ℤ} (he : -1074 ≤ e) :
    IsMultiple (n * 2 ^ e) := by
  obtain ⟨k, rfl⟩ := Int.le.dest he
  refine ⟨n * 2 ^ k, ?_⟩
  rw [zpow_add₀ two_ne_zero, zpow_natCast, Int.cast_mul, Int.cast_pow,
    Int.cast_ofNat, mul_assoc, mul_comm (2 ^ k : ℚ)]

theorem isMultiple_nearest (q : ℚ) : IsMultiple (nearest q) :=
  isMultiple_mul_two_pow _ (least_le_stepExponent q)

theorem isMultiple_value {x : Float} (hx : x.isFinite = true) :
    IsMultiple (value x) := by
  rw [← nearest_value hx]
  exact isMultiple_nearest _

theorem isMultiple_natCast (n : ℕ) : IsMultiple n := by
  simpa using isMultiple_mul_two_pow (n : ℤ) (e := 0) (by decide)

section Multiples

variable {p q : ℚ}

theorem IsMultiple.add (hp : IsMultiple p) (hq : IsMultiple q) :
    IsMultiple (p + q) := by
  obtain ⟨m, rfl⟩ := hp
  obtain ⟨n, rfl⟩ := hq
  exact ⟨m + n, by rw [Int.cast_add, add_mul]⟩

theorem IsMultiple.sub (hp : IsMultiple p) (hq : IsMultiple q) :
    IsMultiple (p - q) := by
  obtain ⟨m, rfl⟩ := hp
  obtain ⟨n, rfl⟩ := hq
  exact ⟨m - n, by rw [Int.cast_sub, sub_mul]⟩

theorem IsMultiple.mul_natCast (hp : IsMultiple p) (n : ℕ) :
    IsMultiple (p * n) := by
  obtain ⟨m, rfl⟩ := hp
  exact ⟨m * n, by rw [Int.cast_mul, Int.cast_natCast, mul_right_comm]⟩

theorem IsMultiple.abs_nearest_sub_le (hq : IsMultiple q) :
    |nearest q - q| ≤ |q| / 2 ^ 53 := by
  obtain ⟨n, hn⟩ := hq
  exact abs_nearest_sub_le_mul hn

/-- The error of a multiple that is known up to a bound. -/
theorem IsMultiple.abs_nearest_sub_le_of_abs_le
    (hq : IsMultiple q) {bound : ℚ} (hbound : |q| ≤ bound) :
    |nearest q - q| ≤ bound / 2 ^ 53 :=
  hq.abs_nearest_sub_le.trans
    (div_le_div_of_nonneg_right hbound (by positivity))

end Multiples

/-! ## Coarse bounds -/

theorem halfEven_le_two_mul {q : ℚ} (hq : 0 ≤ q) :
    (halfEven q : ℚ) ≤ 2 * q := by
  have hhalf := (abs_le.mp (halfEven_spec q).1).1
  rcases le_or_gt (1 / 2) q with hlarge | hsmall
  · linarith
  · have hlt : (halfEven q : ℚ) < 1 := by linarith
    have hzero : halfEven q ≤ 0 := by
      have : halfEven q < 1 := by exact_mod_cast hlt
      omega
    have hzero' : (halfEven q : ℚ) ≤ 0 := by exact_mod_cast hzero
    linarith

theorem nearest_le_two_mul {q : ℚ} (hq : 0 ≤ q) : nearest q ≤ 2 * q := by
  have hstep : (0 : ℚ) < 2 ^ stepExponent q := by positivity
  have h := halfEven_le_two_mul (q := q / 2 ^ stepExponent q) (by positivity)
  calc nearest q ≤ 2 * (q / 2 ^ stepExponent q) * 2 ^ stepExponent q :=
        mul_le_mul_of_nonneg_right h hstep.le
    _ = 2 * q := by rw [mul_assoc, div_mul_cancel₀ _ hstep.ne']

/-- Up to three quarters of the bound of the format nothing is too large. -/
theorem Rounds.isFinite_of_abs_le_three_mul
    {z : Float} {q : ℚ} (h : Rounds z q) (hq : |q| ≤ 3 * 2 ^ 1022) :
    z.isFinite = true := by
  have hself : nearest (3 * 2 ^ 1022) = 3 * 2 ^ 1022 := by
    have hpower : (3 * 2 ^ 1022 : ℚ) = (3 : ℤ) * 2 ^ (1022 : ℤ) := by
      rw [Int.cast_ofNat]
      rfl
    exact nearest_of_abs_lt hpower (by decide) (by decide)
  rw [h.isFinite_iff, abs_nearest]
  calc nearest |q| ≤ nearest (3 * 2 ^ 1022) := nearest_mono hq
    _ = 3 * 2 ^ 1022 := hself
    _ < 2 ^ 2 * 2 ^ 1022 := by
        apply mul_lt_mul_of_pos_right _ (by positivity)
        norm_num
    _ = 2 ^ 1024 := (pow_add 2 2 1022).symm

/-! ## Counts -/

theorem isFinite_ofNat {n : ℕ} (hn : n < 2 ^ 65) :
    (Float.ofNat n).isFinite = true := by
  apply (rounds_ofNat hn).isFinite_of_abs_le_three_mul
  rw [Nat.abs_cast]
  calc (n : ℚ) ≤ 2 ^ 65 := by exact_mod_cast hn.le
    _ ≤ 2 ^ 1022 := pow_le_pow_right₀ one_le_two (by decide)
    _ ≤ 3 * 2 ^ 1022 := le_mul_of_one_le_left (by positivity) (by norm_num)

theorem value_ofNat {n : ℕ} (hn : n < 2 ^ 65) :
    value (Float.ofNat n) = nearest n :=
  (rounds_ofNat hn).value_eq (isFinite_ofNat hn)

theorem nearest_natCast_of_lt {n : ℕ} (hn : n < 2 ^ 53) : nearest n = n := by
  apply nearest_of_abs_lt (n := n) (e := 0)
  · simp
  · decide
  · rw [Nat.abs_cast]
    exact_mod_cast hn

/-! ## Any number -/

/-- Half of the least positive number. -/
def halfLeast : ℚ :=
  2 ^ (-1075 : ℤ)

theorem halfLeast_pos : 0 < halfLeast := by
  rw [halfLeast]
  positivity

/-- Any number is rounded with a small relative error, apart from half a
least step. -/
theorem abs_nearest_sub_le_add (q : ℚ) :
    |nearest q - q| ≤ |q| / 2 ^ 53 + halfLeast := by
  have hhalf := halfLeast_pos
  have hrelative : 0 ≤ |q| / 2 ^ 53 := by positivity
  rcases eq_or_ne q 0 with rfl | hne
  · rw [nearest_zero, sub_self, abs_zero]
    linarith
  · by_cases hstep : stepExponent q = -1074
    · have hleast : (2 : ℚ) ^ stepExponent q / 2 = halfLeast := by
        rw [hstep, div_eq_mul_inv]
        exact (zpow_sub_one₀ two_ne_zero (-1074)).symm
      linarith [abs_nearest_sub_le q]
    · have hfull := div_le_div_of_nonneg_right (two_pow_mul_step_le hne hstep)
        (by positivity : (0 : ℚ) ≤ 2 ^ 53)
      have hstep' : (2 : ℚ) ^ 52 * 2 ^ stepExponent q / 2 ^ 53 =
          2 ^ stepExponent q / 2 := by
        ring
      linarith [abs_nearest_sub_le q]

end Binary64
end NumericalMethods
