import NumericalMethods.Decimal.Shortest
import NumericalMethods.Proofs.Binary64.RoundingInterval
import NumericalMethods.Proofs.Binary64.Scaling

/-!
# Shortest decimals

A search for a short decimal ends with one that is rounded to the number, since
after at most twenty grids the points are nearer to each other than half a step.
-/

namespace NumericalMethods
namespace Decimal

open Binary64

/-! ## Grids and intervals -/

theorem Dyadic.denominator_scaled_pos (d : Dyadic) (place : ℤ) :
    0 < (d.scaled place).denominator :=
  Nat.mul_pos (Nat.pow_pos (by decide)) (Nat.pow_pos (by decide))

theorem zpow_toNat_div_zpow_toNat {b : ℚ} (hb : b ≠ 0) (e : ℤ) :
    b ^ e.toNat / b ^ (-e).toNat = b ^ e := by
  rw [← zpow_natCast, ← zpow_natCast, ← zpow_sub₀ hb]
  congr 1
  omega

/-- The quotient is the number counted in units of a place. -/
theorem Dyadic.numerator_scaled_div (d : Dyadic) (place : ℤ) :
    ((d.scaled place).numerator : ℚ) / (d.scaled place).denominator =
      d.significand * 2 ^ d.exponent / 10 ^ place := by
  have htwo := zpow_toNat_div_zpow_toNat (b := 2) two_ne_zero d.exponent
  have hten := zpow_toNat_div_zpow_toNat (b := 10) (by norm_num) (-place)
  rw [neg_neg, zpow_neg] at hten
  have hnumerator : ((d.scaled place).numerator : ℚ) =
      d.significand * 2 ^ d.exponent.toNat * 10 ^ (-place).toNat := by
    exact_mod_cast rfl
  have hdenominator : ((d.scaled place).denominator : ℚ) =
      2 ^ (-d.exponent).toNat * 10 ^ place.toNat := by
    exact_mod_cast rfl
  rw [hnumerator, hdenominator, mul_div_mul_comm, hten, mul_div_assoc, htwo,
    div_eq_mul_inv]

variable {d : Dyadic} {place : ℤ}

theorem numerator_quarter :
    (((Dyadic.mk 1 (d.exponent - 2)).scaled place).numerator : ℚ) * 10 ^ place =
      2 ^ (d.exponent - 2) *
        ((Dyadic.mk 1 (d.exponent - 2)).scaled place).denominator := by
  have h := (Dyadic.mk 1 (d.exponent - 2)).numerator_scaled_div place
  have hpos : (0 : ℚ) <
      ((Dyadic.mk 1 (d.exponent - 2)).scaled place).denominator := by
    exact_mod_cast Dyadic.denominator_scaled_pos _ _
  rw [Nat.cast_one, one_mul, div_eq_div_iff hpos.ne' (by positivity)] at h
  exact h

/-- Comparing with multiples of quarters is comparing over the common
denominator. -/
theorem mul_numerator_le_iff (a n : ℕ) :
    a * ((Dyadic.mk 1 (d.exponent - 2)).scaled place).numerator ≤
        n * ((Dyadic.mk 1 (d.exponent - 2)).scaled place).denominator ↔
      (a : ℚ) * 2 ^ (d.exponent - 2) ≤ n * 10 ^ place := by
  have hpos : (0 : ℚ) <
      ((Dyadic.mk 1 (d.exponent - 2)).scaled place).denominator := by
    exact_mod_cast Dyadic.denominator_scaled_pos _ _
  have hten : (0 : ℚ) < 10 ^ place := by positivity
  rw [← Nat.cast_le (α := ℚ), Nat.cast_mul, Nat.cast_mul,
    ← mul_le_mul_iff_left₀ hten, mul_assoc, numerator_quarter, ← mul_assoc,
    mul_right_comm (n : ℚ), mul_le_mul_iff_left₀ hpos]

theorem mul_denominator_le_iff (a n : ℕ) :
    n * ((Dyadic.mk 1 (d.exponent - 2)).scaled place).denominator ≤
        a * ((Dyadic.mk 1 (d.exponent - 2)).scaled place).numerator ↔
      (n : ℚ) * 10 ^ place ≤ a * 2 ^ (d.exponent - 2) := by
  have hpos : (0 : ℚ) <
      ((Dyadic.mk 1 (d.exponent - 2)).scaled place).denominator := by
    exact_mod_cast Dyadic.denominator_scaled_pos _ _
  have hten : (0 : ℚ) < 10 ^ place := by positivity
  rw [← Nat.cast_le (α := ℚ), Nat.cast_mul, Nat.cast_mul,
    ← mul_le_mul_iff_left₀ hten, mul_assoc (a : ℚ), numerator_quarter,
    ← mul_assoc (a : ℚ), mul_right_comm (n : ℚ), mul_le_mul_iff_left₀ hpos]

/-- A grid point in the interval is rounded to the number. -/
theorem Interval.isRoundedTo_of_contains
    (hd : 0 < d.significand) {n : ℕ}
    (h : (Interval.ofDyadic d place).contains n = true) :
    IsRoundedTo d.significand d.exponent (n * 10 ^ place) := by
  have hbelow : quartersBelow d.significand d.exponent ≤ 2 := by
    rw [quartersBelow]
    split <;> decide
  have hlow :
      ((4 * d.significand - quartersBelow d.significand d.exponent : ℕ) : ℚ) =
      4 * d.significand - quartersBelow d.significand d.exponent := by
    rw [Nat.cast_sub (by omega), Nat.cast_mul, Nat.cast_ofNat]
  have hhigh : ((4 * d.significand + 2 : ℕ) : ℚ) = 4 * d.significand + 2 := by
    rw [Nat.cast_add, Nat.cast_mul, Nat.cast_ofNat, Nat.cast_ofNat]
  have hcontains : (Interval.ofDyadic d place).contains n =
      if decide (d.significand % 2 = 0) then
        decide ((4 * d.significand - quartersBelow d.significand d.exponent) *
          ((Dyadic.mk 1 (d.exponent - 2)).scaled place).numerator ≤
            n * ((Dyadic.mk 1 (d.exponent - 2)).scaled place).denominator) &&
        decide (n * ((Dyadic.mk 1 (d.exponent - 2)).scaled place).denominator ≤
          (4 * d.significand + 2) *
            ((Dyadic.mk 1 (d.exponent - 2)).scaled place).numerator)
      else
        decide ((4 * d.significand - quartersBelow d.significand d.exponent) *
          ((Dyadic.mk 1 (d.exponent - 2)).scaled place).numerator <
            n * ((Dyadic.mk 1 (d.exponent - 2)).scaled place).denominator) &&
        decide (n * ((Dyadic.mk 1 (d.exponent - 2)).scaled place).denominator <
          (4 * d.significand + 2) *
            ((Dyadic.mk 1 (d.exponent - 2)).scaled place).numerator) :=
    rfl
  rw [hcontains] at h
  by_cases heven : d.significand % 2 = 0
  · rw [if_pos (decide_eq_true heven), Bool.and_eq_true, decide_eq_true_iff,
      decide_eq_true_iff, mul_numerator_le_iff, mul_denominator_le_iff,
      hlow, hhigh] at h
    exact ⟨h.1, h.2, fun hodd => absurd (Nat.even_iff.mpr heven) hodd⟩
  · rw [decide_eq_false heven, if_neg Bool.false_ne_true, Bool.and_eq_true,
      decide_eq_true_iff, decide_eq_true_iff, ← not_le, ← not_le,
      mul_denominator_le_iff, mul_numerator_le_iff, not_le, not_le,
      hlow, hhigh] at h
    exact ⟨h.1.le, h.2.le, fun _ => h⟩

theorem Interval.contains_of_nearest?_eq_some
    {i : Interval} {tie : Tie} {n : ℕ} (h : i.nearest? tie = some n) :
    i.contains n = true := by
  simp only [Interval.nearest?] at h
  cases hlow : i.contains (i.value / i.unit) with
  | false =>
      cases hhigh : i.contains (i.value / i.unit + 1) with
      | false => simp [hlow, hhigh] at h
      | true =>
          simp only [hlow, hhigh, Option.some.injEq] at h
          rwa [← h]
  | true =>
      cases hhigh : i.contains (i.value / i.unit + 1) with
      | false =>
          simp only [hlow, hhigh, Option.some.injEq] at h
          rwa [← h]
      | true =>
          have heither : n = i.value / i.unit ∨ n = i.value / i.unit + 1 := by
            simp only [hlow, hhigh] at h
            split at h
            · exact .inl (Option.some.inj h).symm
            · split at h
              · exact .inr (Option.some.inj h).symm
              · cases tie with
                | up => exact .inr (Option.some.inj h).symm
                | even =>
                    have hn := Option.some.inj h
                    omega
          rcases heither with rfl | rfl
          · exact hlow
          · exact hhigh

/-- On a grid that is finer than half a step there is a point in the
interval. -/
theorem Interval.isSome_nearest?
    (hfine : (10 : ℚ) ^ place < 2 * 2 ^ (d.exponent - 2)) (tie : Tie) :
    ((Interval.ofDyadic d place).nearest? tie).isSome := by
  obtain ⟨i, hi⟩ : ∃ i, Interval.ofDyadic d place = i := ⟨_, rfl⟩
  have hunit : 0 < i.unit := by
    rw [← hi]
    exact Dyadic.denominator_scaled_pos _ _
  have hstep : i.value + i.unit < i.high := by
    have hunits : ((Dyadic.mk 1 (d.exponent - 2)).scaled place).denominator <
        2 * ((Dyadic.mk 1 (d.exponent - 2)).scaled place).numerator := by
      have hiff := @mul_numerator_le_iff d place 2 1
      rw [one_mul, Nat.cast_one, one_mul, Nat.cast_ofNat] at hiff
      exact not_le.mp fun hle => absurd (hiff.mp hle) (not_le.mpr hfine)
    have hhigh : i.high = i.value +
        2 * ((Dyadic.mk 1 (d.exponent - 2)).scaled place).numerator := by
      rw [← hi]
      exact Nat.add_mul _ _ _
    have hdenominator : i.unit =
        ((Dyadic.mk 1 (d.exponent - 2)).scaled place).denominator := by
      rw [← hi]
      rfl
    omega
  have hlow : i.low ≤ i.value := by
    rw [← hi]
    exact Nat.mul_le_mul_right _ (Nat.sub_le _ _)
  have hnext : i.value < (i.value / i.unit + 1) * i.unit := by
    rw [Nat.add_mul, one_mul, mul_comm]
    exact Nat.lt_mul_div_succ _ hunit |>.trans_eq (by ring)
  have hnext' : (i.value / i.unit + 1) * i.unit ≤ i.value + i.unit := by
    rw [Nat.add_mul, one_mul]
    exact Nat.add_le_add_right (Nat.div_mul_le_self _ _) _
  have hcontains : i.contains (i.value / i.unit + 1) = true := by
    rw [Interval.contains]
    split
    · rw [Bool.and_eq_true, decide_eq_true_iff, decide_eq_true_iff]
      omega
    · rw [Bool.and_eq_true, decide_eq_true_iff, decide_eq_true_iff]
      omega
  rw [hi]
  simp only [Interval.nearest?, hcontains]
  cases i.contains (i.value / i.unit) with
  | false => rfl
  | true =>
      dsimp only
      split
      · rfl
      · split
        · rfl
        · cases tie <;> rfl

/-! ## The search -/

/-- A search that meets a grid with a point in the interval ends with such a
point. -/
theorem searchShortest_spec {tie : Tie} {fuel : ℕ} {start : ℤ} {j : ℕ}
    (hj : j < fuel)
    (hfound : ((Interval.ofDyadic d (start - j)).nearest? tie).isSome) :
    ∃ i ≤ j, (searchShortest d tie fuel start).place = start - i ∧
      (Interval.ofDyadic d (start - i)).contains
        (searchShortest d tie fuel start).digits =
        true := by
  induction fuel generalizing start j with
  | zero => exact absurd hj (Nat.not_lt_zero j)
  | succ fuel ih =>
      rw [searchShortest]
      cases hfirst : (Interval.ofDyadic d start).nearest? tie with
      | some n =>
          refine ⟨0, Nat.zero_le j, ?_, ?_⟩
          · simp
          · simpa using Interval.contains_of_nearest?_eq_some hfirst
      | none =>
          cases j with
          | zero => simp [hfirst] at hfound
          | succ j =>
              have hshift : ∀ i : ℕ, start - ((i + 1 : ℕ) : ℤ) =
                  start - 1 - i := by
                intro i
                push_cast
                ring
              rw [hshift] at hfound
              obtain ⟨i, hi, hplace, hcontains⟩ := ih (by omega) hfound
              refine ⟨i + 1, by omega, ?_, ?_⟩
              · rw [hshift]
                exact hplace
              · rw [hshift]
                exact hcontains

/-! ## The estimate of the decimal exponent -/

/-- The estimate multiplies by 0.30103, a little more than the logarithm
of two. -/
theorem two_pow_lt_ten_pow :
    2 ^ 100000 ≤ 10 ^ 30103 ∧ 10 ^ 30103 ≤ 2 ^ 100001 := by
  decide +kernel

theorem two_pow_mul_le {l n : ℕ} (h : l ≤ n) :
    2 ^ l * (2 ^ l) ^ n ≤ (10 * 2 ^ l) ^ n := by
  rw [mul_pow]
  apply Nat.mul_le_mul_right
  calc 2 ^ l ≤ 10 ^ l := Nat.pow_le_pow_left (by decide) l
    _ ≤ 10 ^ n := Nat.pow_le_pow_right (by decide) h

theorem ten_zpow_estimate_le {L : ℤ} (hL : L ≤ 100000) :
    (10 : ℚ) ^ (L * 30103 / 100000) ≤ 10 * 2 ^ L := by
  have hestimate : L * 30103 / 100000 * 100000 ≤ L * 30103 :=
    Int.ediv_mul_le _ (by decide)
  rcases le_or_gt 0 L with hnonneg | hneg
  · obtain ⟨l, rfl⟩ := Int.eq_ofNat_of_zero_le hnonneg
    obtain ⟨k, hk⟩ :=
      Int.eq_ofNat_of_zero_le (a := (l : ℤ) * 30103 / 100000) (by positivity)
    rw [hk, zpow_natCast, zpow_natCast]
    rw [hk] at hestimate
    have hpower : (10 ^ k) ^ 100000 ≤ (10 * 2 ^ l) ^ 100000 :=
      calc (10 ^ k) ^ 100000 = 10 ^ (k * 100000) := (pow_mul 10 k 100000).symm
        _ ≤ 10 ^ (30103 * l) := Nat.pow_le_pow_right (by decide) (by omega)
        _ = (10 ^ 30103) ^ l := pow_mul 10 30103 l
        _ ≤ (2 ^ 100001) ^ l := Nat.pow_le_pow_left two_pow_lt_ten_pow.2 l
        _ = 2 ^ l * (2 ^ l) ^ 100000 := by
          rw [← pow_mul, ← pow_mul, ← pow_add]; congr 1; ring
        _ ≤ (10 * 2 ^ l) ^ 100000 := two_pow_mul_le (by omega)
    exact_mod_cast (Nat.pow_le_pow_iff_left (by decide)).mp hpower
  · obtain ⟨l, rfl⟩ : ∃ l : ℕ, L = -l := ⟨(-L).toNat, by omega⟩
    obtain ⟨k, hk⟩ : ∃ k : ℕ, -(l : ℤ) * 30103 / 100000 = -k :=
      ⟨(-(-(l : ℤ) * 30103 / 100000)).toNat, by omega⟩
    rw [hk, zpow_neg, zpow_neg, zpow_natCast, zpow_natCast]
    rw [hk] at hestimate
    have hpower : (2 ^ l) ^ 100000 ≤ (10 ^ k) ^ 100000 :=
      calc (2 ^ l) ^ 100000 = (2 ^ 100000) ^ l := by
            rw [← pow_mul, ← pow_mul, mul_comm]
        _ ≤ (10 ^ 30103) ^ l := Nat.pow_le_pow_left two_pow_lt_ten_pow.1 l
        _ = 10 ^ (30103 * l) := (pow_mul 10 30103 l).symm
        _ ≤ 10 ^ (k * 100000) := Nat.pow_le_pow_right (by decide) (by omega)
        _ = (10 ^ k) ^ 100000 := pow_mul 10 k 100000
    have hle : (2 : ℚ) ^ l ≤ 10 ^ k := by
      exact_mod_cast (Nat.pow_le_pow_iff_left (by decide)).mp hpower
    calc ((10 : ℚ) ^ k)⁻¹ ≤ (2 ^ l)⁻¹ := inv_anti₀ (by positivity) hle
      _ ≤ 10 * (2 ^ l)⁻¹ := le_mul_of_one_le_left (by positivity) (by norm_num)

/-- The finest grid of a search is finer than half a step. -/
theorem ten_zpow_lt_half_step (h : Canonical d.significand d.exponent)
    (hle : d.exponent ≤ 971) :
    (10 : ℚ) ^ (d.exponentEstimate - 18) < 2 * 2 ^ (d.exponent - 2) := by
  have hlog := log2_le_of_lt h.pos h.lt
  have hestimate :=
    ten_zpow_estimate_le (L := (d.significand.log2 : ℤ) + d.exponent) (by omega)
  have hdigits : (2 : ℚ) ^ (d.significand.log2 : ℤ) ≤ 2 ^ 52 := by
    rw [zpow_natCast]
    exact pow_le_pow_right₀ one_le_two hlog
  have hpos : (0 : ℚ) < 2 ^ (d.exponent - 2) := by positivity
  have hpower : (10 : ℚ) ^ (18 : ℤ) = 10 ^ 18 := zpow_natCast 10 18
  rw [← Dyadic.exponentEstimate, zpow_add₀ two_ne_zero,
    two_zpow_eq_four_mul d.exponent] at hestimate
  rw [zpow_sub₀ (by norm_num), hpower, div_lt_iff₀ (by positivity)]
  have hproduct := mul_le_mul_of_nonneg_right hdigits hpos.le
  calc (10 : ℚ) ^ d.exponentEstimate
      ≤ 10 * (2 ^ (d.significand.log2 : ℤ) * (4 * 2 ^ (d.exponent - 2))) :=
        hestimate
    _ ≤ 40 * (2 ^ 52 * 2 ^ (d.exponent - 2)) := by linarith
    _ < 2 * 2 ^ (d.exponent - 2) * 10 ^ 18 := by linarith

/-- The shortest decimal is rounded to the number, and its last place is not too
far behind the point. -/
theorem Dyadic.shortest_spec
    (h : Canonical d.significand d.exponent) (hle : d.exponent ≤ 971)
    (tie : Tie) :
    IsRoundedTo d.significand d.exponent
        ((d.shortest tie).digits * 10 ^ (d.shortest tie).place) ∧
      -400 ≤ (d.shortest tie).place := by
  have hlog := log2_le_of_lt h.pos h.lt
  have hleast := h.least
  have hfine := ten_zpow_lt_half_step h hle
  have hfound :
      ((Interval.ofDyadic d (d.exponentEstimate + 1 - (19 : ℕ))).nearest?
        tie).isSome := by
    have hplace : d.exponentEstimate + 1 - ((19 : ℕ) : ℤ) =
        d.exponentEstimate - 18 := by
      push_cast
      ring
    rw [hplace]
    exact Interval.isSome_nearest? hfine tie
  obtain ⟨i, hi, hplace, hcontains⟩ :=
    searchShortest_spec (by decide : 19 < 20) hfound
  have hestimate : -330 ≤ d.exponentEstimate := by
    rw [Dyadic.exponentEstimate]
    omega
  rw [← hplace] at hcontains
  refine ⟨Interval.isRoundedTo_of_contains h.pos hcontains, ?_⟩
  rw [Dyadic.shortest, hplace]
  omega

end Decimal
end NumericalMethods
