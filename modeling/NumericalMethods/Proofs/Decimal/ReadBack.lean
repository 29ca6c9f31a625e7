import NumericalMethods.Proofs.Binary64.Scientific
import NumericalMethods.Proofs.Binary64.Sorting
import NumericalMethods.Proofs.Decimal.Digits
import NumericalMethods.Proofs.Decimal.Shortest

/-!
# Numbers read back from their decimals

The shortest decimal of a finite number is rounded to the number, so reading it
gives the number again, the sign of a zero included.
-/

namespace NumericalMethods
namespace Decimal

open Binary64

/-! ## The parts of a number -/

theorem exponentField_ne {x : Float} (hx : x.isFinite = true) :
    x.toBits.toNat / 2 ^ 52 % 2 ^ 11 ≠ 2047 := by
  let b : BitVec Float.Model.Format.binary64.numBits := x.toBits.toBitVec
  have hmodel :
      (Float.Model.UnpackedFloat.unpack Float.Model.Format.binary64
        b).isFinite =
      true := hx
  intro hfield
  have hones : Float.Model.UnpackedFloat.unpackExponent b = -1#11 := by
    apply BitVec.eq_of_toNat_eq
    rw [toNat_unpackExponent]
    exact hfield
  rcases unpack_of_ones hones with ⟨_, hinfinite⟩ | hundefined
  · rw [hinfinite] at hmodel
    cases hmodel
  · rw [hundefined] at hmodel
    cases hmodel

/-- The sign and the magnitude of a finite number. -/
theorem exists_parts {x : Float} (hx : x.isFinite = true) :
    ∃ negative : Bool,
      (Parts.ofFloat x = .zero negative ∧ x = if negative then -0 else 0) ∨
      ∃ (m : ℕ) (e : ℤ), Parts.ofFloat x = .finite negative ⟨m, e⟩ ∧
        Canonical m e ∧ e ≤ 971 ∧
        value x = if negative then -((m : ℚ) * 2 ^ e) else m * 2 ^ e := by
  have hfield := exponentField_ne hx
  have hvalue := value_eq_magnitude hx
  have hbits := x.toBits.toNat_lt
  have hparts : Parts.ofFloat x =
      if x.toBits.toNat / 2 ^ 52 % 2 ^ 11 = 2047 then
        if x.toBits.toNat % 2 ^ 52 = 0 then
          .infinite (decide (2 ^ 63 ≤ x.toBits.toNat))
        else .undefined
      else if x.toBits.toNat / 2 ^ 52 % 2 ^ 11 = 0 then
        if x.toBits.toNat % 2 ^ 52 = 0 then
          .zero (decide (2 ^ 63 ≤ x.toBits.toNat))
        else .finite (decide (2 ^ 63 ≤ x.toBits.toNat))
          ⟨x.toBits.toNat % 2 ^ 52, -1074⟩
      else
        .finite (decide (2 ^ 63 ≤ x.toBits.toNat))
          ⟨2 ^ 52 + x.toBits.toNat % 2 ^ 52,
          ((x.toBits.toNat / 2 ^ 52 % 2 ^ 11 : ℕ) : ℤ) - 1075⟩ := rfl
  rw [if_neg hfield] at hparts
  refine ⟨decide (2 ^ 63 ≤ x.toBits.toNat), ?_⟩
  have hmagnitude : value x = if decide (2 ^ 63 ≤ x.toBits.toNat) then
      -magnitude (x.toBits.toNat % 2 ^ 63)
        else magnitude (x.toBits.toNat % 2 ^ 63) := by
    rw [hvalue]
    by_cases hsign : 2 ^ 63 ≤ x.toBits.toNat
    · have hrest : x.toBits.toNat % 2 ^ 63 = x.toBits.toNat - 2 ^ 63 := by omega
      rw [if_pos hsign, if_pos (decide_eq_true hsign), hrest]
    · rw [if_neg hsign, decide_eq_false hsign, if_neg Bool.false_ne_true,
        Nat.mod_eq_of_lt (Nat.lt_of_not_le hsign)]
  by_cases hshort : x.toBits.toNat / 2 ^ 52 % 2 ^ 11 = 0
  · rw [if_pos hshort] at hparts
    by_cases hzero : x.toBits.toNat % 2 ^ 52 = 0
    · rw [if_pos hzero] at hparts
      refine .inl ⟨hparts, ?_⟩
      apply eq_of_toBits_eq
      apply UInt64.toNat_inj.mp
      by_cases hsign : 2 ^ 63 ≤ x.toBits.toNat
      · rw [if_pos (decide_eq_true hsign)]
        have hminus : (-0 : Float).toBits.toNat = 2 ^ 63 := rfl
        omega
      · rw [decide_eq_false hsign, if_neg Bool.false_ne_true]
        have hplus : (0 : Float).toBits.toNat = 0 := rfl
        omega
    · rw [if_neg hzero] at hparts
      refine .inr ⟨_, _, hparts,
        ⟨by omega, by omega, le_rfl, .inr rfl⟩, by decide, ?_⟩
      have hrest : x.toBits.toNat % 2 ^ 63 = x.toBits.toNat % 2 ^ 52 := by omega
      rw [hmagnitude, hrest, magnitude_of_lt (by omega)]
  · rw [if_neg hshort] at hparts
    refine .inr
      ⟨_, _, hparts,
        ⟨by omega, by omega, by omega, .inl (by omega)⟩, by omega, ?_⟩
    have hlow : x.toBits.toNat % 2 ^ 63 % 2 ^ 52 =
        x.toBits.toNat % 2 ^ 52 := by omega
    have hhigh : x.toBits.toNat % 2 ^ 63 / 2 ^ 52 =
        x.toBits.toNat / 2 ^ 52 % 2 ^ 11 := by omega
    rw [hmagnitude, magnitude_of_le (by omega), hlow, hhigh]

/-! ## Decimals near a number -/

theorem digits_bounds {n : ℕ} (hn : 0 < n) :
    10 ^ ((Nat.toDigits 10 n).length - 1) ≤ n ∧
    n < 10 ^ (Nat.toDigits 10 n).length := by
  have hlength :=
    List.length_pos_of_ne_nil (Nat.toDigits_ne_nil (n := n) (b := 10))
  constructor
  · rcases Nat.eq_zero_or_pos ((Nat.toDigits 10 n).length - 1) with hone | hmore
    · rw [hone]
      exact hn
    · by_contra hlt
      have hle :=
        (Nat.length_toDigits_le_iff (by decide) hmore).mpr
          (Nat.lt_of_not_le hlt)
      omega
  · exact (Nat.length_toDigits_le_iff (by decide) hlength).mp le_rfl

/-- Nothing far below a number is rounded to it. -/
theorem two_quarters_le {m : ℕ} {e : ℤ} {q : ℚ} (h : Canonical m e)
    (hq : IsRoundedTo m e q) :
    2 * 2 ^ (e - 2) ≤ q := by
  have hbelow : quartersBelow m e ≤ 2 := by
    rw [quartersBelow]
    split <;> decide
  have hbelow' : (quartersBelow m e : ℚ) ≤ 2 := by exact_mod_cast hbelow
  have hm : (1 : ℚ) ≤ m := by exact_mod_cast h.pos
  refine le_trans ?_ hq.low
  exact mul_le_mul_of_nonneg_right (by linarith) (by positivity)

theorem digits_pos_of_isRoundedTo {m : ℕ} {e : ℤ} {digits : ℕ} {place : ℤ}
    (h : Canonical m e) (hrounded : IsRoundedTo m e (digits * 10 ^ place)) :
    0 < digits := by
  have hle := two_quarters_le h hrounded
  have hquarter : (0 : ℚ) < 2 ^ (e - 2) := by positivity
  apply Nat.pos_of_ne_zero
  rintro rfl
  rw [Nat.cast_zero, zero_mul] at hle
  linarith

section Nearest

variable {m : ℕ} {e : ℤ} {digits : ℕ} {place : ℤ}
variable (h : Canonical m e) (hle : e ≤ 971)
variable (hrounded : IsRoundedTo m e (digits * 10 ^ place))
include h hle hrounded

/-- What is rounded to a number of the format has a leading digit that is
neither too far before the point nor too far behind it. -/
theorem abs_leading_le :
    -400 ≤ ((Nat.toDigits 10 digits).length : ℤ) + place ∧
      ((Nat.toDigits 10 digits).length : ℤ) + place ≤ 400 := by
  obtain ⟨hlow, hhigh⟩ := digits_bounds (digits_pos_of_isRoundedTo h hrounded)
  have hlength :=
    List.length_pos_of_ne_nil (Nat.toDigits_ne_nil (n := digits) (b := 10))
  obtain ⟨l, hl⟩ : ∃ l, (Nat.toDigits 10 digits).length = l := ⟨_, rfl⟩
  rw [hl] at hlow hhigh hlength ⊢
  have hplace : (0 : ℚ) < 10 ^ place := by positivity
  have hquarter : (0 : ℚ) < 2 ^ (e - 2) := by positivity
  have hleast := h.least
  constructor
  · by_contra hsmall
    have hdigits' : (digits : ℚ) ≤ 10 ^ l := by exact_mod_cast hhigh.le
    have hcontra : (2 : ℚ) * 2 ^ (-1076 : ℤ) ≤ 10 ^ (-401 : ℤ) :=
      calc (2 : ℚ) * 2 ^ (-1076 : ℤ) ≤ 2 * 2 ^ (e - 2) := by
            apply mul_le_mul_of_nonneg_left _ zero_le_two
            exact zpow_le_zpow_right₀ one_le_two (by omega)
        _ ≤ digits * 10 ^ place := two_quarters_le h hrounded
        _ ≤ 10 ^ l * 10 ^ place := mul_le_mul_of_nonneg_right hdigits' hplace.le
        _ = 10 ^ ((l : ℤ) + place) := zpow_natCast_mul_zpow l place
        _ ≤ 10 ^ (-401 : ℤ) := zpow_le_zpow_right₀ (by norm_num) (by omega)
    exact absurd hcontra (by decide +kernel)
  · by_contra hlarge
    have hm : (m : ℚ) + 1 ≤ 2 ^ 53 := by exact_mod_cast h.lt
    have hdigits' : (10 : ℚ) ^ (l - 1) ≤ digits := by exact_mod_cast hlow
    have hcontra : (10 : ℚ) ^ (400 : ℤ) ≤ 2 ^ 55 * 2 ^ (969 : ℤ) :=
      calc (10 : ℚ) ^ (400 : ℤ) ≤ 10 ^ (((l - 1 : ℕ) : ℤ) + place) :=
            zpow_le_zpow_right₀ (by norm_num) (by omega)
        _ = 10 ^ (l - 1) * 10 ^ place :=
          (zpow_natCast_mul_zpow (l - 1) place).symm
        _ ≤ digits * 10 ^ place := mul_le_mul_of_nonneg_right hdigits' hplace.le
        _ ≤ (4 * m + 2) * 2 ^ (e - 2) := hrounded.high
        _ ≤ 2 ^ 55 * 2 ^ (969 : ℤ) := by
            apply mul_le_mul (by linarith) _ hquarter.le (by positivity)
            exact zpow_le_zpow_right₀ one_le_two (by omega)
    exact absurd hcontra (by decide +kernel)

theorem nearest_magnitude (hplace : place.natAbs ≤ 2048) :
    (nearest false digits place).isFinite = true ∧
      value (nearest false digits place) = m * 2 ^ e := by
  have hdigits := digits_pos_of_isRoundedTo h hrounded
  obtain ⟨hlow, hhigh⟩ := abs_leading_le h hle hrounded
  have hrounds : Rounds (nearest false digits place) (digits * 10 ^ place) := by
    rw [Decimal.nearest, if_neg Bool.false_ne_true, if_neg (by omega),
      if_neg (by omega)]
    by_cases hsign : 0 ≤ place
    · obtain ⟨k, rfl⟩ := Int.eq_ofNat_of_zero_le hsign
      rw [if_pos hsign, Int.toNat_natCast, zpow_natCast]
      exact rounds_ofScientific_mul hdigits (by omega)
    · obtain ⟨k, rfl⟩ : ∃ k : ℕ, place = -k := ⟨(-place).toNat, by omega⟩
      rw [if_neg hsign, neg_neg, Int.toNat_natCast, zpow_neg, zpow_natCast,
        ← div_eq_mul_inv]
      exact rounds_ofScientific_div hdigits (by omega)
  have hfinite : (nearest false digits place).isFinite = true := by
    rw [hrounds.isFinite_iff, hrounded.nearest_eq h, abs_of_pos h.value_pos]
    exact h.le_iff_value_lt.mp hle
  exact ⟨hfinite, by rw [hrounds.value_eq hfinite, hrounded.nearest_eq h]⟩

end Nearest

/-! ## Reading back -/

theorem nearest_negative (digits : ℕ) (place : ℤ) :
    nearest true digits place = -nearest false digits place :=
  rfl

theorem nearest_of_digits_eq_zero (place : ℤ) : nearest false 0 place = 0 := by
  rw [Decimal.nearest, if_neg Bool.false_ne_true, if_pos (.inl rfl)]

/-- A decimal that is rounded to the magnitude of a number is read as the
number. -/
theorem nearest_eq_of_isRoundedTo {x : Float} (hx : x.isFinite = true)
    {negative : Bool} {m : ℕ} {e : ℤ} (h : Canonical m e) (hle : e ≤ 971)
    (hvalue : value x = if negative then -((m : ℚ) * 2 ^ e) else m * 2 ^ e)
    {digits : ℕ} {place : ℤ} (hrounded : IsRoundedTo m e (digits * 10 ^ place))
    (hplace : place.natAbs ≤ 2048) : nearest negative digits place = x := by
  obtain ⟨hfinite, hmagnitude⟩ := nearest_magnitude h hle hrounded hplace
  have hpos := h.value_pos
  cases negative with
  | false =>
      rw [if_neg Bool.false_ne_true] at hvalue
      exact eq_of_value_eq hfinite hx (hmagnitude.trans hvalue.symm)
        (by rw [hmagnitude]; exact hpos.ne')
  | true =>
      rw [if_pos rfl] at hvalue
      rw [nearest_negative]
      have hnegated : value (-nearest false digits place) = -(m * 2 ^ e) := by
        rw [value_neg hfinite, hmagnitude]
      exact eq_of_value_eq (isFinite_neg hfinite) hx
        (hnegated.trans hvalue.symm)
        (by rw [hnegated]; exact (neg_neg_of_pos hpos).ne)

/-- The text of a finite number in a document: a sign and a decimal with a point
that is read as the number. -/
theorem exists_positional_render {x : Float} (hx : x.isFinite = true) :
    ∃ (negative : Bool) (p : Positional),
      (Layout.document.render x).toList = Positional.signed negative p ∧
      nearest negative p.digits p.place = x := by
  obtain ⟨negative, ⟨hparts, hzero⟩ | ⟨m, e, hparts, h, hle, hvalue⟩⟩ :=
    exists_parts hx
  · refine ⟨negative, .zero, ?_, ?_⟩
    · rw [Layout.render, hparts]
      cases negative <;> rfl
    · have hdigits : Positional.zero.digits = 0 := rfl
      rw [hdigits, hzero]
      cases negative with
      | false => exact nearest_of_digits_eq_zero _
      | true => rw [nearest_negative, nearest_of_digits_eq_zero, if_pos rfl]
  · obtain ⟨hrounded, hplace⟩ := Dyadic.shortest_spec (d := ⟨m, e⟩) h hle .up
    obtain ⟨p, htext, hp, hfraction⟩ :=
      ((Dyadic.mk m e).shortest .up).exists_positional
        (digits_pos_of_isRoundedTo h hrounded)
    refine ⟨negative, p, ?_, ?_⟩
    · have hrender : Layout.document.render x =
          (if negative then "-" else "") ++
          ((Dyadic.mk m e).shortest .up).significant.positional true := by
        rw [Layout.render, hparts]
        rfl
      rw [hrender, String.toList_append, htext]
      cases negative <;> rfl
    · rw [← hp] at hrounded
      apply nearest_eq_of_isRoundedTo hx h hle hvalue hrounded
      rw [Positional.place]
      omega

end Decimal
end NumericalMethods
