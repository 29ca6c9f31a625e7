import NumericalMethods.Proofs.Binary64.Scaling
import NumericalMethods.Proofs.Binary64.Value

/-!
# Rounded operations

An operation on binary numbers carries its exact result as a mantissa and what
is left over: a rounding bit, and a bit that tells whether anything lies behind
it.  Shifting keeps track of the exact result, so that each operation ends at
the nearest number to it, or beyond all finite numbers.
-/

namespace NumericalMethods
namespace Binary64

open Float.Model Float.Model.UnpackedFloat

/-! ## Mantissas with what is left over -/

/-- What the rounding bit and the bit behind it say about a fraction. -/
def FractionOf : Bool → Bool → ℚ → Prop
  | false, false, f => f = 0
  | false, true, f => 0 < f ∧ f < 1 / 2
  | true, false, f => f = 1 / 2
  | true, true, f => 1 / 2 < f ∧ f < 1

/-- An extended mantissa holds a number: its whole part and where the
fraction lies. -/
def Holds (em : ExtendedMantissa) (q : ℚ) : Prop :=
  FractionOf em.roundBit em.stickyBit (q - em.mantissa)

theorem FractionOf.bounds {r s : Bool} {f : ℚ} (h : FractionOf r s f) :
    0 ≤ f ∧ f < 1 := by
  cases r with
  | false =>
      cases s with
      | false => rw [FractionOf] at h; norm_num [h]
      | true => exact ⟨h.1.le, by linarith [h.2]⟩
  | true =>
      cases s with
      | false => rw [FractionOf] at h; norm_num [h]
      | true => exact ⟨by linarith [h.1], h.2⟩

/-- Half of a fraction behind an even mantissa, and behind an odd one. -/
theorem FractionOf.half {r s : Bool} {f : ℚ} (h : FractionOf r s f) :
    FractionOf false (r || s) (f / 2) ∧
    FractionOf true (r || s) ((1 + f) / 2) := by
  cases r with
  | false =>
      cases s with
      | false =>
          rw [FractionOf] at h
          subst h
          simp only [Bool.or_false, FractionOf]
          norm_num
      | true =>
          obtain ⟨h₁, h₂⟩ := h
          simp only [Bool.or_true, FractionOf]
          refine ⟨⟨?_, ?_⟩, ?_, ?_⟩ <;> linarith
  | true =>
      have h' := h.bounds
      have hpos : 0 < f := by
        cases s with
        | false => rw [FractionOf] at h; norm_num [h]
        | true => linarith [h.1]
      simp only [Bool.true_or, FractionOf]
      refine ⟨⟨?_, ?_⟩, ?_, ?_⟩ <;> linarith

theorem Holds.shiftRightOne {em : ExtendedMantissa} {q : ℚ} (h : Holds em q) :
    Holds em.shiftRightOne (q / 2) := by
  obtain ⟨m, r, s⟩ := em
  obtain ⟨heven, hodd⟩ := FractionOf.half h
  have hsplit : ((m / 2 : ℕ) : ℚ) * 2 + (m % 2 : ℕ) = m := by
    exact_mod_cast Nat.div_add_mod' m 2
  rcases Nat.mod_two_eq_zero_or_one m with hm | hm
  · have hq : q / 2 - (m / 2 : ℕ) = (q - m) / 2 := by
      rw [hm, Nat.cast_zero, add_zero] at hsplit
      linarith
    simp only [Holds, ExtendedMantissa.shiftRightOne, hm, hq]
    exact heven
  · have hq : q / 2 - (m / 2 : ℕ) = (1 + (q - m)) / 2 := by
      rw [hm, Nat.cast_one] at hsplit
      linarith
    simp only [Holds, ExtendedMantissa.shiftRightOne, hm, hq]
    exact hodd

theorem Holds.shiftRight {em : ExtendedMantissa} {q : ℚ}
    (h : Holds em q) (k : ℕ) :
    Holds (em >>> k) (q / 2 ^ k) := by
  induction k with
  | zero => rwa [pow_zero, div_one]
  | succ k ih =>
      rw [shiftRight_succ, pow_succ, ← div_div]
      exact ih.shiftRightOne

/-- Rounding a mantissa rounds the number that it holds. -/
theorem Holds.roundedMantissa_eq {em : ExtendedMantissa} {q : ℚ}
    (h : Holds em q) :
    (em.roundedMantissa : ℤ) = halfEven q := by
  obtain ⟨m, r, s⟩ := em
  obtain ⟨hnonneg, hlt⟩ := FractionOf.bounds h
  simp only [Holds] at h hnonneg hlt
  have hfloor : ⌊q⌋ = m := by
    rw [Int.floor_eq_iff]
    constructor
    · rw [Int.cast_natCast]
      linarith
    · rw [Int.cast_natCast]
      linarith
  have hfract : Int.fract q = q - m := by
    rw [Int.fract, hfloor, Int.cast_natCast]
  rw [halfEven, hfract, hfloor]
  cases r with
  | false =>
      have hbelow : q - m < 1 / 2 := by
        cases s with
        | false => rw [FractionOf] at h; norm_num [h]
        | true => exact h.2
      rw [if_pos hbelow]
      cases s <;> rfl
  | true =>
      cases s with
      | false =>
          rw [FractionOf] at h
          rw [h, if_neg (lt_irrefl _), if_neg (lt_irrefl _)]
          rfl
      | true =>
          rw [if_neg h.1.not_gt, if_pos h.1]
          rfl

theorem holds_exact (m : ℕ) : Holds (.ofMantissaAndAccuracy m .exact) m :=
  sub_self _

/-- A quotient of whole numbers, with the place of its remainder. -/
theorem holds_fraction (a : ℕ) {b : ℕ} (hb : 0 < b) :
    Holds (.ofMantissaAndAccuracy (a / b) (accuracyOfFraction (a % b) b))
      ((a : ℚ) / b) := by
  have hb' : (0 : ℚ) < b := by exact_mod_cast hb
  have hsplit : (a : ℚ) / b - (a / b : ℕ) = (a % b : ℕ) / b := by
    have h : ((a / b : ℕ) : ℚ) * b + (a % b : ℕ) = a := by
      exact_mod_cast Nat.div_add_mod' a b
    field_simp
    linarith
  have hlt : a % b < b := Nat.mod_lt a hb
  rw [accuracyOfFraction]
  split
  · rename_i hzero
    rw [hzero] at hsplit
    simpa [Holds, ExtendedMantissa.ofMantissaAndAccuracy,
      FractionOf] using hsplit
  · rename_i hne
    have hpos : (0 : ℚ) < (a % b : ℕ) / b := by
      have : (0 : ℚ) < (a % b : ℕ) := by exact_mod_cast Nat.pos_of_ne_zero hne
      positivity
    rcases lt_trichotomy (2 * (a % b)) b with h | h | h
    · rw [compare_lt_iff_lt.mpr h]
      simp only [Holds, ExtendedMantissa.ofMantissaAndAccuracy,
        hsplit, FractionOf]
      refine ⟨hpos, ?_⟩
      rw [div_lt_div_iff₀ hb' two_pos, one_mul, mul_comm]
      exact_mod_cast h
    · rw [compare_eq_iff_eq.mpr h]
      simp only [Holds, ExtendedMantissa.ofMantissaAndAccuracy,
        hsplit, FractionOf]
      rw [div_eq_div_iff hb'.ne' two_ne_zero, one_mul, mul_comm]
      exact_mod_cast h
    · rw [compare_gt_iff_gt.mpr h]
      simp only [Holds, ExtendedMantissa.ofMantissaAndAccuracy,
        hsplit, FractionOf]
      constructor
      · rw [div_lt_div_iff₀ two_pos hb', one_mul, mul_comm]
        exact_mod_cast h
      · rw [div_lt_one hb']
        exact_mod_cast hlt

/-! ## Rounding to the format -/

/-- A mantissa with what is left over, from which a positive number is
rounded. -/
structure Awaits (m : ℕ) (e : ℤ) (accuracy : Accuracy) (q : ℚ) : Prop where
  pos : 0 < q
  holds : Holds (.ofMantissaAndAccuracy m accuracy) (q / 2 ^ e)
  /-- There are no fewer digits than those that are kept. -/
  fine : e ≤ stepExponent q
  leading : 0 < m ∨ e ≤ -1074

theorem mantissa_ofMantissaAndAccuracy (m : ℕ) (accuracy : Accuracy) :
    (ExtendedMantissa.ofMantissaAndAccuracy m accuracy).mantissa = m := by
  cases accuracy with
  | exact => rfl
  | inexact o => cases o <;> rfl

theorem targetExponent_eq (m : ℕ) (e : ℤ) :
    Format.binary64.targetExponent (totalExponent m e) =
      max ((m.log2 : ℤ) + 1 + e - 53) (-1074) :=
  rfl

/-- The exponent to which a mantissa is shifted is the one of the step. -/
theorem Awaits.targetExponent_eq
    {m : ℕ} {e : ℤ} {accuracy : Accuracy} {q : ℚ} (h : Awaits m e accuracy q) :
    Format.binary64.targetExponent (totalExponent m e) = stepExponent q := by
  have hstep : (0 : ℚ) < 2 ^ e := by positivity
  obtain ⟨hlower, hupper⟩ := FractionOf.bounds h.holds
  rw [mantissa_ofMantissaAndAccuracy] at hlower hupper
  have hle : m * 2 ^ e ≤ q := by
    rw [← le_div_iff₀ hstep]
    linarith
  have hlt : q < (m + 1) * 2 ^ e := by
    rw [← div_lt_iff₀ hstep]
    linarith
  rw [Binary64.targetExponent_eq, stepExponent, abs_of_pos h.pos]
  rcases Nat.eq_zero_or_pos m with rfl | hm
  · have he : e ≤ -1074 := h.leading.resolve_left (lt_irrefl 0)
    have hlog : Int.log 2 q < e := by
      rw [← Int.lt_zpow_iff_log_lt one_lt_two h.pos, Nat.cast_ofNat]
      simpa using hlt
    have hzero : (Nat.log2 0 : ℤ) = 0 := rfl
    omega
  · have hlog : Int.log 2 q = m.log2 + e := by
      apply le_antisymm
      · rw [← Int.lt_add_one_iff, ← Int.lt_zpow_iff_log_lt one_lt_two h.pos,
          Nat.cast_ofNat, add_right_comm, zpow_add₀ two_ne_zero]
        have hdigits : ((m : ℚ) + 1) ≤ 2 ^ ((m.log2 : ℤ) + 1) := by
          exact_mod_cast Nat.lt_log2_self (n := m)
        exact hlt.trans_le (mul_le_mul_of_nonneg_right hdigits hstep.le)
      · rw [← Int.zpow_le_iff_le_log one_lt_two h.pos, Nat.cast_ofNat,
          zpow_add₀ two_ne_zero]
        have hdigits : (2 : ℚ) ^ (m.log2 : ℤ) ≤ m := by
          exact_mod_cast Nat.log2_self_le hm.ne'
        exact (mul_le_mul_of_nonneg_right hdigits hstep.le).trans hle
    omega

/-- Shifting leads to the number counted in steps. -/
theorem Awaits.shiftToTargetExponent_eq
    {m : ℕ} {e : ℤ} {accuracy : Accuracy} {q : ℚ} (h : Awaits m e accuracy q) :
    ∃ em, shiftToTargetExponent Format.binary64 m e accuracy =
        (em, stepExponent q) ∧
      Holds em (q / 2 ^ stepExponent q) := by
  obtain ⟨k, hk⟩ := Int.le.dest h.fine
  have hamount :
      (Format.binary64.targetExponent (totalExponent m e) - e).toNat = k := by
    rw [h.targetExponent_eq]
    omega
  have hshift : shiftToTargetExponent Format.binary64 m e accuracy =
      (ExtendedMantissa.ofMantissaAndAccuracy m accuracy >>>
          (Format.binary64.targetExponent (totalExponent m e) - e).toNat,
        e + ((Format.binary64.targetExponent (totalExponent m e) -
          e).toNat : ℤ)) := rfl
  refine ⟨ExtendedMantissa.ofMantissaAndAccuracy m accuracy >>> k, ?_, ?_⟩
  · rw [hshift, hamount, hk]
  · have hsteps : q / 2 ^ stepExponent q = q / 2 ^ e / 2 ^ k := by
      rw [div_div, ← zpow_natCast, ← zpow_add₀ two_ne_zero, hk]
    rw [hsteps]
    exact h.holds.shiftRight k

/-- A mantissa that is not too long stays as it is. -/
theorem shiftToTargetExponent_of_lt {n : ℕ} {t : ℤ} (hn : n < 2 ^ 53)
    (ht : -1074 ≤ t) :
    shiftToTargetExponent Format.binary64 n t .exact =
      (⟨n, false, false⟩, t) := by
  have hlog : n.log2 ≤ 52 := by
    rcases Nat.eq_zero_or_pos n with rfl | hpos
    · exact Nat.zero_le _
    · exact log2_le_of_lt hpos hn
  have hamount :
      (Format.binary64.targetExponent (totalExponent n t) - t).toNat = 0 := by
    rw [targetExponent_eq]
    omega
  change (ExtendedMantissa.ofMantissaAndAccuracy n .exact >>>
      (Format.binary64.targetExponent (totalExponent n t) - t).toNat,
    t + ((Format.binary64.targetExponent (totalExponent n t) - t).toNat : ℤ)) =
      _
  rw [hamount]
  exact congrArg _ (Int.add_zero t)

theorem roundWithAccuracy_of_shift
    {s : Sign} {m n : ℕ} {e t c : ℤ} {accuracy : Accuracy}
    {em : ExtendedMantissa}
    (hfirst : shiftToTargetExponent Format.binary64 m e accuracy = (em, t))
    (hsecond : shiftToTargetExponent Format.binary64
      em.roundedMantissa t .exact =
      (⟨n, false, false⟩, c)) :
    roundWithAccuracy Format.binary64 s m e accuracy =
      if h : n = 0 then .zero s else .finite s n c (Nat.pos_of_ne_zero h) := by
  have hround : ∀ p q : ExtendedMantissa × ℤ,
      shiftToTargetExponent Format.binary64 m e accuracy = p →
      shiftToTargetExponent Format.binary64 p.1.roundedMantissa p.2 .exact = q →
      roundWithAccuracy Format.binary64 s m e accuracy =
        if h : q.1.mantissa = 0 then .zero s
        else .finite s q.1.mantissa q.2 (Nat.pos_of_ne_zero h) := by
    rintro _ _ rfl rfl
    rfl
  exact hround (em, t) (⟨n, false, false⟩, c) hfirst hsecond

/-- A positive number is rounded to the nearest one.  Rounding up may lead to
the next power of two, which has a larger step. -/
theorem Awaits.represents
    {m : ℕ} {e : ℤ} {accuracy : Accuracy} {q : ℚ}
    (h : Awaits m e accuracy q) (s : Sign) :
    Represents (roundWithAccuracy Format.binary64 s m e accuracy)
      (signFactor s * nearest q) := by
  obtain ⟨em, hfirst, hholds⟩ := h.shiftToTargetExponent_eq
  have hleast := least_le_stepExponent q
  have hrounded := hholds.roundedMantissa_eq
  obtain ⟨-, hle⟩ := halfEven_div_step_le h.pos.le
  have hfull := le_halfEven_div_step h.pos
  have hnearest : nearest q = (em.roundedMantissa : ℚ) * 2 ^
      stepExponent q := by
    rw [nearest, ← hrounded, Int.cast_natCast]
  rw [← hrounded] at hle hfull
  rcases Nat.lt_or_ge em.roundedMantissa (2 ^ 53) with hlt | hge
  · rw [roundWithAccuracy_of_shift hfirst
      (shiftToTargetExponent_of_lt hlt hleast), hnearest]
    by_cases hzero : em.roundedMantissa = 0
    · rw [dif_pos hzero, hzero, Nat.cast_zero, zero_mul, mul_zero]
      exact .zero s
    · rw [dif_neg hzero]
      refine .finite s ⟨Nat.pos_of_ne_zero hzero, hlt, hleast, ?_⟩
      by_cases hstep : stepExponent q = -1074
      · exact .inr hstep
      · exact .inl (by exact_mod_cast hfull hstep)
  · have hmax : em.roundedMantissa = 2 ^ 53 := by
      apply le_antisymm _ hge
      exact_mod_cast hle
    have hlog : (2 ^ 53).log2 = 52 + 1 := Nat.log2_two_pow
    have hsecond : shiftToTargetExponent Format.binary64 em.roundedMantissa
        (stepExponent q)
        .exact = (⟨2 ^ 52, false, false⟩, stepExponent q + 1) := by
      rw [hmax, Binary64.shiftToTargetExponent_eq hlog (by omega)]
      exact congrArg (·, stepExponent q + ((1 : ℕ) : ℤ))
        (shiftRight_mul_two_pow (2 ^ 52) 1)
    have hcanonical : Canonical (2 ^ 52) (stepExponent q + 1) :=
      ⟨by decide, by decide, by omega, .inl le_rfl⟩
    have hcarried : nearest q =
        ((2 ^ 52 : ℕ) : ℚ) * 2 ^ (stepExponent q + 1) := by
      rw [hnearest, hmax, zpow_add_one₀ two_ne_zero]
      push_cast
      ring
    rw [roundWithAccuracy_of_shift hfirst hsecond,
      dif_neg (by decide), hcarried]
    exact .finite s hcanonical

theorem Awaits.exact
    {m : ℕ} {e : ℤ} (hm : 0 < m) (he : e ≤ stepExponent (m * 2 ^ e)) :
    Awaits m e .exact (m * 2 ^ e) := by
  have hm' : (0 : ℚ) < m := by exact_mod_cast hm
  refine ⟨by positivity, ?_, he, .inl hm⟩
  rw [mul_div_cancel_right₀ _ (by positivity)]
  exact holds_exact m

/-- Writing zeros behind a mantissa leaves the number. -/
theorem mul_two_pow_shiftLeft (m : ℕ) (e : ℤ) (k : ℕ) :
    ((m <<< k : ℕ) : ℚ) * 2 ^ (e - k) = m * 2 ^ e := by
  rw [Nat.shiftLeft_eq, Nat.cast_mul, Nat.cast_pow, Nat.cast_ofNat, mul_assoc,
    ← zpow_natCast, ← zpow_add₀ two_ne_zero, add_sub_cancel]

theorem represents_round {m : ℕ} (hm : 0 < m) (e : ℤ) (s : Sign) :
    Represents (round Format.binary64 s m e)
      (signFactor s * nearest (m * 2 ^ e)) := by
  let t := Format.binary64.targetExponent (totalExponent m e)
  let k := (e - t).toNat
  have hvalue := mul_two_pow_shiftLeft m e k
  have hpos : 0 < m <<< k := by
    rw [Nat.shiftLeft_eq]
    positivity
  have hm' : (0 : ℚ) < m := by exact_mod_cast hm
  have hfine : e - k ≤ stepExponent (m * 2 ^ e) := by
    have htarget : t = max ((m.log2 : ℤ) + 1 + e - 53) (-1074) := rfl
    have hstep : t ≤ stepExponent (m * 2 ^ e) := by
      rw [htarget, stepExponent]
      apply max_le_max_right
      have hlog : m.log2 + e ≤ Int.log 2 |(m : ℚ) * 2 ^ e| := by
        rw [abs_of_pos (by positivity),
          ← Int.zpow_le_iff_le_log one_lt_two (by positivity), Nat.cast_ofNat,
          zpow_add₀ two_ne_zero]
        apply mul_le_mul_of_nonneg_right _ (by positivity)
        exact_mod_cast Nat.log2_self_le hm.ne'
      omega
    omega
  have hawaits : Awaits (m <<< k) (e - k) .exact (m * 2 ^ e) := by
    rw [← hvalue] at hfine ⊢
    exact .exact hpos hfine
  exact hawaits.represents s

theorem represents_normalize (n e : ℤ) (s : Sign) :
    Represents (normalize Format.binary64 n e s) (nearest (n * 2 ^ e)) := by
  rcases lt_trichotomy n 0 with hlt | rfl | hgt
  · have hnormalize : normalize Format.binary64 n e s =
        round Format.binary64 .negative (-n).toNat e := by
      simp only [UnpackedFloat.normalize, compare_lt_iff_lt.mpr hlt]
    have hcast : (((-n).toNat : ℕ) : ℚ) = -n := by
      exact_mod_cast Int.toNat_of_nonneg (by omega)
    have h := represents_round (m := (-n).toNat) (by omega) e .negative
    rw [hcast, neg_mul, nearest_neg, signFactor_negative_mul, neg_neg] at h
    rwa [hnormalize]
  · have hnormalize : normalize Format.binary64 0 e s = .zero s := rfl
    rw [hnormalize, Int.cast_zero, zero_mul, nearest_zero]
    exact .zero s
  · have hnormalize : normalize Format.binary64 n e s =
        round Format.binary64 .positive n.toNat e := by
      simp only [UnpackedFloat.normalize, compare_gt_iff_gt.mpr hgt]
    have hcast : ((n.toNat : ℕ) : ℚ) = n := by
      exact_mod_cast Int.toNat_of_nonneg (by omega)
    have h := represents_round (m := n.toNat) (by omega) e .positive
    rw [hcast, signFactor_positive_mul] at h
    rwa [hnormalize]

/-- A number that is represented is its own nearest number. -/
theorem Represents.nearest_eq {u : UnpackedFloat} {q : ℚ} (h : Represents u q) :
    nearest q = q := by
  cases h with
  | zero s => exact nearest_zero
  | @finite s m e h =>
      have hlt : |(m : ℤ)| < 2 ^ 53 := by
        rw [Nat.abs_cast]
        exact_mod_cast h.lt
      have hself : nearest ((m : ℚ) * 2 ^ e) = m * 2 ^ e :=
        nearest_of_abs_lt (n := m) (by rw [Int.cast_natCast]) h.least hlt
      cases s with
      | positive => rwa [signFactor_positive_mul]
      | negative => rw [signFactor_negative_mul, nearest_neg, hself]

/-! ## Sums and differences -/

section Operations

variable {u v : UnpackedFloat} {p q : ℚ}

/-- Two mantissas brought to the smaller exponent. -/
theorem cast_apply_add_cast_apply (s t : Sign) (m m' : ℕ) (e e' : ℤ) :
    ((s.apply (m <<< (e - min e e').toNat : ℕ) : ℤ) : ℚ) * 2 ^ min e e' =
        signFactor s * (m * 2 ^ e) ∧
      ((t.apply (m' <<< (e' - min e e').toNat : ℕ) : ℤ) : ℚ) * 2 ^ min e e' =
        signFactor t * (m' * 2 ^ e') := by
  have hleft := mul_two_pow_shiftLeft m e (e - min e e').toNat
  have hright := mul_two_pow_shiftLeft m' e' (e' - min e e').toNat
  have he : e - ((e - min e e').toNat : ℤ) = min e e' := by omega
  have he' : e' - ((e' - min e e').toNat : ℤ) = min e e' := by omega
  rw [he] at hleft
  rw [he'] at hright
  constructor
  · rw [cast_apply, Int.cast_natCast, mul_assoc, hleft]
  · rw [cast_apply, Int.cast_natCast, mul_assoc, hright]

theorem Represents.add (hu : Represents u p) (hv : Represents v q) :
    Represents (UnpackedFloat.add Format.binary64 u v) (nearest (p + q)) := by
  cases hu with
  | zero s =>
      rw [zero_add, hv.nearest_eq]
      cases hv with
      | zero t => cases s <;> cases t <;> exact .zero _
      | finite t h => exact .finite t h
  | @finite s m e h =>
      cases hv with
      | zero t =>
          rw [add_zero, (Represents.finite s h).nearest_eq]
          exact .finite s h
      | @finite t m' e' h' =>
          obtain ⟨hleft, hright⟩ := cast_apply_add_cast_apply s t m m' e e'
          rw [← hleft, ← hright, ← add_mul, ← Int.cast_add]
          exact represents_normalize _ _ _

theorem Represents.sub (hu : Represents u p) (hv : Represents v q) :
    Represents (UnpackedFloat.sub Format.binary64 u v) (nearest (p - q)) := by
  cases hu with
  | zero s =>
      cases hv with
      | zero t =>
          rw [sub_zero, nearest_zero]
          cases s <;> cases t <;> exact .zero _
      | finite t h =>
          rw [zero_sub, nearest_neg,
            (Represents.finite t h).nearest_eq, ← neg_mul, ← signFactor_neg]
          exact .finite (-t) h
  | @finite s m e h =>
      cases hv with
      | zero t =>
          rw [sub_zero, (Represents.finite s h).nearest_eq]
          exact .finite s h
      | @finite t m' e' h' =>
          obtain ⟨hleft, hright⟩ := cast_apply_add_cast_apply s t m m' e e'
          rw [← hleft, ← hright, ← sub_mul, ← Int.cast_sub]
          exact represents_normalize _ _ _

/-! ## Products and quotients -/

theorem signFactor_mul_nearest (s : Sign) (q : ℚ) :
    signFactor s * nearest q = nearest (signFactor s * q) := by
  cases s with
  | positive => rw [signFactor_positive_mul, signFactor_positive_mul]
  | negative =>
      rw [signFactor_negative_mul, signFactor_negative_mul, nearest_neg]

theorem Represents.mul (hu : Represents u p) (hv : Represents v q) :
    Represents (UnpackedFloat.mul Format.binary64 u v) (nearest (p * q)) := by
  cases hu with
  | zero s =>
      rw [zero_mul, nearest_zero]
      cases hv with
      | zero t => exact .zero _
      | finite t h => exact .zero _
  | @finite s m e h =>
      cases hv with
      | zero t =>
          rw [mul_zero, nearest_zero]
          exact .zero _
      | @finite t m' e' h' =>
          have hproduct : ((m * m' : ℕ) : ℚ) * 2 ^ (e + e') =
              m * 2 ^ e * (m' * 2 ^ e') := by
            rw [zpow_add₀ two_ne_zero]
            push_cast
            ring
          have hfine : e + e' ≤
              stepExponent (((m * m' : ℕ) : ℚ) * 2 ^ (e + e')) := by
            by_cases hfull : 2 ^ 52 ≤ m * m'
            · apply le_stepExponent_of_le
              rw [abs_of_nonneg (by positivity)]
              apply mul_le_mul_of_nonneg_right _ (by positivity)
              exact_mod_cast hfull
            · have hm := h.pos
              have hm' := h'.pos
              have he : e = -1074 :=
                h.full.resolve_left fun hlarge => hfull (by nlinarith)
              have he' : e' = -1074 :=
                h'.full.resolve_left fun hlarge => hfull (by nlinarith)
              have := least_le_stepExponent (((m * m' : ℕ) : ℚ) * 2 ^ (e + e'))
              omega
          have hawaits := Awaits.exact (Nat.mul_pos h.pos h'.pos) hfine
          have hrepresents := hawaits.represents (s * t)
          rw [hproduct, signFactor_mul_nearest, signFactor_mul,
            mul_mul_mul_comm] at hrepresents
          exact hrepresents

/-- The quotient of two mantissas, to enough digits. -/
theorem awaits_divCore
    {m m' : ℕ} (hm : 0 < m) (hm' : 0 < m') (e e' : ℤ) :
    Awaits (divCore Format.binary64 m e m' e').1
      (divCore Format.binary64 m e m' e').2.1
      (divCore Format.binary64 m e m' e').2.2 (m * 2 ^ e / (m' * 2 ^ e')) := by
  obtain ⟨t, ht⟩ : ∃ t, min (e - e') (Format.binary64.targetExponent
      (totalExponent m e - totalExponent m' e')) = t := ⟨_, rfl⟩
  rw [divCore_eq ht]
  have htarget : Format.binary64.targetExponent
      (totalExponent m e - totalExponent m' e') =
      max ((m.log2 : ℤ) + 1 + e - ((m'.log2 : ℤ) + 1 + e') - 53) (-1074) := rfl
  rw [htarget] at ht
  let k := (e - e' - t).toNat
  have hk : e - e' - (k : ℤ) = t := by omega
  have hmq : (0 : ℚ) < m := by exact_mod_cast hm
  have hmq' : (0 : ℚ) < m' := by exact_mod_cast hm'
  have hpos : (0 : ℚ) < m * 2 ^ e / (m' * 2 ^ e') := by positivity
  have hvalue : (m : ℚ) * 2 ^ e / (m' * 2 ^ e') / 2 ^ t =
      ((m <<< k : ℕ) : ℚ) / m' := by
    have hshift := mul_two_pow_shiftLeft m (e - e') k
    rw [hk, zpow_sub₀ two_ne_zero] at hshift
    rw [div_div, div_eq_div_iff (by positivity) hmq'.ne']
    field_simp at hshift ⊢
    linarith
  have hlog : (m.log2 : ℤ) + e - (m'.log2 + 1 + e') ≤
      Int.log 2 ((m : ℚ) * 2 ^ e / (m' * 2 ^ e')) := by
    rw [← Int.zpow_le_iff_le_log one_lt_two hpos, Nat.cast_ofNat,
      zpow_sub₀ two_ne_zero, zpow_add₀ two_ne_zero, zpow_add₀ two_ne_zero]
    have hlower : (2 : ℚ) ^ (m.log2 : ℤ) ≤ m := by
      exact_mod_cast Nat.log2_self_le hm.ne'
    have hupper : (m' : ℚ) ≤ 2 ^ ((m'.log2 : ℤ) + 1) := by
      exact_mod_cast (Nat.lt_log2_self (n := m')).le
    apply div_le_div₀ (by positivity)
    · exact mul_le_mul_of_nonneg_right hlower (by positivity)
    · positivity
    · exact mul_le_mul_of_nonneg_right hupper (by positivity)
  have hfine : t ≤ stepExponent ((m : ℚ) * 2 ^ e / (m' * 2 ^ e')) := by
    rw [stepExponent, abs_of_pos hpos]
    omega
  refine ⟨hpos, ?_, hfine, ?_⟩
  · rw [hvalue]
    exact holds_fraction _ hm'
  · by_cases ht' : t ≤ -1074
    · exact .inr ht'
    · left
      have hle : (2 : ℚ) ^ t ≤ (m : ℚ) * 2 ^ e / (m' * 2 ^ e') := by
        have h52 : (2 : ℚ) ^ t ≤ 2 ^ 52 * 2 ^
            stepExponent ((m : ℚ) * 2 ^ e / (m' * 2 ^ e')) := by
          have := zpow_le_zpow_right₀ (one_le_two (α := ℚ)) hfine
          have hpos52 : (0 : ℚ) < 2 ^
              stepExponent ((m : ℚ) * 2 ^ e / (m' * 2 ^ e')) := by
            positivity
          nlinarith
        apply h52.trans
        have h := two_pow_mul_step_le hpos.ne' (by omega)
        rwa [abs_of_pos hpos] at h
      have hone : (1 : ℚ) ≤ ((m <<< k : ℕ) : ℚ) / m' := by
        rw [← hvalue, le_div_iff₀ (by positivity), one_mul]
        exact hle
      rw [le_div_iff₀ hmq', one_mul] at hone
      exact Nat.div_pos (by exact_mod_cast hone) hm'

theorem Represents.div (hu : Represents u p) (hv : Represents v q)
    (hq : q ≠ 0) :
    Represents (UnpackedFloat.div Format.binary64 u v) (nearest (p / q)) := by
  cases hv with
  | zero t => exact absurd rfl hq
  | @finite t m' e' h' =>
      cases hu with
      | zero s =>
          rw [zero_div, nearest_zero]
          exact .zero _
      | @finite s m e h =>
          have hrepresents :=
            (awaits_divCore h.pos h'.pos e e').represents (s / t)
          have hquotient : signFactor (s / t) *
              ((m : ℚ) * 2 ^ e / (m' * 2 ^ e')) =
              signFactor s * (m * 2 ^ e) / (signFactor t * (m' * 2 ^ e')) := by
            have ht := signFactor_mul_self t
            have hne : signFactor t ≠ 0 :=
              left_ne_zero_of_mul (ht ▸ one_ne_zero)
            have hsign : signFactor s * signFactor t =
                signFactor s / signFactor t := by
              rw [eq_div_iff hne, mul_assoc, ht, mul_one]
            rw [signFactor_div, hsign, mul_div_mul_comm (signFactor s)]
          rw [signFactor_mul_nearest, hquotient] at hrepresents
          exact hrepresents

end Operations

end Binary64
end NumericalMethods
