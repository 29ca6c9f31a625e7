import NumericalMethods.Proofs.Binary64.Packing

/-!
# Factors of two

Dividing by two changes the exponent of a normal number and not its mantissa,
and the number nearest to an even count is twice the number nearest to half of
it.  So a count times a step is the same number as twice the count times half
the step.
-/

namespace NumericalMethods
namespace Binary64

open Float.Model Float.Model.UnpackedFloat

/-! ## Shifts -/

theorem shiftRight_succ (em : ExtendedMantissa) (k : ℕ) :
    em >>> (k + 1) = (em >>> k).shiftRightOne :=
  rfl

theorem shiftRight_succ' (em : ExtendedMantissa) (k : ℕ) :
    em >>> (k + 1) = em.shiftRightOne >>> k := by
  induction k with
  | zero => rfl
  | succ k ih => rw [shiftRight_succ, ih, shiftRight_succ]

theorem mantissa_shiftRight (em : ExtendedMantissa) (k : ℕ) :
    (em >>> k).mantissa = em.mantissa / 2 ^ k := by
  induction k with
  | zero => exact (Nat.div_one _).symm
  | succ k ih =>
      rw [shiftRight_succ, ExtendedMantissa.shiftRightOne, ih,
        Nat.div_div_eq_div_mul, Nat.pow_succ]

/-- Shifting an even mantissa drops a zero. -/
theorem shiftRightOne_double (m : ℕ) :
    ExtendedMantissa.shiftRightOne ⟨2 * m, false, false⟩ =
      ⟨m, false, false⟩ := by
  simp [ExtendedMantissa.shiftRightOne]

theorem le_roundedMantissa (em : ExtendedMantissa) :
    em.mantissa ≤ em.roundedMantissa := by
  obtain ⟨m, r, s⟩ := em
  cases r <;> cases s
  · exact Nat.le_refl m
  · exact Nat.le_refl m
  · exact Nat.le_add_right m _
  · exact Nat.le_succ m

theorem roundedMantissa_le (em : ExtendedMantissa) :
    em.roundedMantissa ≤ em.mantissa + 1 := by
  obtain ⟨m, r, s⟩ := em
  cases r <;> cases s
  · exact Nat.le_succ m
  · exact Nat.le_succ m
  · exact Nat.add_le_add_left (Nat.le_of_lt_succ (Nat.mod_lt m (by decide))) m
  · exact Nat.le_refl (m + 1)

/-- Shifting off zeros loses nothing. -/
theorem shiftRight_mul_two_pow (m k : ℕ) :
    ExtendedMantissa.ofMantissaAndAccuracy (m * 2 ^ k) .exact >>> k =
      ⟨m, false, false⟩ := by
  induction k with
  | zero =>
      rw [Nat.pow_zero, Nat.mul_one]
      rfl
  | succ k ih =>
      have hdouble : m * 2 ^ (k + 1) = 2 * (m * 2 ^ k) := by
        rw [Nat.pow_succ, Nat.mul_comm 2, Nat.mul_assoc]
      have hone : (ExtendedMantissa.ofMantissaAndAccuracy (m * 2 ^ (k + 1))
          .exact).shiftRightOne = ⟨m * 2 ^ k, false, false⟩ := by
        rw [hdouble]
        exact shiftRightOne_double (m * 2 ^ k)
      rw [shiftRight_succ', hone]
      exact ih

theorem shiftRight_double_succ (m k : ℕ) :
    ExtendedMantissa.ofMantissaAndAccuracy (2 * m) .exact >>> (k + 1) =
      ExtendedMantissa.ofMantissaAndAccuracy m .exact >>> k := by
  rw [shiftRight_succ']
  exact congrArg (fun em : ExtendedMantissa => em >>> k)
    (shiftRightOne_double m)

theorem log2_mul_two_pow {m : ℕ} (hm : m ≠ 0) (k : ℕ) :
    (m * 2 ^ k).log2 = m.log2 + k := by
  induction k with
  | zero => rw [Nat.pow_zero, Nat.mul_one, Nat.add_zero]
  | succ k ih =>
      have hpositive : m * 2 ^ k ≠ 0 :=
        Nat.mul_ne_zero hm (Nat.ne_of_gt (Nat.two_pow_pos k))
      rw [Nat.pow_succ, ← Nat.mul_assoc, Nat.mul_comm _ 2,
        Nat.log2_two_mul hpositive, ih, Nat.add_assoc]

/-! ## Rounding -/

/-- A mantissa of `53 + k` digits is shifted by `k`. -/
theorem shiftToTargetExponent_eq
    {m k : ℕ} {e : ℤ} (hlog : m.log2 = 52 + k) (he : -1074 ≤ e + k) :
    shiftToTargetExponent Format.binary64 m e .exact =
      (ExtendedMantissa.ofMantissaAndAccuracy m .exact >>> k, e + k) := by
  have hamount :
      (Format.binary64.targetExponent (totalExponent m e) - e).toNat = k := by
    have htarget : Format.binary64.targetExponent (totalExponent m e) =
        max ((m.log2 : ℤ) + 1 + e - 53) (-1074) := rfl
    rw [htarget, hlog]
    omega
  change (ExtendedMantissa.ofMantissaAndAccuracy m .exact >>>
      (Format.binary64.targetExponent (totalExponent m e) - e).toNat,
    e + ((Format.binary64.targetExponent (totalExponent m e) - e).toNat : ℤ)) =
      _
  rw [hamount]

/-- A rounded mantissa needs at most one more shift, which loses nothing. -/
theorem exists_carry {r : ℕ} (hlower : 2 ^ 52 ≤ r) (hupper : r ≤ 2 ^ 53) :
    ∃ a d : ℕ, 2 ^ 52 ≤ a ∧ a < 2 ^ 53 ∧ d ≤ 1 ∧ ∀ e : ℤ, -1074 ≤ e →
      shiftToTargetExponent Format.binary64 r e .exact =
        (⟨a, false, false⟩, e + d) := by
  rcases Nat.lt_or_eq_of_le hupper with hlt | rfl
  · refine ⟨r, 0, hlower, hlt, by omega, fun e he => ?_⟩
    have hlog : r.log2 = 52 := (Nat.log2_eq_iff (by omega)).mpr ⟨hlower, hlt⟩
    rw [shiftToTargetExponent_eq (k := 0) hlog (by omega)]
    rfl
  · refine ⟨2 ^ 52, 1, by decide, by decide, by omega, fun e he => ?_⟩
    have hlog : (2 ^ 53).log2 = 52 + 1 := Nat.log2_two_pow
    rw [shiftToTargetExponent_eq hlog (by omega)]
    exact congrArg (·, e + ((1 : ℕ) : ℤ)) (shiftRight_mul_two_pow (2 ^ 52) 1)

theorem roundWithAccuracy_eq_finite
    {s : Sign} {m a : ℕ} {e e' c : ℤ} {accuracy : Accuracy}
    {em : ExtendedMantissa}
    (hfirst : shiftToTargetExponent Format.binary64 m e accuracy = (em, e'))
    (hsecond : shiftToTargetExponent Format.binary64
      em.roundedMantissa e' .exact =
      (⟨a, false, false⟩, c))
    (ha : 0 < a) :
    roundWithAccuracy Format.binary64 s m e accuracy = .finite s a c ha := by
  let first := shiftToTargetExponent Format.binary64 m e accuracy
  let second :=
    shiftToTargetExponent Format.binary64 first.1.roundedMantissa first.2 .exact
  have hfinal : second = (⟨a, false, false⟩, c) := by
    change shiftToTargetExponent Format.binary64
      (shiftToTargetExponent Format.binary64 m e accuracy).1.roundedMantissa
      (shiftToTargetExponent Format.binary64 m e accuracy).2 .exact = _
    rw [hfirst]
    exact hsecond
  have hmantissa : second.1.mantissa = a := by rw [hfinal]
  have hexponent : second.2 = c := by rw [hfinal]
  have hnonzero : second.1.mantissa ≠ 0 := by
    rw [hmantissa]
    exact Nat.ne_of_gt ha
  have hround : roundWithAccuracy Format.binary64 s m e accuracy =
      .finite s second.1.mantissa second.2 (Nat.pos_of_ne_zero hnonzero) :=
        dif_neg hnonzero
  rw [hround]
  exact finite_congr hmantissa hexponent

/-- A normal number is not rounded, with whatever zeros it is written. -/
theorem roundWithAccuracy_mul_two_pow
    {s : Sign} {m : ℕ} {e : ℤ} (h : Normal m e) (k : ℕ) :
    roundWithAccuracy Format.binary64 s (m * 2 ^ k) (e - k) .exact =
      .finite s m e h.pos := by
  have hleast := h.least
  have hlog : (m * 2 ^ k).log2 = 52 + k := by
    rw [log2_mul_two_pow (Nat.ne_of_gt h.pos), h.log2_eq]
  have hfirst : shiftToTargetExponent Format.binary64 (m * 2 ^ k)
      (e - k) .exact =
      (⟨m, false, false⟩, e) := by
    rw [shiftToTargetExponent_eq hlog (by omega), shiftRight_mul_two_pow,
      Int.sub_add_cancel]
  have hsecond : shiftToTargetExponent Format.binary64 m e .exact =
      (⟨m, false, false⟩, e) := by
    rw [shiftToTargetExponent_eq (k := 0) h.log2_eq (by omega)]
    exact congrArg _ (Int.add_zero e)
  exact roundWithAccuracy_eq_finite hfirst hsecond h.pos

theorem roundWithAccuracy_of_normal {s : Sign} {m : ℕ} {e : ℤ}
    (h : Normal m e) :
    roundWithAccuracy Format.binary64 s m e .exact = .finite s m e h.pos := by
  have hzero := roundWithAccuracy_mul_two_pow (s := s) h 0
  rwa [Nat.pow_zero, Nat.mul_one, Int.natCast_zero, Int.sub_zero] at hzero

/-- Twice a number is rounded to twice the number it is rounded to.  Both have
the same digits before they are rounded. -/
theorem exists_round_double
    {s : Sign} {m : ℕ} {e : ℤ} (hm : 2 ^ 52 ≤ m) (he : -1074 ≤ e) :
    ∃ (a : ℕ) (c : ℤ) (ha : 0 < a), 2 ^ 52 ≤ a ∧ a < 2 ^ 53 ∧
      e ≤ c ∧ c ≤ e + m.log2 - 51 ∧
      roundWithAccuracy Format.binary64 s m e .exact = .finite s a c ha ∧
      roundWithAccuracy Format.binary64 s (2 * m) e .exact =
        .finite s a (c + 1) ha := by
  have hpositive : m ≠ 0 := by omega
  obtain ⟨k, hlog⟩ : ∃ k, m.log2 = 52 + k :=
    Nat.exists_eq_add_of_le ((Nat.le_log2 hpositive).mpr hm)
  have hlog' : (2 * m).log2 = 52 + (k + 1) := by
    rw [Nat.log2_two_mul hpositive, hlog, Nat.add_assoc]
  let em := ExtendedMantissa.ofMantissaAndAccuracy m .exact >>> k
  have hmantissa : em.mantissa = m / 2 ^ k := mantissa_shiftRight _ k
  have hlower : 2 ^ 52 ≤ em.mantissa := by
    rw [hmantissa, Nat.le_div_iff_mul_le (Nat.two_pow_pos k),
      ← Nat.pow_add, ← hlog]
    exact Nat.log2_self_le hpositive
  have hupper : em.mantissa < 2 ^ 53 := by
    rw [hmantissa, Nat.div_lt_iff_lt_mul (Nat.two_pow_pos k), ← Nat.pow_add]
    have hlt : m < 2 ^ (m.log2 + 1) := Nat.lt_log2_self
    rwa [hlog, Nat.add_right_comm] at hlt
  obtain ⟨a, d, halower, haupper, hd, hcarry⟩ :=
    exists_carry (r := em.roundedMantissa)
      (Nat.le_trans hlower (le_roundedMantissa em))
      (Nat.le_trans (roundedMantissa_le em) hupper)
  have ha : 0 < a := Nat.lt_of_lt_of_le (by decide) halower
  refine ⟨a, e + k + d, ha, halower, haupper, by omega, by omega, ?_, ?_⟩
  · exact roundWithAccuracy_eq_finite (shiftToTargetExponent_eq hlog (by omega))
      (hcarry _ (by omega)) ha
  · have hfirst : shiftToTargetExponent Format.binary64 (2 * m) e .exact =
        (em, e + ((k + 1 : ℕ) : ℤ)) := by
      rw [shiftToTargetExponent_eq hlog' (by omega), shiftRight_double_succ]
    have hexponent : e + ((k + 1 : ℕ) : ℤ) + d = e + k + d + 1 := by omega
    have hsecond := hcarry (e + ((k + 1 : ℕ) : ℤ)) (by omega)
    rw [hexponent] at hsecond
    exact roundWithAccuracy_eq_finite hfirst hsecond ha

/-! ## Halves and counts -/

theorem divCore_eq
    {m m' : ℕ} {e e' t : ℤ}
    (ht : min (e - e') (Format.binary64.targetExponent
      (totalExponent m e - totalExponent m' e')) = t) :
    divCore Format.binary64 m e m' e' =
      (m <<< (e - e' - t).toNat / m', t,
        accuracyOfFraction (m <<< (e - e' - t).toNat % m') m') := by
  subst ht
  rfl

/-- The quotient by two is exact, with one digit more unless the exponent is the
least one. -/
theorem divCore_two
    {m j : ℕ} {e : ℤ} (hlog : m.log2 = 52)
    (hj : max (e - 2) (-1074) = e - 1 - j) :
    divCore Format.binary64 m e (2 ^ 52) (-51) =
      (m * 2 ^ j, e - 1 - j, .exact) := by
  have htarget : min (e - -51) (Format.binary64.targetExponent
      (totalExponent m e - totalExponent (2 ^ 52) (-51))) = e - 1 - j := by
    have hexponent : Format.binary64.targetExponent
        (totalExponent m e - totalExponent (2 ^ 52) (-51)) =
        max ((m.log2 : ℤ) + 1 + e - ((52 : ℕ) + 1 + -51) - 53) (-1074) := rfl
    rw [hexponent, hlog, ← hj]
    omega
  have hshift : (e - -51 - (e - 1 - j)).toNat = j + 52 := by omega
  have hwhole : m <<< (j + 52) = m * 2 ^ j * 2 ^ 52 := by
    rw [Nat.shiftLeft_eq, Nat.pow_add, Nat.mul_assoc]
  rw [divCore_eq htarget, hshift, hwhole, Nat.mul_div_cancel _ (by decide),
    Nat.mul_mod_left]
  rfl

/-- Half of a normal number has the same mantissa.  The division asks for one
digit more than it needs, unless that digit would lie below the least
exponent. -/
theorem unpack_half
    {x : Float} {m : ℕ} {e : ℤ} (h : Normal m e) (he : -1073 ≤ e)
    (hx : x.toModel.unpack = .finite .positive m e h.pos) :
    (x / 2.0).toModel.unpack = .finite .positive m (e - 1) h.pos := by
  have hgreatest := h.greatest
  have hhalf : Normal m (e - 1) := ⟨h.lower, h.upper, by omega, by omega⟩
  have htwo : (2.0 : Float).toModel.unpack =
      .finite .positive (2 ^ 52) (-51) (by decide) := by rfl
  obtain ⟨j, hj⟩ : ∃ j : ℕ, max (e - 2) (-1074) = e - 1 - j := by
    rcases Int.lt_or_eq_of_le he with hlt | rfl
    · exact ⟨1, by omega⟩
    · exact ⟨0, by omega⟩
  have hdiv : UnpackedFloat.div Format.binary64 x.toModel.unpack
      (2.0 : Float).toModel.unpack =
      .finite .positive m (e - 1) h.pos := by
    rw [hx, htwo]
    change roundWithAccuracy Format.binary64 (.positive / .positive)
      (divCore Format.binary64 m e (2 ^ 52) (-51)).1
      (divCore Format.binary64 m e (2 ^ 52) (-51)).2.1
      (divCore Format.binary64 m e (2 ^ 52) (-51)).2.2 = _
    rw [divCore_two h.log2_eq hj]
    exact roundWithAccuracy_mul_two_pow hhalf j
  change (Float.Model.pack (UnpackedFloat.div Format.binary64 x.toModel.unpack
    (2.0 : Float).toModel.unpack)).unpack = _
  rw [hdiv]
  exact unpack_pack_of_normal hhalf

theorem normalize_natCast {n : ℕ} (hn : 0 < n) :
    normalize Format.binary64 n 0 .positive =
      round Format.binary64 .positive n 0 := by
  cases n with
  | zero => exact absurd hn (Nat.lt_irrefl 0)
  | succ n => rfl

theorem round_eq
    {s : Sign} {m : ℕ} {e t : ℤ}
    (ht : Format.binary64.targetExponent (totalExponent m e) = t) :
    round Format.binary64 s m e =
      roundWithAccuracy Format.binary64 s (m <<< (e - t).toNat)
        (e - (e - t).toNat) .exact := by
  subst ht
  rfl

theorem log2_le_of_lt {n : ℕ} (hpositive : 0 < n) (hn : n < 2 ^ 53) :
    n.log2 ≤ 52 :=
  Nat.le_of_lt_succ ((Nat.log2_lt (Nat.ne_of_gt hpositive)).mpr hn)

/-- The digits of a small count, filled up with zeros. -/
theorem normal_of_lt {n : ℕ} (hpositive : 0 < n) (hn : n < 2 ^ 53) :
    Normal (n * 2 ^ (52 - n.log2)) (n.log2 - 52) := by
  have hlog := log2_le_of_lt hpositive hn
  have hsum : n.log2 + (52 - n.log2) = 52 := by omega
  have hlower := Nat.mul_le_mul_right (2 ^ (52 - n.log2))
    (Nat.log2_self_le (Nat.ne_of_gt hpositive))
  have hupper := Nat.mul_lt_mul_of_pos_right (Nat.lt_log2_self (n := n))
    (Nat.two_pow_pos (52 - n.log2))
  rw [← Nat.pow_add, hsum] at hlower
  rw [← Nat.pow_add, Nat.add_right_comm, hsum] at hupper
  exact ⟨hlower, hupper, by omega, by omega⟩

/-- A count of at most 53 digits is exact. -/
theorem unpack_toFloat
    {n : ℕ} (hpositive : 0 < n) (hn : n < 2 ^ 53) :
    n.toUInt64.toFloat.toModel.unpack =
      .finite .positive (n * 2 ^ (52 - n.log2)) (n.log2 - 52)
        (normal_of_lt hpositive hn).pos := by
  have hlog := log2_le_of_lt hpositive hn
  have hnormal := normal_of_lt hpositive hn
  have hword : n.toUInt64.toNat = n :=
    UInt64.toNat_ofNat_of_lt' (Nat.lt_trans hn (by decide))
  have htarget : Format.binary64.targetExponent (totalExponent n 0) =
      n.log2 - 52 := by
    have hexponent : Format.binary64.targetExponent (totalExponent n 0) =
        max ((n.log2 : ℤ) + 1 + 0 - 53) (-1074) := rfl
    rw [hexponent]
    omega
  have hshift : (0 - ((n.log2 : ℤ) - 52)).toNat = 52 - n.log2 := by omega
  have hround : normalize Format.binary64 n 0 .positive =
      .finite .positive (n * 2 ^ (52 - n.log2)) (n.log2 - 52) hnormal.pos := by
    have hexponent : (0 : ℤ) - ((52 - n.log2 : ℕ) : ℤ) = n.log2 - 52 := by omega
    rw [normalize_natCast hpositive, round_eq htarget, hshift,
      Nat.shiftLeft_eq, hexponent]
    exact roundWithAccuracy_of_normal hnormal
  change (Float.Model.pack (normalize Format.binary64 (n.toUInt64.toNat : ℕ) 0
    .positive)).unpack = _
  rw [hword, hround]
  exact unpack_pack_of_normal hnormal

theorem ofNat_of_lt {n : ℕ} (hn : n < 2 ^ 53) :
    Float.ofNat n = n.toUInt64.toFloat * Float.ofBits 0x3FF0000000000000 :=
  dif_pos ⟨hn, by decide⟩

theorem ofNat_of_le {n : ℕ} (hn : 2 ^ 53 ≤ n) :
    Float.ofNat n = Float.ofModel (Float.Model.ofScientific n 0) :=
  dif_neg fun h => Nat.not_lt.mpr hn h.1

/-- Counts of up to 53 digits are converted directly and multiplied by one;
longer ones go through the conversion of decimal numbers. -/
theorem unpack_ofNat_of_lt
    {n : ℕ} (hpositive : 0 < n) (hn : n < 2 ^ 53) :
    (Float.ofNat n).toModel.unpack =
      .finite .positive (n * 2 ^ (52 - n.log2)) (n.log2 - 52)
        (normal_of_lt hpositive hn).pos := by
  have hnormal := normal_of_lt hpositive hn
  have hone : (Float.ofBits 0x3FF0000000000000).toModel.unpack =
      .finite .positive (2 ^ 52) (-52) (by decide) := by rfl
  have hproduct : UnpackedFloat.mul Format.binary64
      n.toUInt64.toFloat.toModel.unpack
      (Float.ofBits 0x3FF0000000000000).toModel.unpack =
      .finite .positive (n * 2 ^ (52 - n.log2)) (n.log2 - 52) hnormal.pos := by
    rw [unpack_toFloat hpositive hn, hone]
    exact roundWithAccuracy_mul_two_pow hnormal 52
  rw [ofNat_of_lt hn]
  change (Float.Model.pack (UnpackedFloat.mul Format.binary64
    n.toUInt64.toFloat.toModel.unpack
    (Float.ofBits 0x3FF0000000000000).toModel.unpack)).unpack = _
  rw [hproduct]
  exact unpack_pack_of_normal hnormal

theorem unpack_ofNat_of_le
    {n : ℕ} (hlower : 2 ^ 53 ≤ n) (hn : n < 2 ^ 65) :
    (Float.ofNat n).toModel.unpack =
      roundWithAccuracy Format.binary64 .positive (n * 2 ^ 53)
        (-53) .exact := by
  have hpositive : n ≠ 0 := by omega
  have hlog : (n * 2 ^ 53).log2 < 118 := by
    rw [Nat.log2_lt (by omega)]
    omega
  obtain ⟨a, c, ha, halower, haupper, hc, hc', hround, -⟩ :=
    exists_round_double (s := .positive) (m := n * 2 ^ 53) (e := -53)
      (by omega) (by decide)
  have hnormal : Normal a c := ⟨halower, haupper, by omega, by omega⟩
  have hsize : ¬ (0 : ℤ) <
      -((2 : ℤ) ^ Format.binary64.exponentBits + n.log2) := by
    have hbound : (2 : ℤ) ^ Format.binary64.exponentBits = 2048 := by decide
    rw [hbound]
    omega
  have hscientific : UnpackedFloat.ofScientific Format.binary64 n 0 =
      .finite .positive a c ha := by
    rw [UnpackedFloat.ofScientific, dif_neg hpositive, if_neg (by decide),
      if_neg hsize, if_pos (Int.le_refl 0), ← hround, ← Nat.shiftLeft_eq,
      ← Nat.mul_one (n <<< 53)]
    rfl
  rw [ofNat_of_le hlower, hround]
  change (Float.Model.pack
    (UnpackedFloat.ofScientific Format.binary64 n 0)).unpack = _
  rw [hscientific]
  exact unpack_pack_of_normal hnormal

/-- A count becomes the number nearest to it. -/
theorem unpack_ofNat
    {n : ℕ} (hpositive : 0 < n) (hn : n < 2 ^ 65) :
    (Float.ofNat n).toModel.unpack =
      roundWithAccuracy Format.binary64 .positive (n * 2 ^ 53)
        (-53) .exact := by
  rcases Nat.lt_or_ge n (2 ^ 53) with hsmall | hlarge
  · have hlog := log2_le_of_lt hpositive hsmall
    have hmantissa : n * 2 ^ 53 = n * 2 ^ (52 - n.log2) * 2 ^ (n.log2 + 1) := by
      have hsum : 52 - n.log2 + (n.log2 + 1) = 53 := by omega
      rw [Nat.mul_assoc, ← Nat.pow_add, hsum]
    have hexponent : (-53 : ℤ) =
        (n.log2 - 52) - ((n.log2 + 1 : ℕ) : ℤ) := by omega
    rw [hmantissa, hexponent,
      roundWithAccuracy_mul_two_pow (normal_of_lt hpositive hsmall)]
    exact unpack_ofNat_of_lt hpositive hsmall
  · exact unpack_ofNat_of_le hlarge hn

/-- Counting to twice as much with half the step leads to the same number. -/
theorem ofNat_double_mul_half
    {x : Float} (hx : leastHalvable ≤ x) (hfinite : x.isFinite = true)
    {n : ℕ} (hpositive : 0 < n) (hn : n < 2 ^ 64) :
    Float.ofNat (2 * n) * (x / 2.0) = Float.ofNat n * x := by
  obtain ⟨m, e, h, he, hunpack⟩ := exists_unpack_eq_of_le hx hfinite
  have hlower : 2 ^ 52 ≤ n * 2 ^ 53 := by omega
  obtain ⟨a, c, ha, -, -, -, -, hsingle, hdouble⟩ :=
    exists_round_double (s := .positive) (e := -53) hlower (by decide)
  have hn' : (Float.ofNat n).toModel.unpack = .finite .positive a c ha := by
    rw [unpack_ofNat hpositive (by omega), hsingle]
  have hn'' : (Float.ofNat (2 * n)).toModel.unpack =
      .finite .positive a (c + 1) ha := by
    rw [unpack_ofNat (by omega) (by omega), Nat.mul_assoc, hdouble]
  change Float.ofModel (Float.Model.pack (UnpackedFloat.mul Format.binary64
      (Float.ofNat (2 * n)).toModel.unpack (x / 2.0).toModel.unpack)) =
    Float.ofModel (Float.Model.pack (UnpackedFloat.mul Format.binary64
      (Float.ofNat n).toModel.unpack x.toModel.unpack))
  rw [hn', hn'', unpack_half h he hunpack, hunpack]
  have hexponent : c + 1 + (e - 1) = c + e := by omega
  change Float.ofModel (Float.Model.pack (roundWithAccuracy Format.binary64
      (.positive * .positive) (a * m) (c + 1 + (e - 1)) .exact)) = _
  rw [hexponent]
  rfl

end Binary64
end NumericalMethods
