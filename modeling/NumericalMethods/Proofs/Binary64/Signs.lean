import NumericalMethods.Proofs.Binary64.ErrorBounds
import NumericalMethods.Proofs.Binary64.Infinite

/-!
# Signs of binary numbers

A number is zero, undefined, or carries one of two signs, be it finite or
infinite.  The sign is what comparison with zero tells, and for numbers other
than zero it is the sign bit.  The sign of a product is the product of the signs
unless the product of finite factors is too small: up to half of the least
positive number it is rounded to zero.
-/

namespace NumericalMethods
namespace Binary64

open Float.Model Float.Model.UnpackedFloat

/-! ## The sign of a number -/

/-- The number is not zero, and has the sign. -/
inductive HasSign (s : Sign) : UnpackedFloat → Prop
  | infinity : HasSign s (.infinity s)
  | finite {m : ℕ} {e : ℤ} (hm : 0 < m) : HasSign s (.finite s m e hm)

section HasSign

variable {x y : Float} {s t : Sign}

theorem HasSign.unique {u : UnpackedFloat} (hs : HasSign s u)
    (ht : HasSign t u) : s = t := by
  cases hs <;> cases ht <;> rfl

theorem compare_zero_eq_lt_iff {u : UnpackedFloat} :
    u.compare (.zero .positive) = some .lt ↔ HasSign .negative u := by
  constructor
  · intro h
    cases u with
    | notANumber => cases h
    | zero t => cases h
    | infinity t =>
        cases t with
        | positive => cases h
        | negative => exact .infinity
    | finite t m e hm =>
        cases t with
        | positive => cases h
        | negative => exact .finite hm
  · intro h
    cases h <;> rfl

theorem zero_compare_eq_lt_iff {u : UnpackedFloat} :
    (zero .positive).compare u = some .lt ↔ HasSign .positive u := by
  constructor
  · intro h
    cases u with
    | notANumber => cases h
    | zero t => cases h
    | infinity t =>
        cases t with
        | positive => exact .infinity
        | negative => cases h
    | finite t m e hm =>
        cases t with
        | positive => exact .finite hm
        | negative => cases h
  · intro h
    cases h <;> rfl

theorem lt_zero_iff_hasSign : x < 0 ↔ HasSign .negative x.toModel.unpack := by
  rw [lt_iff_compare]
  exact compare_zero_eq_lt_iff

theorem zero_lt_iff_hasSign : 0 < x ↔ HasSign .positive x.toModel.unpack := by
  rw [lt_iff_compare]
  exact zero_compare_eq_lt_iff

/-- A number is undefined, zero, or has a sign. -/
theorem isNaN_or_beq_zero_or_hasSign (x : Float) :
    x.isNaN = true ∨ (x == 0) = true ∨ ∃ s, HasSign s x.toModel.unpack := by
  cases hx : x.toModel.unpack with
  | notANumber => exact .inl (isNaN_iff_unpack_eq.mpr hx)
  | infinity s => exact .inr (.inr ⟨s, .infinity⟩)
  | finite s m e hm => exact .inr (.inr ⟨s, .finite hm⟩)
  | zero s =>
      have hbeq : (x == 0) =
          (x.toModel.unpack.compare (zero .positive) == some .eq) := rfl
      rw [hbeq, hx]
      exact .inr (.inl rfl)

theorem HasSign.isNaN_eq_false (h : HasSign s x.toModel.unpack) :
    x.isNaN = false := by
  rw [Bool.eq_false_iff, Ne, isNaN_iff_unpack_eq]
  intro hx
  rw [hx] at h
  cases h

/-- The sign bit of a number that is not zero tells its sign. -/
theorem HasSign.isNegative_iff (h : HasSign s x.toModel.unpack) :
    isNegative x = true ↔ s = .negative := by
  cases hx : x.toModel.unpack with
  | notANumber => rw [hx] at h; cases h
  | zero t => rw [hx] at h; cases h
  | infinity t =>
      rw [hx] at h
      cases h
      cases s with
      | positive =>
          have hinfinity : x = Scalar.infinity := eq_of_unpack_eq hx
          rw [hinfinity]
          exact iff_of_false (by decide) nofun
      | negative =>
          have hinfinity : x = -Scalar.infinity := eq_of_unpack_eq hx
          rw [hinfinity]
          exact iff_of_true (by decide) rfl
  | finite t m e hm =>
      rw [hx] at h
      cases h
      have hfinite : x.isFinite = true := by
        have hmodel : x.isFinite = x.toModel.unpack.isFinite := rfl
        rw [hmodel, hx]
        rfl
      have hpos := (canonical_of_unpack_eq hx).1.value_pos
      have hvalue := value_eq_magnitude hfinite
      have hnegative : isNegative x = decide (2 ^ 63 ≤ x.toBits.toNat) := rfl
      rw [value_of_unpack_eq hx] at hvalue
      rw [hnegative, decide_eq_true_iff]
      cases s with
      | positive =>
          rw [signFactor_positive_mul] at hvalue
          refine iff_of_false ?_ nofun
          intro hbit
          rw [if_pos hbit] at hvalue
          linarith [magnitude_nonneg (x.toBits.toNat - 2 ^ 63)]
      | negative =>
          rw [signFactor_negative_mul] at hvalue
          refine iff_of_true ?_ rfl
          by_contra hbit
          rw [if_neg hbit] at hvalue
          linarith [magnitude_nonneg x.toBits.toNat]

theorem HasSign.sameSign_iff (hx : HasSign s x.toModel.unpack)
    (hy : HasSign t y.toModel.unpack) :
    Scalar.sameSign x y = true ↔ s = t := by
  have hsame : Scalar.sameSign x y =
      (!x.isNaN && !y.isNaN && isNegative x == isNegative y) := rfl
  rw [hsame, hx.isNaN_eq_false, hy.isNaN_eq_false]
  simp only [Bool.not_false, Bool.true_and, beq_iff_eq]
  rw [Bool.eq_iff_iff, hx.isNegative_iff, hy.isNegative_iff]
  cases s <;> cases t <;> simp

theorem sameSign_of_isNaN (hx : x.isNaN = true) :
    Scalar.sameSign x y = false := by
  have hsame : Scalar.sameSign x y =
      (!x.isNaN && !y.isNaN && isNegative x == isNegative y) := rfl
  rw [hsame, hx]
  rfl

end HasSign

/-! ## Opposite signs -/

/-- One number is negative and the other positive. -/
def OppositeSigns (x y : Float) : Prop :=
  x < 0 ∧ 0 < y ∨ 0 < x ∧ y < 0

instance (x y : Float) : Decidable (OppositeSigns x y) :=
  inferInstanceAs (Decidable (_ ∨ _))

theorem oppositeSigns_iff_hasSign {x y : Float} :
    OppositeSigns x y ↔
      ∃ s, HasSign s x.toModel.unpack ∧ HasSign (-s) y.toModel.unpack := by
  rw [OppositeSigns, lt_zero_iff_hasSign, zero_lt_iff_hasSign,
    lt_zero_iff_hasSign, zero_lt_iff_hasSign]
  constructor
  · rintro (⟨hx, hy⟩ | ⟨hx, hy⟩)
    · exact ⟨.negative, hx, hy⟩
    · exact ⟨.positive, hx, hy⟩
  · rintro ⟨s, hx, hy⟩
    cases s with
    | positive => exact .inr ⟨hx, hy⟩
    | negative => exact .inl ⟨hx, hy⟩

theorem oppositeSigns_comm {x y : Float} : OppositeSigns x y ↔
    OppositeSigns y x := by
  rw [OppositeSigns, OppositeSigns, or_comm, and_comm, and_comm (a := x < 0)]

/-- The product of two signs is negative if they are opposite. -/
theorem HasSign.mul_iff {u v w : UnpackedFloat} {s t : Sign}
    (hw : HasSign (s * t) w) (hu : HasSign s u) (hv : HasSign t v) :
    HasSign .negative w ↔ ∃ r, HasSign r u ∧ HasSign (-r) v := by
  constructor
  · intro h
    have hproduct : s * t = .negative := hw.unique h
    have hopposite : t = -s := by
      cases s <;> cases t <;> first | rfl | cases hproduct
    exact ⟨s, hu, hopposite ▸ hv⟩
  · rintro ⟨r, hr, hr'⟩
    have hs : s = r := hu.unique hr
    have ht : t = -r := hv.unique hr'
    rw [hs, ht] at hw
    cases r <;> exact hw

/-! ## The sign of a product -/

theorem halfLeast_eq : halfLeast = 1 / 2 * 2 ^ (-1074 : ℤ) := by
  have hpower : halfLeast = 2 ^ (-1074 : ℤ) * 2⁻¹ :=
    zpow_sub_one₀ two_ne_zero (-1074)
  rw [hpower, mul_comm, one_div]

theorem nearest_halfLeast : nearest halfLeast = 0 := by
  have hleast : (0 : ℚ) < 2 ^ (-1074 : ℤ) := by positivity
  have hstep : stepExponent halfLeast = -1074 := by
    apply le_antisymm _ (least_le_stepExponent _)
    apply stepExponent_le_of_lt halfLeast_pos.ne' le_rfl
    rw [abs_of_pos halfLeast_pos, halfLeast_eq]
    exact mul_lt_mul_of_pos_right (by norm_num) hleast
  have hhalf : halfLeast / 2 ^ (-1074 : ℤ) = 1 / 2 := by
    rw [halfLeast_eq, mul_div_cancel_right₀ _ hleast.ne']
  have heven : halfEven (1 / 2) = 0 :=
    halfEven_eq (by norm_num) (fun _ => by decide)
  rw [nearest, hstep, hhalf, heven, Int.cast_zero, zero_mul]

/-- A number is rounded to a positive one if it exceeds half of the
least one. -/
theorem nearest_pos_iff {q : ℚ} : 0 < nearest q ↔ halfLeast < q := by
  constructor
  · intro h
    by_contra hle
    have hzero := nearest_mono (not_lt.mp hle)
    rw [nearest_halfLeast] at hzero
    exact absurd h (not_lt.mpr hzero)
  · intro h
    have hq : 0 < q := halfLeast_pos.trans h
    have hsteps : 0 < halfEven (q / 2 ^ stepExponent q) := by
      by_cases hstep : stepExponent q = -1074
      · have hmore : 1 / 2 < q / 2 ^ stepExponent q := by
          rwa [hstep, lt_div_iff₀ (by positivity), ← halfLeast_eq]
        have hnear := (abs_le.mp (halfEven_spec (q / 2 ^ stepExponent q)).1).2
        have hpos : (0 : ℚ) < halfEven (q / 2 ^ stepExponent q) := by linarith
        exact_mod_cast hpos
      · have hfull := le_halfEven_div_step hq hstep
        omega
    rw [nearest]
    positivity

theorem nearest_neg_iff {q : ℚ} : nearest q < 0 ↔ q < -halfLeast := by
  rw [← neg_pos, ← nearest_neg, nearest_pos_iff, lt_neg]

/-- A stored number has the sign of what it stands for. -/
theorem Represents.lt_zero_iff
    {z : Float} {u : UnpackedFloat} {r : ℚ} (h : Represents u r)
    (hz : z.toModel = pack u) :
    z < 0 ↔ r < 0 := by
  obtain ⟨hiff, hvalue⟩ := h.stored hz
  by_cases hfinite : z.isFinite = true
  · rw [lt_iff_value_lt hfinite rfl, hvalue hfinite, value_zero]
  · rw [hiff] at hfinite
    obtain ⟨s, hs, hpos⟩ := h.exists_unpack_eq_infinity hz hfinite
    rw [lt_zero_iff_hasSign, hs]
    cases s with
    | positive =>
        rw [signFactor_positive_mul] at hpos
        exact iff_of_false nofun hpos.not_gt
    | negative =>
        rw [signFactor_negative_mul, neg_pos] at hpos
        exact iff_of_true .infinity hpos

/-- The product of finite numbers is rounded to zero. -/
def ProductVanishes (x y : Float) : Prop :=
  x.isFinite = true ∧ y.isFinite = true ∧ |value x * value y| ≤ halfLeast

theorem productVanishes_comm {x y : Float} : ProductVanishes x y ↔
    ProductVanishes y x := by
  rw [ProductVanishes, ProductVanishes, mul_comm, and_left_comm]

theorem oppositeSigns_iff_value_mul_neg
    {x y : Float} (hx : x.isFinite = true) (hy : y.isFinite = true) :
    OppositeSigns x y ↔ value x * value y < 0 := by
  rw [OppositeSigns, lt_iff_value_lt hx rfl, lt_iff_value_lt rfl hx,
    lt_iff_value_lt hy rfl, lt_iff_value_lt rfl hy, value_zero,
    mul_neg_iff, or_comm]

/-- An infinite factor gives the product the sign that the signs of both factors
call for; there is none if the other one is zero. -/
theorem mul_lt_zero_iff_of_infinite
    {x y : Float} (h : x.isFinite = false ∨ y.isFinite = false) :
    x * y < 0 ↔ OppositeSigns x y := by
  have hmul : (x * y).toModel =
      pack (UnpackedFloat.mul Format.binary64 x.toModel.unpack
        y.toModel.unpack) := rfl
  have hmodel : ∀ z : Float, z.isFinite = z.toModel.unpack.isFinite :=
    fun _ => rfl
  have hinfinity : ∀ s, (Float.Model.pack (.infinity s)).unpack =
      .infinity s := by
    intro s
    cases s <;> rfl
  rw [hmodel, hmodel] at h
  rw [oppositeSigns_iff_hasSign, lt_zero_iff_hasSign, hmul]
  generalize x.toModel.unpack = u at h ⊢
  generalize y.toModel.unpack = v at h ⊢
  have hundefined : ∀ {w}, w = .notANumber →
      ¬ HasSign .negative (Float.Model.pack w).unpack := by
    rintro _ rfl h
    have hunpack : (Float.Model.pack .notANumber).unpack = .notANumber := rfl
    rw [hunpack] at h
    cases h
  cases u with
  | notANumber => exact iff_of_false (hundefined rfl) (by rintro ⟨_, ⟨⟩, _⟩)
  | zero s =>
      cases v with
      | notANumber => exact iff_of_false (hundefined rfl) (by rintro ⟨_, ⟨⟩, _⟩)
      | infinity t => exact iff_of_false (hundefined rfl) (by rintro ⟨_, ⟨⟩, _⟩)
      | zero t => rcases h with h | h <;> cases h
      | finite t m e hm => rcases h with h | h <;> cases h
  | infinity s =>
      cases v with
      | notANumber => exact iff_of_false (hundefined rfl) (by rintro ⟨_, _, ⟨⟩⟩)
      | zero t => exact iff_of_false (hundefined rfl) (by rintro ⟨_, _, ⟨⟩⟩)
      | infinity t =>
          exact HasSign.mul_iff (hinfinity (s * t) ▸ .infinity)
            .infinity .infinity
      | finite t m e hm =>
          exact HasSign.mul_iff (hinfinity (s * t) ▸ .infinity)
            .infinity (.finite hm)
  | finite s m e hm =>
      cases v with
      | notANumber => exact iff_of_false (hundefined rfl) (by rintro ⟨_, _, ⟨⟩⟩)
      | infinity t =>
          exact HasSign.mul_iff (hinfinity (s * t) ▸ .infinity)
            (.finite hm) .infinity
      | zero t => rcases h with h | h <;> cases h
      | finite t m' e' hm' => rcases h with h | h <;> cases h

/-- A product is negative if the signs of its factors are opposite, and it is
not rounded to zero. -/
theorem mul_lt_zero_iff {x y : Float} :
    x * y < 0 ↔ OppositeSigns x y ∧ ¬ ProductVanishes x y := by
  by_cases hfinite : x.isFinite = true ∧ y.isFinite = true
  · obtain ⟨hx, hy⟩ := hfinite
    have hmul := (represents_value hx).mul (represents_value hy)
    have hhalf := halfLeast_pos
    rw [hmul.lt_zero_iff (z := x * y) rfl, nearest_neg_iff,
      oppositeSigns_iff_value_mul_neg hx hy, ProductVanishes]
    simp only [hx, hy, true_and, abs_le, not_and_or, not_le]
    constructor
    · intro h
      exact ⟨by linarith, .inl h⟩
    · rintro ⟨hneg, h | h⟩
      · exact h
      · linarith
  · have hvanish : ¬ ProductVanishes x y := fun h => hfinite ⟨h.1, h.2.1⟩
    rw [mul_lt_zero_iff_of_infinite, and_iff_left hvanish]
    rw [not_and_or, Bool.not_eq_true, Bool.not_eq_true] at hfinite
    exact hfinite

/-- Opposite signs whose product is rounded to zero. -/
example : OppositeSigns (-1e-200) 1e-200 ∧
  ¬ (-1e-200 : Float) * 1e-200 < 0 := by
  decide +kernel

/-! ## Numbers that are not negative -/

section NotNegative

variable {x y : Float}

theorem not_mul_lt_zero (hx : ¬ x < 0) (hy : ¬ y < 0) : ¬ x * y < 0 := by
  rw [mul_lt_zero_iff]
  rintro ⟨h | h, -⟩
  · exact hx h.1
  · exact hy h.2

/-- What is too large, or undefined, is below nothing. -/
theorem not_lt_of_not_isFinite (hx : ¬ x.isFinite = true) (hsign : ¬ x < 0) :
    ¬ x < y := by
  intro hlt
  rcases isFinite_or_unpack_eq
    (isNaN_of_le (le_of_lt hlt)).1 with hfinite | ⟨s, hs⟩
  · exact hx hfinite
  · cases s with
    | negative =>
        rw [lt_zero_iff_hasSign, hs] at hsign
        exact hsign .infinity
    | positive =>
        have hinfinity : x = Scalar.infinity := eq_of_unpack_eq hs
        exact not_infinity_lt y (hinfinity ▸ hlt)

end NotNegative

end Binary64
end NumericalMethods
