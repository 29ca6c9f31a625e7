import NumericalMethods.Proofs.Binary64.ErrorBounds
import NumericalMethods.Proofs.Quadrature.Arguments

/-!
# Rounded nodes

The nodes of a rule are computed as the left end and some widths, in four
rounded operations.  None of them lies to the left of the interval, as all
operations respect the order.  Some may lie to the right of it, by a few units
in the last place of the larger end and, on very short intervals, a bit of the
least positive number for every subinterval.
-/

namespace NumericalMethods
namespace QuadratureRule

open Binary64

/-- An interval with finite ends, a bound of them, and a count of
subintervals. -/
structure IsGrid (a b : Float) (n : ℕ) (M : ℚ) : Prop where
  isFinite_left : a.isFinite = true
  isFinite_right : b.isFinite = true
  lt : value a < value b
  abs_left : |value a| ≤ M
  abs_right : |value b| ≤ M
  pos : 0 < n
  count_lt : n < 2 ^ 65

namespace IsGrid

variable {a b : Float} {n : ℕ} {M : ℚ} (h : IsGrid a b n M)
include h

/-! ## The count -/

theorem one_le_value_count : 1 ≤ value (Float.ofNat n) := by
  rw [value_ofNat h.count_lt]
  calc (1 : ℚ) = nearest (1 : ℕ) := by
        rw [nearest_natCast_of_lt (by decide), Nat.cast_one]
    _ ≤ nearest n := nearest_mono (by exact_mod_cast h.pos)

theorem value_count_le : value (Float.ofNat n) ≤ 2 ^ 66 := by
  have hlt : (n : ℚ) ≤ 2 ^ 65 := by exact_mod_cast h.count_lt.le
  rw [value_ofNat h.count_lt]
  linarith [nearest_le_two_mul (q := n) (by positivity)]

theorem le_value_count : (n : ℚ) - n / 2 ^ 53 ≤ value (Float.ofNat n) := by
  have herror := abs_le.mp ((isMultiple_natCast n).abs_nearest_sub_le)
  rw [Nat.abs_cast] at herror
  rw [value_ofNat h.count_lt]
  linarith [herror.1]

/-- A multiplier exceeds the count by its rounding at most. -/
theorem multiplier_le
    {m : Float} (hm : Multiplier n m) :
    m.isFinite = true ∧ 0 ≤ value m ∧
    value m ≤ (1 + 4 / 2 ^ 53) * value (Float.ofNat n) := by
  have hone := h.one_le_value_count
  have hcount := h.le_value_count
  have hlt := h.count_lt
  cases hm with
  | @whole i hi =>
      have hi' : i < 2 ^ 65 := hi.trans_lt hlt
      have hvalue : value (Scalar.ofNat i : Float) = nearest i :=
        value_ofNat hi'
      have hmono : nearest i ≤ value (Float.ofNat n) := by
        rw [value_ofNat hlt]
        exact nearest_mono (by exact_mod_cast hi)
      refine ⟨isFinite_ofNat hi', ?_, ?_⟩
      · rw [hvalue]
        exact nearest_nonneg (by positivity)
      · rw [hvalue]
        linarith
  | @half i hi =>
      have hi' : i < 2 ^ 65 := hi.trans hlt
      have hround : Rounds (Float.ofNat i + 0.5) (nearest i + 1 / 2) := by
        rw [← value_ofNat hi', ← value_half]
        exact rounds_add (isFinite_ofNat hi') rfl
      have hwhole := abs_le.mp ((isMultiple_natCast i).abs_nearest_sub_le)
      rw [Nat.abs_cast] at hwhole
      have hnonneg : 0 ≤ nearest (i : ℚ) := nearest_nonneg (by positivity)
      have hi'' : (i : ℚ) + 1 ≤ n := by exact_mod_cast hi
      have hlarge : (n : ℚ) ≤ 2 ^ 65 := by exact_mod_cast hlt.le
      have hfinite : (Float.ofNat i + 0.5).isFinite = true := by
        apply hround.isFinite_of_abs_le_three_mul
        rw [abs_of_nonneg (by linarith)]
        calc nearest (i : ℚ) + 1 / 2 ≤ 2 ^ 66 := by linarith [hwhole.2]
          _ ≤ 2 ^ 1022 := pow_le_pow_right₀ one_le_two (by decide)
          _ ≤ 3 * 2 ^ 1022 :=
            le_mul_of_one_le_left (by positivity) (by norm_num)
      have hmultiple : IsMultiple (nearest i + 1 / 2) := by
        have hhalf : IsMultiple (1 / 2) := by
          rw [← value_half]
          exact isMultiple_value rfl
        exact (isMultiple_nearest i).add hhalf
      have herror := abs_le.mp hmultiple.abs_nearest_sub_le
      rw [abs_of_nonneg (by linarith : (0 : ℚ) ≤ nearest i + 1 / 2)] at herror
      have hvalue : value (Scalar.ofNat i + 0.5 : Float) =
        nearest (nearest i + 1 / 2) :=
        hround.value_eq hfinite
      refine ⟨hfinite, ?_, ?_⟩
      · rw [hvalue]
        exact nearest_nonneg (by linarith)
      · rw [hvalue]
        linarith [hwhole.2, herror.2]

/-! ## The width -/

section Width

variable (hwidth : ((b - a) / Float.ofNat n).isFinite = true)
include hwidth

theorem value_sub : value (b - a) = nearest (value b - value a) :=
  (rounds_sub h.isFinite_right h.isFinite_left).value_eq
    (isFinite_of_isFinite_div hwidth)

theorem sub_nonneg : 0 ≤ value (b - a) := by
  rw [h.value_sub hwidth]
  exact nearest_nonneg (by linarith [h.lt])

theorem value_width :
    value ((b - a) / Float.ofNat n) =
      nearest (value (b - a) / value (Float.ofNat n)) := by
  have hone := h.one_le_value_count
  exact (rounds_div (isFinite_of_isFinite_div hwidth)
    (isFinite_ofNat h.count_lt) (by linarith)).value_eq hwidth

theorem width_nonneg : 0 ≤ value ((b - a) / Float.ofNat n) := by
  have hone := h.one_le_value_count
  have hsub := h.sub_nonneg hwidth
  rw [h.value_width hwidth]
  exact nearest_nonneg (by positivity)

/-- All widths together exceed the interval by the rounding of two
operations. -/
theorem count_mul_width_le :
    value (Float.ofNat n) * value ((b - a) / Float.ofNat n) ≤
      (1 + 3 / 2 ^ 53) * (value b - value a) + 2 ^ 66 * halfLeast := by
  have hone := h.one_le_value_count
  have hlarge := h.value_count_le
  have hnonneg := h.sub_nonneg hwidth
  have hlt := h.lt
  have hhalf := halfLeast_pos
  have hsub : value (b - a) ≤ (1 + 1 / 2 ^ 53) * (value b - value a) := by
    have hmultiple : IsMultiple (value b - value a) :=
      (isMultiple_value h.isFinite_right).sub (isMultiple_value h.isFinite_left)
    have herror := abs_le.mp hmultiple.abs_nearest_sub_le
    rw [abs_of_pos (by linarith : 0 < value b - value a), ← h.value_sub hwidth]
      at herror
    linarith [herror.2]
  have hquotient : value ((b - a) / Float.ofNat n) ≤
      (1 + 1 / 2 ^ 53) * (value (b - a) / value (Float.ofNat n)) +
        halfLeast := by
    have herror :=
      abs_le.mp (abs_nearest_sub_le_add (value (b - a) / value (Float.ofNat n)))
    rw [abs_of_nonneg
      (by positivity : 0 ≤ value (b - a) / value (Float.ofNat n)),
      ← h.value_width hwidth] at herror
    linarith [herror.2]
  calc value (Float.ofNat n) * value ((b - a) / Float.ofNat n)
    _ ≤ value (Float.ofNat n) *
          ((1 + 1 / 2 ^ 53) * (value (b - a) / value (Float.ofNat n)) +
            halfLeast) :=
        mul_le_mul_of_nonneg_left hquotient (by linarith)
    _ = (1 + 1 / 2 ^ 53) * value (b - a) +
      value (Float.ofNat n) * halfLeast := by
        field_simp
    _ ≤ (1 + 1 / 2 ^ 53) * value (b - a) + 2 ^ 66 * halfLeast := by
        linarith [mul_le_mul_of_nonneg_right hlarge hhalf.le]
    _ ≤ (1 + 3 / 2 ^ 53) * (value b - value a) + 2 ^ 66 * halfLeast := by
        linarith

end Width

/-! ## The nodes -/

/-- The distance of a node from the left end. -/
theorem distance_le
    {m : Float} (hm : Multiplier n m)
    (hfinite : (m * ((b - a) / Float.ofNat n)).isFinite = true) :
    0 ≤ value (m * ((b - a) / Float.ofNat n)) ∧
      value (m * ((b - a) / Float.ofNat n)) ≤
        (1 + 10 / 2 ^ 53) * (value b - value a) + 2 ^ 68 * halfLeast := by
  obtain ⟨hmfinite, hmnonneg, hmle⟩ := h.multiplier_le hm
  have hwidth := (isFinite_of_isFinite_mul hfinite).2
  have hnonneg := h.width_nonneg hwidth
  have hlt := h.lt
  have hhalf := halfLeast_pos
  have hproduct : value m * value ((b - a) / Float.ofNat n) ≤
      (1 + 8 / 2 ^ 53) * (value b - value a) + 2 ^ 67 * halfLeast := by
    have hmul := mul_le_mul_of_nonneg_right hmle hnonneg
    have htotal := h.count_mul_width_le hwidth
    rw [mul_assoc] at hmul
    linarith
  rw [(rounds_mul hmfinite hwidth).value_eq hfinite]
  have hpositive : 0 ≤ value m * value ((b - a) / Float.ofNat n) :=
    mul_nonneg hmnonneg hnonneg
  refine ⟨nearest_nonneg hpositive, ?_⟩
  have herror := abs_le.mp
    (abs_nearest_sub_le_add (value m * value ((b - a) / Float.ofNat n)))
  rw [abs_of_nonneg hpositive] at herror
  linarith [herror.2]

/-- A node does not lie to the left of the interval, and hardly to the right
of it. -/
theorem value_node_le
    {rule : QuadratureRule} {x : Float} (hx : x ∈ rule.arguments a b n)
    (hfinite : x.isFinite = true) :
    value a ≤ value x ∧ value x ≤
      value b + 22 * M / 2 ^ 53 + 2 ^ 69 * halfLeast := by
  have hlt := h.lt
  have hhalf := halfLeast_pos
  obtain ⟨hleft, -⟩ := abs_le.mp h.abs_left
  obtain ⟨-, hright⟩ := abs_le.mp h.abs_right
  have hM : 0 ≤ M := (abs_nonneg _).trans h.abs_left
  rcases eq_or_exists_of_mem_arguments hx with rfl | rfl | ⟨m, hm, rfl⟩
  · constructor <;> linarith
  · constructor <;> linarith
  · obtain ⟨-, hdistance⟩ := isFinite_of_isFinite_add hfinite
    obtain ⟨hnonneg, hle⟩ := h.distance_le hm hdistance
    have hvalue : value (a + m * ((b - a) / Scalar.ofNat n)) =
        nearest (value a + value (m * ((b - a) / Float.ofNat n))) :=
      (rounds_add h.isFinite_left hdistance).value_eq hfinite
    have hmultiple : IsMultiple
        (value a + value (m * ((b - a) / Float.ofNat n))) :=
      (isMultiple_value h.isFinite_left).add (isMultiple_value hdistance)
    have hbound : |value a + value (m * ((b - a) / Float.ofNat n))| ≤
        2 * M + 2 ^ 68 * halfLeast := by
      rw [abs_le]
      constructor <;> linarith
    have herror := abs_le.mp (hmultiple.abs_nearest_sub_le_of_abs_le hbound)
    rw [hvalue]
    constructor
    · rw [← nearest_value h.isFinite_left]
      exact nearest_mono (by rw [nearest_value h.isFinite_left]; linarith)
    · linarith [herror.2]

end IsGrid
end QuadratureRule
end NumericalMethods
