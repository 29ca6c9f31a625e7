import NumericalMethods.Proofs.Exact.Rational
import NumericalMethods.Proofs.Quadrature.Panels

/-!
# Relations between the composite rules

Panel by panel a rule is a weighted sum of a few values, so identities between
the rules are checked on one panel and added up.  Halving the width replaces a
panel by two; their values combine those of the other rules on the undivided
panel.  Halving the interval only divides the list of panels.  Nothing is asked
of the function.
-/

namespace NumericalMethods
namespace QuadratureRule

open Finset

variable {K : Type} [Field K] [LinearOrder K] [IsStrictOrderedRing K]

/-! ## Two panels of half the width -/

/-- The value of a rule with one subinterval to a panel on two panels of width
`h`, the first of them from `x` on. -/
def twoPanels (rule : QuadratureRule) (f : K → K) (x h : K) : K :=
  rule.panel f x h + rule.panel f (x + h) h

theorem panel_trapezoid_eq_mean (f : K → K) (x w : K) :
    trapezoid.panel f x w =
      (leftRectangles.panel f x w + rightRectangles.panel f x w) / 2 := by
  rw [panel_trapezoid, panel_leftRectangles, panel_rightRectangles]
  ring

theorem twoPanels_leftRectangles (f : K → K) (x w : K) :
    leftRectangles.twoPanels f x (w / 2) =
      (leftRectangles.panel f x w + middleRectangles.panel f x w) / 2 := by
  simp only [twoPanels, panel_leftRectangles, panel_middleRectangles]
  ring

theorem twoPanels_trapezoid (f : K → K) (x w : K) :
    trapezoid.twoPanels f x (w / 2) =
      (trapezoid.panel f x w + middleRectangles.panel f x w) / 2 := by
  simp only [twoPanels, panel_trapezoid, panel_middleRectangles,
    add_assoc, add_halves]
  ring

/-- A parabola over two subintervals is the trapezoids over them, extrapolated
by the trapezoid over both. -/
theorem panel_simpson_half (f : K → K) (x w : K) :
    simpson.panel f x (w / 2) =
      (4 * trapezoid.twoPanels f x (w / 2) - trapezoid.panel f x w) / 3 := by
  have htwo : 2 * (w / 2) = w := mul_div_cancel₀ w two_ne_zero
  simp only [twoPanels, panel_simpson, panel_trapezoid, add_assoc,
    add_halves, htwo]
  ring

/-! ## Sums over panels -/

omit [LinearOrder K] [IsStrictOrderedRing K] in
theorem sum_range_two_mul (g : ℕ → K) (n : ℕ) :
    ∑ i ∈ range (2 * n), g i = ∑ i ∈ range n, (g (2 * i) + g (2 * i + 1)) := by
  induction n with
  | zero => simp
  | succ n ih =>
      rw [sum_range_succ _ n, ← ih, Nat.mul_succ, sum_range_succ,
        sum_range_succ, add_assoc]

variable [ExactArithmetic K]

/-- A composite rule on panels of width `w`. -/
theorem composite_span_mul
    (rule : QuadratureRule) (f : K → K) {a b w : K} {k : ℕ} (hk : 1 ≤ k)
    (hw : k * w = b - a) :
    rule.composite f a b (rule.span * k) =
      ∑ i ∈ range k, rule.panel f (a + i * w) (w / rule.span) := by
  obtain ⟨m, rfl⟩ := Nat.exists_eq_add_of_le' hk
  have hspan : (rule.span : K) ≠ 0 := Nat.cast_ne_zero.mpr rule.span_ne_zero
  have hcount : ((m + 1 : ℕ) : K) ≠ 0 := by exact_mod_cast m.succ_ne_zero
  have hh : w / rule.span = (b - a) / (rule.span * (m + 1) : ℕ) := by
    rw [← hw, Nat.cast_mul, mul_comm (rule.span : K),
      mul_div_mul_left _ _ hcount]
  rw [composite_eq_sum_panel rule f hh, mul_div_cancel₀ _ hspan]

section Subintervals

variable {a b w : K} {n : ℕ}

theorem composite_eq_sum_of_span
    {rule : QuadratureRule} (hrule : rule.span = 1) (f : K → K) (hn : 1 ≤ n)
    (hw : n * w = b - a) :
    rule.composite f a b n = ∑ i ∈ range n, rule.panel f (a + i * w) w := by
  simpa [hrule] using composite_span_mul rule f hn hw

theorem composite_two_mul_of_span
    {rule : QuadratureRule} (hrule : rule.span = 1) (f : K → K) (hn : 1 ≤ n)
    (hw : n * w = b - a) :
    rule.composite f a b (2 * n) = ∑ i ∈
      range n, rule.twoPanels f (a + i * w) (w / 2) := by
  have hhalf : (2 * n : ℕ) * (w / 2) = b - a := by
    rw [← hw]
    push_cast
    ring
  rw [composite_eq_sum_of_span hrule f (by omega) hhalf, sum_range_two_mul]
  refine sum_congr rfl fun i _ => ?_
  have heven : a + (2 * i : ℕ) * (w / 2) = a + i * w := by
    push_cast
    ring
  have hodd : a + (2 * i + 1 : ℕ) * (w / 2) = a + i * w + w / 2 := by
    push_cast
    ring
  rw [heven, hodd, twoPanels]

theorem composite_simpson_two_mul (f : K → K) (hn : 1 ≤ n)
    (hw : n * w = b - a) :
    simpson.composite f a b (2 * n) = ∑ i ∈
      range n, simpson.panel f (a + i * w) (w / 2) :=
  composite_span_mul simpson f hn hw

end Subintervals

/-- The two halves of an interval have half of its panels each. -/
theorem composite_two_mul_eq_add
    {rule : QuadratureRule} {n : ℕ} (hn : rule.Admits n) (f : K → K) (a b : K) :
    rule.composite f a b (2 * n) =
      rule.composite f a ((a + b) / 2) n +
        rule.composite f ((a + b) / 2) b n := by
  obtain ⟨m, rfl⟩ := hn.exists_eq_span_mul
  obtain ⟨w, hw⟩ : ∃ w, (m + 1 : ℕ) * w = (b - a) / 2 := by
    refine ⟨(b - a) / 2 / (m + 1 : ℕ), mul_div_cancel₀ _ ?_⟩
    exact_mod_cast m.succ_ne_zero
  have hwhole : (m + 1 + (m + 1) : ℕ) * w = b - a := by
    rw [Nat.cast_add, add_mul, hw, add_halves]
  have hleft : (m + 1 : ℕ) * w = (a + b) / 2 - a := by
    rw [hw]
    ring
  have hright : (m + 1 : ℕ) * w = b - (a + b) / 2 := by
    rw [hw]
    ring
  rw [mul_left_comm, two_mul, composite_span_mul rule f (by omega) hwhole,
    composite_span_mul rule f (by omega) hleft,
    composite_span_mul rule f (by omega) hright, sum_range_add]
  congr 1
  refine sum_congr rfl fun i _ => ?_
  have hstart : a + (m + 1 + i : ℕ) * w = (a + b) / 2 + i * w := by
    rw [Nat.cast_add, add_mul, hw]
    ring
  rw [hstart]

/-- Trapezoids are the mean of left and right rectangles.  With twice as many
subintervals, left rectangles and trapezoids are the mean of themselves and the
middle rectangles, and Simpson's rule extrapolates the trapezoids.  Every rule
is additive over the halves of the interval. -/
theorem composite_relations (f : K → K) (a b : K) {n : ℕ} (hn : 1 ≤ n) :
    trapezoid.composite f a b n =
      (leftRectangles.composite f a b n +
        rightRectangles.composite f a b n) / 2 ∧
    leftRectangles.composite f a b (2 * n) =
      (leftRectangles.composite f a b n +
        middleRectangles.composite f a b n) / 2 ∧
    trapezoid.composite f a b (2 * n) =
      (trapezoid.composite f a b n + middleRectangles.composite f a b n) / 2 ∧
    simpson.composite f a b (2 * n) =
      (4 * trapezoid.composite f a b (2 * n) -
        trapezoid.composite f a b n) / 3 ∧
    ∀ rule : QuadratureRule, (rule = simpson → Even n) →
      rule.composite f a b (2 * n) =
        rule.composite f a ((a + b) / 2) n +
          rule.composite f ((a + b) / 2) b n := by
  obtain ⟨w, hw⟩ : ∃ w, n * w = b - a := by
    refine ⟨(b - a) / n, mul_div_cancel₀ _ ?_⟩
    exact_mod_cast Nat.one_le_iff_ne_zero.mp hn
  have hspan : ∀ rule : QuadratureRule, rule.span = 1 →
      rule.composite f a b n = ∑ i ∈ range n, rule.panel f (a + i * w) w :=
    fun _ hrule => composite_eq_sum_of_span hrule f hn hw
  have hhalves : ∀ rule : QuadratureRule, rule.span = 1 →
      rule.composite f a b (2 * n) = ∑ i ∈
        range n, rule.twoPanels f (a + i * w) (w / 2) :=
    fun _ hrule => composite_two_mul_of_span hrule f hn hw
  refine ⟨?_, ?_, ?_, ?_, ?_⟩
  · rw [hspan trapezoid rfl, hspan leftRectangles rfl,
      hspan rightRectangles rfl, ← sum_add_distrib, sum_div]
    exact sum_congr rfl fun i _ => panel_trapezoid_eq_mean f _ w
  · rw [hhalves leftRectangles rfl, hspan leftRectangles rfl,
      hspan middleRectangles rfl, ← sum_add_distrib, sum_div]
    exact sum_congr rfl fun i _ => twoPanels_leftRectangles f _ w
  · rw [hhalves trapezoid rfl, hspan trapezoid rfl, hspan middleRectangles rfl,
      ← sum_add_distrib, sum_div]
    exact sum_congr rfl fun i _ => twoPanels_trapezoid f _ w
  · rw [composite_simpson_two_mul f hn hw, hhalves trapezoid rfl,
      hspan trapezoid rfl, mul_sum, ← sum_sub_distrib, sum_div]
    exact sum_congr rfl fun i _ => panel_simpson_half f _ w
  · intro rule heven
    exact composite_two_mul_eq_add ⟨hn, heven⟩ f a b

/-- Four subintervals under a hyperbola: Simpson's rule from the trapezoids on
two and on four subintervals, and from the halves of the interval. -/
theorem composite_relations_hyperbola :
    simpson.composite (fun x : ℚ => 1 / x) 1 3 (2 * 2) =
        (4 * (67 / 60) - 7 / 6) / 3 ∧
      simpson.composite (fun x : ℚ => 1 / x) 1 3 (2 * 2) =
        25 / 36 + 73 / 180 := by
  have htwo : trapezoid.composite (fun x : ℚ => 1 / x) 1 3 2 = 7 / 6 := by
    decide +kernel
  have hfour : trapezoid.composite (fun x : ℚ => 1 / x) 1 3 (2 * 2) =
      67 / 60 := by decide +kernel
  have hfirst : simpson.composite (fun x : ℚ => 1 / x) 1 ((1 + 3) / 2) 2 =
      25 / 36 := by
    decide +kernel
  have hsecond : simpson.composite (fun x : ℚ => 1 / x) ((1 + 3) / 2) 3 2 =
      73 / 180 := by
    decide +kernel
  obtain ⟨-, -, -, hextrapolated, hadditive⟩ :=
    composite_relations (fun x : ℚ => 1 / x) 1 3 (one_le_two : 1 ≤ 2)
  constructor
  · rw [hextrapolated, hfour, htwo]
  · rw [hadditive simpson fun _ => even_two, hfirst, hsecond]

end QuadratureRule
end NumericalMethods
