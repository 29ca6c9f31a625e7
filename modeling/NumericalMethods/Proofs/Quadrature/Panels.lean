import Mathlib.Tactic.FieldSimp
import Mathlib.Tactic.LinearCombination
import NumericalMethods.Proofs.Exact.Basic
import NumericalMethods.Proofs.Quadrature.Polynomial
import NumericalMethods.Quadrature.Rule

/-!
# Composite rules panel by panel

A composite rule is a sum over panels of one subinterval, or of two for
Simpson's rule.  On a panel a polynomial whose degree does not exceed the order
of the rule is integrated up to a defect that only its leading coefficient
enters, with a constant for each rule.  The defects of equal panels add up to
the defect of the composite rule, a constant over a power of the number of
subintervals.
-/

namespace NumericalMethods
namespace QuadratureRule

open Finset Polynomial

/-- The number of subintervals of a panel. -/
def span : QuadratureRule → ℕ
  | leftRectangles | rightRectangles | middleRectangles | trapezoid => 1
  | simpson => 2

theorem span_ne_zero (rule : QuadratureRule) : rule.span ≠ 0 := by
  cases rule <;> decide

/-- The numbers of subintervals a rule is made for: any, or the even ones. -/
def Admits (rule : QuadratureRule) (n : ℕ) : Prop :=
  1 ≤ n ∧ (rule = simpson → Even n)

theorem Admits.exists_eq_span_mul {rule : QuadratureRule} {n : ℕ}
    (hn : rule.Admits n) :
    ∃ m, n = rule.span * (m + 1) := by
  obtain ⟨hpositive, heven⟩ := hn
  by_cases hrule : rule = simpson
  · obtain ⟨m, hm⟩ := heven hrule
    refine ⟨m - 1, ?_⟩
    rw [hrule, span]
    omega
  · have hspan : rule.span = 1 := by
      cases rule with
      | simpson => exact absurd rfl hrule
      | _ => rfl
    refine ⟨n - 1, ?_⟩
    rw [hspan]
    omega

theorem Admits.two_mul {rule : QuadratureRule} {n : ℕ} (hn : rule.Admits n) :
    rule.Admits (2 * n) := by
  refine ⟨?_, fun _ => even_two_mul n⟩
  have hpositive := hn.1
  omega

theorem admits_startingCount (rule : QuadratureRule) (initial : ℕ) :
    rule.Admits (rule.startingCount initial) := by
  rw [startingCount]
  split
  · refine ⟨by omega, fun _ => ?_⟩
    rw [Nat.even_iff]
    omega
  · rename_i hrule
    exact ⟨by omega, fun h => absurd h hrule⟩

/-! ## Sums over panels -/

section Sums

variable {K : Type} [Field K]

theorem trapezoids_eq_sum (g : ℕ → K) (m : ℕ) :
    g 0 + g (m + 1) + 2 * ∑ i ∈ range m, g (i + 1) =
      ∑ i ∈ range (m + 1), (g i + g (i + 1)) := by
  induction m with
  | zero => simp
  | succ m ih =>
      rw [sum_range_succ, sum_range_succ _ (m + 1), ← ih]
      ring

theorem parabolas_eq_sum (g : ℕ → K) (m : ℕ) :
    g 0 + g (2 * (m + 1)) + 4 * ∑ i ∈ range (m + 1), g (2 * i + 1) +
        2 * ∑ i ∈ range m, g (2 * i + 2) =
      ∑ i ∈ range (m + 1), (g (2 * i) + 4 * g (2 * i + 1) + g (2 * i + 2)) := by
  induction m with
  | zero =>
      simp only [zero_add, mul_zero, mul_one, range_zero, sum_empty,
        sum_range_one, add_zero]
      ring
  | succ m ih =>
      rw [sum_range_succ (fun i => g (2 * i + 1)) (m + 1),
        sum_range_succ (fun i => g (2 * i + 2)) m,
        sum_range_succ _ (m + 1), ← ih, show 2 * (m + 1) = 2 * m + 2 from rfl,
        show 2 * (m + 1 + 1) = 2 * m + 2 + 2 from rfl]
      ring

end Sums

/-! ## One panel -/

variable {K : Type} [Field K] [LinearOrder K] [IsStrictOrderedRing K]

/-- The nodes of a rule on a panel of subintervals of width one, with their
weights. -/
def nodes : QuadratureRule → List (ℚ × ℚ)
  | leftRectangles => [(0, 1)]
  | rightRectangles => [(1, 1)]
  | middleRectangles => [(1 / 2, 1)]
  | trapezoid => [(0, 1 / 2), (1, 1 / 2)]
  | simpson => [(0, 1 / 3), (1, 4 / 3), (2, 1 / 3)]

/-- What the value on a panel of a monomial with the order of the rule as its
degree has too much, for subintervals of width one. -/
def defect : QuadratureRule → ℚ
  | leftRectangles => -1 / 2
  | rightRectangles => 1 / 2
  | middleRectangles => -1 / 12
  | trapezoid => 1 / 6
  | simpson => 4 / 15

/-- The value of a rule on the panel that starts at `x`, with subintervals of
width `h`. -/
def panel (rule : QuadratureRule) (f : K → K) (x h : K) : K :=
  h * (rule.nodes.map fun node => (node.2 : K) * f (x + node.1 * h)).sum

omit [LinearOrder K] [IsStrictOrderedRing K] in
theorem panel_leftRectangles (f : K → K) (x h : K) :
    leftRectangles.panel f x h = h * f x := by
  simp [panel, nodes]

omit [LinearOrder K] [IsStrictOrderedRing K] in
theorem panel_rightRectangles (f : K → K) (x h : K) :
    rightRectangles.panel f x h = h * f (x + h) := by
  simp [panel, nodes]

theorem panel_middleRectangles (f : K → K) (x h : K) :
    middleRectangles.panel f x h = h * f (x + h / 2) := by
  have hhalf : ((1 / 2 : ℚ) : K) * h = h / 2 := by
    push_cast
    ring
  simp only [panel, nodes, hhalf, List.map_cons, List.map_nil,
    List.sum_singleton, Rat.cast_one, one_mul]

theorem panel_trapezoid (f : K → K) (x h : K) :
    trapezoid.panel f x h = h * ((f x + f (x + h)) / 2) := by
  simp only [panel, nodes, List.map_cons, List.map_nil, List.sum_cons,
    List.sum_nil]
  push_cast
  rw [zero_mul, add_zero, one_mul]
  ring

theorem panel_simpson (f : K → K) (x h : K) :
    simpson.panel f x h = h / 3 * (f x + 4 * f (x + h) + f (x + 2 * h)) := by
  simp only [panel, nodes, List.map_cons, List.map_nil, List.sum_cons,
    List.sum_nil]
  push_cast
  rw [zero_mul, add_zero, one_mul]
  ring

theorem panel_eq_integral_add
    {rule : QuadratureRule} {f : K[X]}
    (hf : f.natDegree ≤ rule.order) (x h : K) :
    rule.panel (fun y => f.eval y) x h =
      definiteIntegral f x (x + rule.span * h) +
        rule.defect * f.coeff rule.order * h ^ (rule.order + 1) := by
  have hlt : f.natDegree < rule.order + 1 := Nat.lt_succ_of_le hf
  cases rule
  all_goals
    simp only [panel_leftRectangles, panel_rightRectangles,
      panel_middleRectangles, panel_trapezoid, panel_simpson, definiteIntegral,
      eval_primitive hlt, eval_eq_sum_range' hlt, order, span, defect,
      sum_range_succ, sum_range_zero]
    push_cast
    field_simp
    ring

/-! ## The composite rule -/

variable [ExactArithmetic K]

theorem composite_eq_sum_panel
    (rule : QuadratureRule) (f : K → K) {a b h : K} {m : ℕ}
    (hh : h = (b - a) / (rule.span * (m + 1) : ℕ)) :
    rule.composite f a b (rule.span * (m + 1)) =
      ∑ i ∈ range (m + 1), rule.panel f (a + i * (rule.span * h)) h := by
  have hcount : (rule.span * (m + 1) : ℕ) * h = b - a := by
    rw [hh, mul_div_cancel₀]
    exact_mod_cast Nat.mul_ne_zero rule.span_ne_zero m.succ_ne_zero
  have hnode : ∀ i k : ℕ, a + (i + k : ℕ) * h = a + i * h + k * h := by
    intro i k
    push_cast
    ring
  have htwo : (2.0 : K) = 2 := by norm_num
  have hthree : (3.0 : K) = 3 := by norm_num
  have hfour : (4.0 : K) = 4 := by norm_num
  cases rule with
  | leftRectangles =>
      rw [span, one_mul] at hh ⊢
      simp only [composite, panel_leftRectangles, Scalar.ofNat_eq_natCast,
        Scalar.sumUpTo_eq_sum, ← hh, mul_sum, Nat.cast_one, one_mul]
  | rightRectangles =>
      rw [span, one_mul] at hh ⊢
      simp only [composite, panel_rightRectangles, Scalar.ofNat_eq_natCast,
        Scalar.sumUpTo_eq_sum, ← hh, mul_sum, hnode, Nat.cast_one, one_mul]
  | middleRectangles =>
      rw [span, one_mul] at hh ⊢
      have hhalf : ∀ i : ℕ, a + (i + 0.5) * h = a + i * h + h / 2 := by
        intro i
        ring
      simp only [composite, panel_middleRectangles, Scalar.ofNat_eq_natCast,
        Scalar.sumUpTo_eq_sum, ← hh, mul_sum, hhalf, Nat.cast_one, one_mul]
  | trapezoid =>
      rw [span, one_mul] at hh hcount ⊢
      have hsum := trapezoids_eq_sum (fun i => f (a + i * h)) m
      simp only [hcount, Nat.cast_zero, zero_mul, add_zero, add_sub_cancel,
        hnode, Nat.cast_one, one_mul] at hsum
      simp only [composite, panel_trapezoid, Scalar.ofNat_eq_natCast,
        Scalar.sumUpTo_eq_sum, ← hh, Nat.add_sub_cancel, hnode, htwo,
        Nat.cast_one, one_mul, ← mul_sum, ← sum_div, ← hsum]
      ring
  | simpson =>
      rw [span] at hh hcount ⊢
      have hodd : 2 * (m + 1) / 2 = m + 1 := by omega
      have heven : (2 * (m + 1) - 1) / 2 = m := by omega
      have hdouble : ∀ i : ℕ, a + (2 * i : ℕ) * h = a + i * (2 * h) := by
        intro i
        push_cast
        ring
      have hsum := parabolas_eq_sum (fun i => f (a + i * h)) m
      simp only [hcount, Nat.cast_zero, zero_mul, add_zero, add_sub_cancel,
        hnode, hdouble, Nat.cast_one, Nat.cast_ofNat, one_mul] at hsum
      simp only [composite, panel_simpson, Scalar.ofNat_eq_natCast,
        Scalar.sumUpTo_eq_sum, ← hh, hodd, heven, hnode, hdouble, htwo, hthree,
        hfour, Nat.cast_one, Nat.cast_ofNat, one_mul, ← mul_sum, hsum]

/-- The defect of a composite rule is a constant over the power of the number of
subintervals that its order names. -/
theorem composite_eq_integral_add
    {rule : QuadratureRule} {f : K[X]} (hf : f.natDegree ≤ rule.order) (a b : K)
    {n : ℕ} (hn : rule.Admits n) :
    rule.composite (fun x => f.eval x) a b n =
      definiteIntegral f a b +
        rule.defect / rule.span * f.coeff rule.order * (b - a) ^
          (rule.order + 1) /
          n ^ rule.order := by
  obtain ⟨m, rfl⟩ := hn.exists_eq_span_mul
  have hspan : (rule.span : K) ≠ 0 := Nat.cast_ne_zero.mpr rule.span_ne_zero
  have hm : ((m + 1 : ℕ) : K) ≠ 0 := by exact_mod_cast m.succ_ne_zero
  obtain ⟨h, hh⟩ : ∃ h, h = (b - a) / (rule.span * (m + 1) : ℕ) := ⟨_, rfl⟩
  have hwidth : (m + 1 : ℕ) * (rule.span * h) = b - a := by
    rw [hh]
    push_cast
    field_simp
  have hnext : ∀ i : ℕ, a + i * (rule.span * h) + rule.span * h =
      a + (i + 1 : ℕ) * (rule.span * h) := by
    intro i
    push_cast
    ring
  have hintegral :=
    sum_definiteIntegral f (fun i => a + i * (rule.span * h)) (m + 1)
  simp only [hwidth, Nat.cast_zero, zero_mul, add_zero, add_sub_cancel]
    at hintegral
  rw [composite_eq_sum_panel rule _ hh]
  simp only [panel_eq_integral_add hf, hnext, sum_add_distrib, hintegral,
    sum_const, card_range, nsmul_eq_mul]
  congr 1
  rw [hh, div_pow]
  push_cast
  field_simp
  ring

end QuadratureRule
end NumericalMethods
