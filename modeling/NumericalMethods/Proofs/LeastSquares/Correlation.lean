import Mathlib.Analysis.InnerProductSpace.PiL2
import NumericalMethods.LeastSquares.Statistics
import NumericalMethods.Proofs.Exact.Real
import NumericalMethods.Proofs.LeastSquares.NormalEquations

/-!
# Correlation as an angle

The deviations of a sample from its mean are a vector, and the correlation of
two samples is the cosine of the angle between their deviations.  By the
inequality of Cauchy and Schwarz it lies in `[-1, 1]` before it is clamped, and
it reaches an end of this interval exactly if one sample is a linear image of
the other.
-/

namespace NumericalMethods
namespace LeastSquares

open scoped InnerProductSpace

/-- The correlation of two samples before it is clamped. -/
noncomputable def correlation (a b : List ℝ) : ℝ :=
  productDeviations a b (Scalar.mean a) (Scalar.mean b) /
    √(squaredDeviations a (Scalar.mean a) * squaredDeviations b (Scalar.mean b))

/-- The variance of a sample is negligible beside its mean. -/
def NearlyConstant (a : List ℝ) : Prop :=
  squaredDeviations a (Scalar.mean a) / a.length ≤
    (1e-12 * max |Scalar.mean a| 1) ^ 2

noncomputable instance (a : List ℝ) : Decidable (NearlyConstant a) :=
  inferInstanceAs (Decidable (_ ≤ _))

theorem isFlat_iff_nearlyConstant (a : List ℝ) :
    isFlat (squaredDeviations a (Scalar.mean a)) (Scalar.mean a)
        (Scalar.ofNat a.length) = true ↔
      NearlyConstant a := by
  simp [isFlat, NearlyConstant]

/-! ## Deviations from the mean -/

section Deviations

variable {n : ℕ} {u v : Fin n → ℝ}

/-- How far each entry of a sample lies above its mean. -/
noncomputable def deviations (u : Fin n → ℝ) : EuclideanSpace ℝ (Fin n) :=
  WithLp.toLp _ fun i => u i - Scalar.mean (List.ofFn u)

@[simp]
theorem deviations_apply (u : Fin n → ℝ) (i : Fin n) :
    deviations u i = u i - Scalar.mean (List.ofFn u) :=
  rfl

theorem mean_ofFn (u : Fin n → ℝ) :
    Scalar.mean (List.ofFn u) = (∑ i, u i) / n := by
  rw [Scalar.mean, Scalar.sum_eq_sum, List.sum_ofFn, List.length_ofFn,
    Scalar.ofNat_eq_natCast]

theorem squaredDeviations_ofFn (u : Fin n → ℝ) :
    squaredDeviations (List.ofFn u) (Scalar.mean (List.ofFn u)) =
      ‖deviations u‖ ^ 2 := by
  rw [squaredDeviations, Scalar.sum_eq_sum, List.map_ofFn, List.sum_ofFn,
    EuclideanSpace.real_norm_sq_eq]
  simp

theorem productDeviations_ofFn (u v : Fin n → ℝ) :
    productDeviations (List.ofFn u) (List.ofFn v) (Scalar.mean (List.ofFn u))
      (Scalar.mean (List.ofFn v)) = ⟪deviations u, deviations v⟫_ℝ := by
  have hterms : List.zipWith (fun x y => (x - Scalar.mean (List.ofFn u)) *
      (y - Scalar.mean (List.ofFn v))) (List.ofFn u) (List.ofFn v) =
        List.ofFn fun i => deviations u i * deviations v i :=
    List.ext_getElem (by simp) fun i _ _ => by simp
  rw [productDeviations, hterms, Scalar.sum_eq_sum, List.sum_ofFn,
    PiLp.inner_apply]
  simp [mul_comm]

theorem correlation_ofFn (u v : Fin n → ℝ) :
    correlation (List.ofFn u) (List.ofFn v) =
      ⟪deviations u, deviations v⟫_ℝ / (‖deviations u‖ * ‖deviations v‖) := by
  rw [correlation, productDeviations_ofFn, squaredDeviations_ofFn,
    squaredDeviations_ofFn, ← mul_pow, Real.sqrt_sq (by positivity)]

/-- A sample is a linear image of another one if its deviations are a
multiple. -/
theorem deviations_eq_smul_iff (s : ℝ) :
    deviations v = s • deviations u ↔ ∃ t, ∀ i, v i = s * u i + t := by
  constructor
  · intro h
    refine ⟨Scalar.mean (List.ofFn v) - s * Scalar.mean (List.ofFn u),
      fun i => ?_⟩
    have hi : v i - Scalar.mean (List.ofFn v) =
      s * (u i - Scalar.mean (List.ofFn u)) :=
      congrArg (fun w : EuclideanSpace ℝ (Fin n) => w i) h
    linear_combination hi
  · rintro ⟨t, h⟩
    ext i
    have hn : (n : ℝ) ≠ 0 := by
      have := i.pos
      positivity
    have hmean : Scalar.mean (List.ofFn v) =
        s * Scalar.mean (List.ofFn u) + t := by
      simp only [mean_ofFn, h, Finset.sum_add_distrib, ← Finset.mul_sum,
        Finset.sum_const, Finset.card_univ, Fintype.card_fin, nsmul_eq_mul]
      field_simp
    simp only [deviations_apply, PiLp.smul_apply, smul_eq_mul, hmean, h i]
    ring

/-- A sample without any deviation is nearly constant. -/
theorem deviations_ne_zero (h : ¬ NearlyConstant (List.ofFn u)) :
    deviations u ≠ 0 := by
  intro hzero
  apply h
  rw [NearlyConstant, squaredDeviations_ofFn, hzero, norm_zero,
    zero_pow two_ne_zero, zero_div]
  positivity

end Deviations

/-! ## The correlation of two samples -/

section Pearson

variable {n : ℕ} {u v : Fin n → ℝ}

theorem abs_correlation_le_one (u v : Fin n → ℝ) :
    |correlation (List.ofFn u) (List.ofFn v)| ≤ 1 := by
  rw [correlation_ofFn]
  exact abs_real_inner_div_norm_mul_norm_le_one _ _

theorem clamp_eq_self {x : ℝ} (hx : |x| ≤ 1) : Scalar.clamp x (-1) 1 = x := by
  obtain ⟨hlow, hhigh⟩ := abs_le.mp hx
  rw [Scalar.clamp, if_neg hlow.not_gt, if_neg hhigh.not_gt]

/-- The clamp leaves the correlation alone. -/
theorem pearson_ofFn (u v : Fin n → ℝ) :
    pearson (List.ofFn u) (List.ofFn v) =
      if NearlyConstant (List.ofFn u) ∨ NearlyConstant (List.ofFn v) then none
      else some (correlation (List.ofFn u) (List.ofFn v)) := by
  have hclamp := clamp_eq_self (abs_correlation_le_one u v)
  rw [correlation] at hclamp ⊢
  simp only [pearson, Scalar.isFinite_eq_true, if_true,
    Scalar.sqrt_eq_sqrt, hclamp, List.length_ofFn, ← isFlat_iff_nearlyConstant,
    Bool.or_eq_true]

theorem pearson_ofFn_comm (u v : Fin n → ℝ) :
    pearson (List.ofFn u) (List.ofFn v) =
      pearson (List.ofFn v) (List.ofFn u) := by
  simp only [pearson_ofFn, correlation_ofFn, real_inner_comm (deviations v),
    mul_comm ‖deviations u‖, or_comm (a := NearlyConstant (List.ofFn u))]

theorem pearson_ofFn_eq_none_iff :
    pearson (List.ofFn u) (List.ofFn v) = none ↔
      NearlyConstant (List.ofFn u) ∨ NearlyConstant (List.ofFn v) := by
  rw [pearson_ofFn, ite_eq_left_iff, ← not_imp_not, not_not]
  simp

theorem pearson_ofFn_eq_some {r : ℝ}
    (hr : pearson (List.ofFn u) (List.ofFn v) = some r) :
    deviations u ≠ 0 ∧ deviations v ≠ 0 ∧
    correlation (List.ofFn u) (List.ofFn v) = r := by
  rw [pearson_ofFn] at hr
  split at hr
  · cases hr
  · rename_i hvaried
    rw [not_or] at hvaried
    exact ⟨deviations_ne_zero hvaried.1, deviations_ne_zero hvaried.2,
      Option.some.inj hr⟩

theorem eq_map_ofFn_iff (s t : ℝ) :
    List.ofFn v = (List.ofFn u).map (fun x => s * x + t) ↔
      ∀ i, v i = s * u i + t := by
  rw [List.map_ofFn, List.ofFn_inj, funext_iff]
  rfl

/-- The correlation of two samples of the same length is symmetric, and it is
missing exactly if one of them is nearly constant.  It is the quotient of their
deviations, which lies in `[-1, 1]` by itself.  It is at an end of this interval
exactly if the second sample is a linear image of the first one that is not
constant, and then it has the sign of the slope. -/
theorem pearson_cauchySchwarz {a b : List ℝ} (hlength : a.length = b.length) :
    pearson a b = pearson b a ∧
    (pearson a b = none ↔ NearlyConstant a ∨ NearlyConstant b) ∧
    ∀ r, pearson a b = some r →
      correlation a b ∈ Set.Icc (-1) 1 ∧ r = correlation a b ∧
      (|r| = 1 ↔ ∃ s t, s ≠ 0 ∧ b = a.map fun x => s * x + t) ∧
      ∀ s t, (b = a.map fun x => s * x + t) →
        (0 < s → r = 1) ∧ (s < 0 → r = -1) := by
  generalize hn : b.length = n at hlength
  obtain ⟨u, rfl⟩ := exists_eq_ofFn hlength
  obtain ⟨v, rfl⟩ := exists_eq_ofFn hn
  refine ⟨pearson_ofFn_comm u v, pearson_ofFn_eq_none_iff, fun r hr => ?_⟩
  obtain ⟨hu, -, rfl⟩ := pearson_ofFn_eq_some hr
  refine ⟨abs_le.mp (abs_correlation_le_one u v), rfl, ?_, ?_⟩
  · rw [correlation_ofFn, abs_real_inner_div_norm_mul_norm_eq_one_iff]
    simp only [eq_map_ofFn_iff, deviations_eq_smul_iff, exists_and_left]
    exact and_iff_right hu
  · intro s t hline
    have hsmul : deviations v = s • deviations u :=
      (deviations_eq_smul_iff s).mpr ⟨t, (eq_map_ofFn_iff s t).mp hline⟩
    rw [correlation_ofFn, hsmul]
    exact ⟨real_inner_div_norm_mul_norm_eq_one_of_ne_zero_of_pos_mul hu,
      real_inner_div_norm_mul_norm_eq_neg_one_of_ne_zero_of_neg_mul hu⟩

theorem pearson_cauchySchwarz_falling :
    pearson ([1, 2, 3] : List ℝ) [5, 3, 1] = some (-1) ∧
      pearson ([5, 3, 1] : List ℝ) [1, 2, 3] = some (-1) := by
  obtain ⟨hcomm, hnone, hsome⟩ :=
    pearson_cauchySchwarz (a := [1, 2, 3]) (b := [5, 3, 1]) rfl
  have hvaried : ¬ (NearlyConstant [1, 2, 3] ∨ NearlyConstant [5, 3, 1]) := by
    norm_num [NearlyConstant, squaredDeviations, Scalar.mean]
  have hline : ([5, 3, 1] : List ℝ) = [1, 2, 3].map fun x => -2 * x + 7 := by
    norm_num
  obtain ⟨r, hr⟩ := Option.ne_none_iff_exists'.mp (mt hnone.mp hvaried)
  have hfalling := ((hsome r hr).2.2.2 (-2) 7 hline).2 (by norm_num)
  rw [← hcomm, hr, hfalling]
  exact ⟨rfl, rfl⟩

end Pearson

end LeastSquares
end NumericalMethods
