import NumericalMethods.Proofs.LeastSquares.Correlation
import NumericalMethods.Proofs.LeastSquares.Optimality

/-!
# The share of the variance that a polynomial explains

The residuals of a least-squares polynomial are orthogonal to its values and to
constants.  So its values have the mean of the ordinates, and the deviations of
the ordinates are the hypotenuse of a right triangle whose legs are the
deviations of the values and the residuals.  The correlation of the ordinates
with the values is the cosine of an angle of this triangle, and the share of the
variance that is explained is its square.
-/

namespace NumericalMethods
namespace LeastSquares

open scoped InnerProductSpace

/-! ## The right triangle -/

section Triangle

variable {n m : ℕ} {p : Fin n → ℝ × ℝ} {c : Fin m → ℝ}

theorem Orthogonal.sum_value_mul_eq_zero (h : Orthogonal (List.ofFn p) c)
    (c' : Fin m → ℝ) :
    ∑ i, value c' (p i).1 * (value c (p i).1 - (p i).2) = 0 := by
  have hsum := sum_value_mul (List.ofFn p) c' fun q => value c q.1 - q.2
  rw [Finset.sum_eq_zero fun k _ => by rw [h k, mul_zero], List.map_ofFn,
    List.sum_ofFn] at hsum
  exact hsum

/-- The values have the mean of the ordinates. -/
theorem Orthogonal.mean_value_eq [NeZero m] (h : Orthogonal (List.ofFn p) c) :
    Scalar.mean (List.ofFn fun i => value c (p i).1) =
      Scalar.mean (List.ofFn fun i => (p i).2) := by
  have hzero := h 0
  rw [List.map_ofFn, List.sum_ofFn] at hzero
  simp only [Function.comp_def, Fin.coe_ofNat_eq_mod, Nat.zero_mod,
    pow_zero, one_mul, Finset.sum_sub_distrib] at hzero
  rw [mean_ofFn, mean_ofFn, sub_eq_zero.mp hzero]

theorem Orthogonal.deviations_sub [NeZero m] (h : Orthogonal (List.ofFn p) c)
    (i : Fin n) :
    (deviations (fun i => (p i).2) - deviations fun i => value c (p i).1) i =
      (p i).2 - value c (p i).1 := by
  rw [PiLp.sub_apply, deviations_apply, deviations_apply, h.mean_value_eq]
  ring

/-- The deviations of the values are orthogonal to the residuals. -/
theorem Orthogonal.inner_deviations [NeZero m]
    (h : Orthogonal (List.ofFn p) c) :
    ⟪deviations (fun i => value c (p i).1),
      deviations (fun i => (p i).2) - deviations fun i =>
        value c (p i).1⟫_ℝ = 0 := by
  have hvalues := h.sum_value_mul_eq_zero c
  have hconstants := h 0
  rw [List.map_ofFn, List.sum_ofFn] at hconstants
  simp only [Function.comp_def, Fin.coe_ofNat_eq_mod, Nat.zero_mod, pow_zero,
    one_mul] at hconstants
  rw [PiLp.inner_apply]
  simp only [h.deviations_sub, deviations_apply, RCLike.inner_apply,
    conj_trivial]
  calc
    ∑ i, ((p i).2 - value c (p i).1) *
        (value c (p i).1 - Scalar.mean (List.ofFn fun i => value c (p i).1)) =
        ∑ i, (Scalar.mean (List.ofFn fun i => value c (p i).1) *
          (value c (p i).1 - (p i).2) -
            value c (p i).1 * (value c (p i).1 - (p i).2)) :=
      Finset.sum_congr rfl fun i _ => by ring
    _ = 0 := by
      rw [Finset.sum_sub_distrib, ← Finset.mul_sum, hvalues, hconstants]; ring

theorem Orthogonal.residual_eq_norm_sq [NeZero m]
    (h : Orthogonal (List.ofFn p) c) :
    residual (List.ofFn p) c =
      ‖deviations (fun i => (p i).2) - deviations fun i =>
        value c (p i).1‖ ^ 2 := by
  rw [EuclideanSpace.real_norm_sq_eq, residual, List.map_ofFn, List.sum_ofFn]
  simp only [h.deviations_sub, Function.comp_def]

end Triangle

/-- The share of the longer side that a leg of a right triangle explains is the
square of the cosine between them. -/
theorem one_sub_norm_sq_div {V : Type*} [NormedAddCommGroup V]
    [InnerProductSpace ℝ V]
    {hypotenuse leg : V} (hne : hypotenuse ≠ 0) (hleg : leg ≠ 0)
    (horthogonal : ⟪leg, hypotenuse - leg⟫_ℝ = 0) :
    ⟪hypotenuse, leg⟫_ℝ / (‖hypotenuse‖ * ‖leg‖) = ‖leg‖ / ‖hypotenuse‖ ∧
      1 - ‖hypotenuse - leg‖ ^ 2 / ‖hypotenuse‖ ^ 2 =
        (‖leg‖ / ‖hypotenuse‖) ^ 2 := by
  have hnorm : ‖hypotenuse‖ ≠ 0 := norm_ne_zero_iff.mpr hne
  have hnorm' : ‖leg‖ ≠ 0 := norm_ne_zero_iff.mpr hleg
  have hinner : ⟪hypotenuse, leg⟫_ℝ = ‖leg‖ ^ 2 := by
    rw [inner_sub_right, real_inner_self_eq_norm_sq, sub_eq_zero] at horthogonal
    rw [real_inner_comm, horthogonal]
  have hpythagoras : ‖hypotenuse‖ ^ 2 = ‖leg‖ ^ 2 + ‖hypotenuse - leg‖ ^ 2 := by
    have h :=
      norm_add_sq_eq_norm_sq_add_norm_sq_of_inner_eq_zero leg (hypotenuse - leg)
      horthogonal
    rw [add_sub_cancel] at h
    linear_combination h
  constructor
  · rw [hinner]
    field_simp
  · field_simp
    linear_combination hpythagoras

/-! ## The two figures of a fit -/

section Fit

variable {weakCorrelation : ℝ} {model : Model} {data : DataSet ℝ}
  {degree : ℕ} {f : Fit ℝ}

/-- A polynomial model is fitted with orthogonal residuals. -/
theorem exists_orthogonal_of_fit_eq_ok
    (hdegree : model.degree? = some degree)
    (hfit : fit weakCorrelation model data = .ok f) :
    ∃ c : Fin (degree + 1) → ℝ, Orthogonal data.points c ∧
      f = describe weakCorrelation model (List.ofFn c) data := by
  obtain ⟨-, hobstacle, coefficients, hcoefficients, rfl⟩ :=
    fit_eq_ok_iff.mp hfit
  have hdistinct : degree + 1 ≤ (data.points.map Prod.fst).toFinset.card := by
    by_contra hfew
    rw [← DataSet.x, ← distinctCount_eq_card, ← parameters_of_degree hdegree,
      not_le] at hfew
    rw [obstacle?, if_pos hfew] at hobstacle
    cases hobstacle
  obtain ⟨c, hc, horthogonal⟩ := exists_orthogonal_of_distinct hdistinct
  rw [coefficients_of_degree hdegree, DataSet.x, DataSet.y, hc] at hcoefficients
  obtain rfl := Option.some.inj hcoefficients
  exact ⟨c, horthogonal, rfl⟩

theorem pearsonCorrelation_describe
    (hdegree : model.degree? = some degree) (c : Fin (degree + 1) → ℝ) :
    (describe weakCorrelation model (List.ofFn c) data).pearsonCorrelation =
      pearson (data.points.map Prod.snd)
        (data.points.map fun q => value c q.1) := by
  rw [← map_evaluate_of_degree hdegree]
  rfl

theorem coefficientOfDetermination_describe
    (hdegree : model.degree? = some degree) (c : Fin (degree + 1) → ℝ) :
    (describe weakCorrelation model (List.ofFn c)
      data).coefficientOfDetermination =
      let total := squaredDeviations (data.points.map Prod.snd)
        (Scalar.mean (data.points.map Prod.snd))
      if 0 < total then
        some (1 - residual data.points c / total)
      else none := by
  simp only [describe, map_evaluate_of_degree hdegree, sum_sq_differences]
  rfl

/-- A polynomial fit that has both figures explains the square of its
correlation, which is not negative: the share of the variance lies between none
and all of it. -/
theorem fit_determination
    (hdegree : model.degree? = some degree)
    (hfit : fit weakCorrelation model data = .ok f) {r share : ℝ}
    (hr : f.pearsonCorrelation = some r)
    (hshare : f.coefficientOfDetermination = some share) :
    share = r ^ 2 ∧ 0 ≤ r ∧ 0 ≤ share ∧ share ≤ 1 := by
  obtain ⟨c, hc, rfl⟩ := exists_orthogonal_of_fit_eq_ok hdegree hfit
  obtain ⟨p, hp⟩ : ∃ p : Fin data.points.length →
      ℝ × ℝ, data.points = List.ofFn p :=
    exists_eq_ofFn rfl
  rw [pearsonCorrelation_describe hdegree, hp, List.map_ofFn,
    List.map_ofFn] at hr
  rw [coefficientOfDetermination_describe hdegree, hp, List.map_ofFn] at hshare
  rw [hp] at hc
  obtain ⟨hne, hleg, rfl⟩ := pearson_ofFn_eq_some hr
  have hle := abs_correlation_le_one (Prod.snd ∘ p) ((fun q => value c q.1) ∘ p)
  obtain ⟨hcosine, hexplained⟩ :=
    one_sub_norm_sq_div hne hleg hc.inner_deviations
  dsimp only at hshare
  split at hshare
  · obtain rfl := Option.some.inj hshare
    rw [squaredDeviations_ofFn, hc.residual_eq_norm_sq]
    rw [correlation_ofFn, hcosine] at hle ⊢
    have hnonneg :
        0 ≤ ‖deviations ((fun q => value c q.1) ∘ p)‖ /
          ‖deviations (Prod.snd ∘ p)‖ := by
      positivity
    rw [abs_of_nonneg hnonneg] at hle
    refine ⟨hexplained, hnonneg, ?_, ?_⟩
    · exact (sq_nonneg _).trans_eq hexplained.symm
    · exact hexplained.trans_le (pow_le_one₀ hnonneg hle)
  · cases hshare

/-- Three points whose line rises by one half in each step. -/
def zigzag : DataSet ℝ :=
  ⟨[(-1, 0), (0, -1), (1, 1)]⟩

theorem fit_determination_zigzag :
    ∃ f, fit (1 / 2) .linear zigzag = .ok f ∧
      f.pearsonCorrelation = some (1 / 2) ∧
      f.coefficientOfDetermination = some (1 / 4) := by
  have hdistinct : 1 + 1 ≤ zigzag.x.toFinset.card := by
    norm_num [zigzag, DataSet.x]
  have hvalue : ∀ x : ℝ, value (![0, 1 / 2] : Fin (1 + 1) → ℝ) x = x / 2 := by
    intro x
    simp [value, Fin.sum_univ_succ]
    ring
  have horthogonal : Orthogonal zigzag.points
      (![0, 1 / 2] : Fin (1 + 1) → ℝ) := by
    intro k
    fin_cases k <;> norm_num [zigzag, hvalue]
  let f :=
    describe (1 / 2) .linear (List.ofFn (![0, 1 / 2] : Fin (1 + 1) → ℝ)) zigzag
  have hfit : fit (1 / 2) .linear zigzag = .ok f := by
    rw [fit, obstacle_of_degree rfl hdistinct, coefficients_of_degree rfl,
      DataSet.x, DataSet.y, polynomialFit_of_orthogonal hdistinct horthogonal]
    rfl
  have hshare : f.coefficientOfDetermination = some (1 / 4) := by
    rw [coefficientOfDetermination_describe rfl]
    norm_num [zigzag, squaredDeviations, Scalar.mean, residual, hvalue]
  have hr : f.pearsonCorrelation =
      pearson [0, -1, 1] [-1 / 2, 0 / 2, 1 / 2] := by
    rw [pearsonCorrelation_describe rfl]
    simp only [zigzag, List.map, hvalue]
  cases hpearson : pearson ([0, -1, 1] : List ℝ) [-1 / 2, 0 / 2, 1 / 2] with
  | none =>
      norm_num [pearson, isFlat, squaredDeviations, Scalar.mean] at hpearson
      cases hpearson
  | some r =>
      rw [hpearson] at hr
      obtain ⟨hsq, hnonneg, -, -⟩ := fit_determination rfl hfit hr hshare
      have hhalf : r = 1 / 2 := by nlinarith
      exact ⟨f, hfit, hhalf ▸ hr, hshare⟩

end Fit

end LeastSquares
end NumericalMethods
