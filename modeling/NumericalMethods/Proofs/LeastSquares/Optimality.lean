import NumericalMethods.Proofs.Exact.Real
import NumericalMethods.Proofs.LeastSquares.Basic
import NumericalMethods.Proofs.LeastSquares.NormalEquations

/-!
# Polynomial models have the least standard deviation

Over the real numbers a polynomial model is fitted whenever there are more
distinct abscissae than its degree, and no other choice of coefficients
describes the data with a smaller standard deviation.
-/

namespace NumericalMethods
namespace LeastSquares

section

variable {K : Type} [Field K] [LinearOrder K] [ExactArithmetic K] {m : ℕ}

theorem horner_ofFn (c : Fin m → K) (x : K) :
    Scalar.horner (List.ofFn c) x = value c x := by
  induction m with
  | zero => simp [Scalar.horner, value]
  | succ m ih =>
      have htail := ih fun k => c k.succ
      rw [Scalar.horner] at htail ⊢
      rw [List.ofFn_succ, List.foldr_cons, htail, value, value,
        Fin.sum_univ_succ, Finset.sum_mul, Fin.val_zero, pow_zero,
        mul_one, add_comm]
      simp only [Fin.val_succ, pow_succ, mul_assoc]

end

/-! ## Fits -/

theorem distinctCount_eq_card (xs : List ℝ) :
    distinctCount xs = xs.toFinset.card :=
  distinctCount_eq_card_toFinset (fun _ _ => decide_eq_true_iff) xs

variable {weakCorrelation : ℝ} {model : Model} {data : DataSet ℝ} {degree m : ℕ}

theorem degree_cases (hdegree : model.degree? = some degree) :
    (model = .linear ∧ degree = 1) ∨ (model = .quadratic ∧ degree = 2) ∨
      (model = .cubic ∧ degree = 3) := by
  cases model <;> simp [Model.degree?] at hdegree <;> simp [hdegree]

theorem parameters_of_degree (hdegree : model.degree? = some degree) :
    model.parameters = degree + 1 := by
  rcases degree_cases hdegree with ⟨rfl, rfl⟩ | ⟨rfl, rfl⟩ | ⟨rfl, rfl⟩ <;> rfl

theorem coefficients_of_degree (hdegree : model.degree? = some degree) :
    coefficients? model data = polynomialFit data.x data.y degree := by
  rcases degree_cases hdegree with ⟨rfl, rfl⟩ | ⟨rfl, rfl⟩ | ⟨rfl, rfl⟩ <;> rfl

theorem obstacle_of_degree
    (hdegree : model.degree? = some degree)
    (hdistinct : degree + 1 ≤ data.x.toFinset.card) :
    obstacle? model data = none := by
  rw [obstacle?, distinctCount_eq_card, parameters_of_degree hdegree]
  simp only [not_lt.mpr hdistinct, if_false]
  rcases degree_cases hdegree with ⟨rfl, rfl⟩ | ⟨rfl, rfl⟩ | ⟨rfl, rfl⟩ <;> rfl

theorem evaluate_of_degree
    (hdegree : model.degree? = some degree) (c : Fin m → ℝ) (x : ℝ) :
    model.evaluate (List.ofFn c) x = value c x := by
  rw [← horner_ofFn]
  rcases degree_cases hdegree with ⟨rfl, rfl⟩ | ⟨rfl, rfl⟩ | ⟨rfl, rfl⟩ <;> rfl

theorem map_evaluate_of_degree (hdegree : model.degree? = some degree)
    (c : Fin m → ℝ) :
    data.x.map (model.evaluate (List.ofFn c)) = data.points.map fun p =>
      value c p.1 := by
  simp [DataSet.x, evaluate_of_degree hdegree]

theorem sum_sq_differences (c : Fin m → ℝ) :
    Scalar.sum ((List.zipWith (fun y phi => y - phi) data.y
      (data.points.map fun p => value c p.1)).map fun e => e * e) =
        residual data.points c := by
  have hdifferences : List.zipWith (fun y phi => y - phi) data.y
      (data.points.map fun p => value c p.1) = data.points.map fun p =>
        p.2 - value c p.1 := by
    simp [DataSet.y, List.zipWith_map]
  rw [hdifferences, Scalar.sum_eq_sum, List.map_map, residual]
  simp only [Function.comp_def, pow_two]

/-- The standard deviation of a polynomial is the root of its mean squared
residual. -/
theorem standardDeviation_describe
    (hdegree : model.degree? = some degree) (c : Fin m → ℝ) :
    (describe weakCorrelation model (List.ofFn c) data).standardDeviation =
      √(residual data.points c / data.length) := by
  simp only [describe, map_evaluate_of_degree hdegree, sum_sq_differences]
  rfl

theorem standardDeviation_le_of_residual_le
    (hdegree : model.degree? = some degree) {c c' : Fin m → ℝ}
    (hle : residual data.points c ≤ residual data.points c') :
    (describe weakCorrelation model (List.ofFn c) data).standardDeviation ≤
      (describe weakCorrelation model (List.ofFn c')
        data).standardDeviation := by
  rw [standardDeviation_describe hdegree, standardDeviation_describe hdegree]
  exact Real.sqrt_le_sqrt (div_le_div_of_nonneg_right hle (Nat.cast_nonneg _))

/-- Over more distinct abscissae than the degree, the fit of a polynomial is the
only one with the least sum of squared residuals.  So the polynomial models can
be fitted to all such data.  The fit has these coefficients, its standard
deviation is the root of their mean squared residual, and no polynomial of the
degree has a smaller one. -/
theorem fit_optimal :
    (∀ (degree : ℕ) (points : List (ℝ × ℝ)),
      degree + 1 ≤ (points.map Prod.fst).toFinset.card →
        ∃ c : Fin (degree + 1) → ℝ,
          polynomialFit (points.map Prod.fst) (points.map Prod.snd) degree =
            some (List.ofFn c) ∧
          ∀ c', c' ≠ c → residual points c < residual points c') ∧
    ∀ (weakCorrelation : ℝ) (model : Model) (degree : ℕ) (data : DataSet ℝ),
      model.degree? = some degree → degree + 1 ≤ data.x.toFinset.card →
        ∃ (f : Fit ℝ) (c : Fin (degree + 1) → ℝ),
          fit weakCorrelation model data = .ok f ∧
          f.coefficients = List.ofFn c ∧
          (∀ c', c' ≠ c → residual data.points c < residual data.points c') ∧
          f.standardDeviation = √(residual data.points c / data.length) ∧
          ∀ coefficients : List ℝ, coefficients.length = degree + 1 →
            f.standardDeviation ≤
              (describe weakCorrelation model coefficients
                data).standardDeviation := by
  refine ⟨fun degree points => exists_polynomialFit_eq_some, ?_⟩
  intro weakCorrelation model degree data hdegree hdistinct
  obtain ⟨c, hfit, hleast⟩ := exists_polynomialFit_eq_some hdistinct
  have hlength : ¬ data.length < 2 := by
    have hcard := data.x.toFinset_card_le
    rw [DataSet.x, List.length_map] at hcard
    rcases degree_cases hdegree with ⟨-, rfl⟩ | ⟨-, rfl⟩ | ⟨-, rfl⟩ <;>
      simp only [DataSet.length, DataSet.x] at * <;> omega
  refine ⟨describe weakCorrelation model (List.ofFn c) data, c, ?_, rfl, hleast,
    standardDeviation_describe hdegree c, ?_⟩
  · rw [fit, if_neg hlength, obstacle_of_degree hdegree hdistinct,
      coefficients_of_degree hdegree]
    simp only [DataSet.x, DataSet.y, hfit]
  · intro coefficients hcoefficients
    obtain ⟨c', rfl⟩ := exists_eq_ofFn hcoefficients
    refine standardDeviation_le_of_residual_le hdegree ?_
    by_cases heq : c' = c
    · rw [heq]
    · exact (hleast c' heq).le

/-- Three points on a curve that doubles. -/
def doubling : DataSet ℝ :=
  ⟨(List.range 3).map fun i : ℕ => (↑i, ((2 ^ i : ℕ) : ℝ))⟩

theorem fit_optimal_doubling :
    (∃ c : Fin 2 → ℝ, polynomialFit doubling.x doubling.y 1 =
      some (List.ofFn c) ∧
      ∀ c', c' ≠ c → residual doubling.points c < residual doubling.points c') ∧
    ∃ (f : Fit ℝ) (c : Fin 2 → ℝ),
      fit (1 / 2) .linear doubling = .ok f ∧ f.coefficients = List.ofFn c ∧
      (∀ c', c' ≠ c → residual doubling.points c <
        residual doubling.points c') ∧
      f.standardDeviation = √(residual doubling.points c / doubling.length) ∧
      ∀ coefficients : List ℝ, coefficients.length = 2 →
        f.standardDeviation ≤
          (describe (1 / 2) .linear coefficients
            doubling).standardDeviation := by
  have hdistinct : 1 + 1 ≤ doubling.x.toFinset.card := by
    norm_num [doubling, DataSet.x, List.range_succ]
  exact ⟨fit_optimal.1 1 doubling.points hdistinct,
    fit_optimal.2 (1 / 2) .linear 1 doubling rfl hdistinct⟩

end LeastSquares
end NumericalMethods
