import NumericalMethods.Proofs.LeastSquares.Optimality

/-!
# Data on a curve of the model

If the ordinates are exactly the values of a model at the abscissae, the fit
finds the coefficients again.  A polynomial leaves no residuals at its own
coefficients, and the fit is the only polynomial with orthogonal residuals.  The
curves become such polynomials when the logarithm is taken of the coordinates
their formula asks for.
-/

namespace NumericalMethods
namespace LeastSquares

/-! ## Points on a polynomial -/

section Polynomial

variable {K : Type} [Field K] [LinearOrder K] [IsStrictOrderedRing K]
  [ExactArithmetic K]

/-- Points on a polynomial determine it. -/
theorem polynomialFit_of_forall
    {degree : ℕ} {points : List (K × K)} {c : Fin (degree + 1) → K}
    (hdistinct : degree + 1 ≤ (points.map Prod.fst).toFinset.card)
    (hpoints : ∀ p ∈ points, p.2 = value c p.1) :
    polynomialFit (points.map Prod.fst) (points.map Prod.snd) degree =
      some (List.ofFn c) := by
  apply polynomialFit_of_orthogonal hdistinct
  intro k
  apply List.sum_eq_zero
  intro v hv
  obtain ⟨p, hp, rfl⟩ := List.mem_map.mp hv
  rw [hpoints p hp, sub_self, mul_zero]

omit [LinearOrder K] [IsStrictOrderedRing K] [ExactArithmetic K] in
theorem value_pair (a b x : K) : value ![a, b] x = a + b * x := by
  simp [value, Fin.sum_univ_two]

/-- Points on a line determine it. -/
theorem polynomialFit_of_line
    {points : List (K × K)} {a b : K}
    (hdistinct : 2 ≤ (points.map Prod.fst).toFinset.card)
    (hpoints : ∀ p ∈ points, p.2 = a + b * p.1) :
    polynomialFit (points.map Prod.fst) (points.map Prod.snd) 1 =
      some [a, b] := by
  have hline : ∀ p ∈ points, p.2 = value ![a, b] p.1 := by
    intro p hp
    rw [hpoints p hp, value_pair]
  rw [polynomialFit_of_forall hdistinct hline]
  simp [List.ofFn_succ]

end Polynomial

/-! ## Data on a model -/

/-- The ordinates are the values of the model at the abscissae. -/
def OnModel (model : Model) (coefficients : List ℝ) (data : DataSet ℝ) : Prop :=
  ∀ p ∈ data.points, p.2 = model.evaluate coefficients p.1

/-- The coefficients of a model: as many as it has parameters, with a positive
factor where the model takes logarithms of the ordinates. -/
structure Coefficients (model : Model) (coefficients : List ℝ) : Prop where
  length_eq : coefficients.length = model.parameters
  factor_pos : model = .exponential ∨ model = .power → 0 < coefficients.headD 0

/-- The abscissae are positive where the model takes their logarithms. -/
def PositiveAbscissae (model : Model) (data : DataSet ℝ) : Prop :=
  model = .logarithmic ∨ model = .power → ∀ x ∈ data.x, 0 < x

variable {model : Model} {coefficients : List ℝ} {data : DataSet ℝ}

/-- A curve that is no polynomial has two coefficients. -/
theorem Coefficients.exists_eq_pair
    (h : Coefficients model coefficients) (hmodel : model.degree? = none) :
    ∃ a b, coefficients = [a, b] := by
  have hparameters : model.parameters = 2 := by
    cases model <;> simp_all [Model.degree?, Model.parameters]
  exact List.length_eq_two.mp (h.length_eq.trans hparameters)

/-- Taking logarithms of positive abscissae keeps distinct ones distinct. -/
theorem card_toFinset_map_log
    {xs : List ℝ} (hpos : ∀ x ∈ xs, 0 < x) :
    (xs.map Real.log).toFinset.card = xs.toFinset.card := by
  have himage : (xs.map Real.log).toFinset = xs.toFinset.image Real.log := by
    ext v
    simp
  rw [himage]
  apply Finset.card_image_of_injOn
  intro x hx y hy hxy
  exact Real.log_injOn_pos (hpos x (by simpa using hx))
    (hpos y (by simpa using hy)) hxy

theorem pos_of_mem_x (hpos : ∀ x ∈ data.x, 0 < x) {p : ℝ × ℝ}
    (hp : p ∈ data.points) :
    0 < p.1 :=
  hpos p.1 (List.mem_map_of_mem hp)

/-! ## The fit finds the coefficients -/

theorem coefficients?_of_degree
    {degree : ℕ} (hdegree : model.degree? = some degree)
    (hcoefficients : Coefficients model coefficients)
    (hdistinct : model.parameters ≤ data.x.toFinset.card)
    (hdata : OnModel model coefficients data) :
    coefficients? model data = some coefficients := by
  have hcount := parameters_of_degree hdegree
  obtain ⟨c, rfl⟩ := exists_eq_ofFn (hcoefficients.length_eq.trans hcount)
  rw [coefficients_of_degree hdegree]
  apply polynomialFit_of_forall (hcount ▸ hdistinct)
  intro p hp
  rw [hdata p hp, evaluate_of_degree hdegree]

theorem coefficients?_exponential
    {a b : ℝ} (ha : 0 < a) (hdistinct : 2 ≤ data.x.toFinset.card)
    (hdata : OnModel .exponential [a, b] data) :
    coefficients? .exponential data = some [a, b] := by
  let points := data.points.map fun p => (p.1, Real.log p.2)
  have hx : data.x = points.map Prod.fst := by simp [points, DataSet.x]
  have hy : data.y.map Real.log = points.map Prod.snd := by
    simp [points, DataSet.y]
  have hline : ∀ p ∈ points, p.2 = Real.log a + b * p.1 := by
    intro p hp
    obtain ⟨q, hq, rfl⟩ := List.mem_map.mp hp
    have hvalue : q.2 = a * Real.exp (b * q.1) := hdata q hq
    rw [hvalue, Real.log_mul ha.ne' (Real.exp_ne_zero _), Real.log_exp]
  have hfit : polynomialFit data.x (data.y.map Real.log) 1 =
      some [Real.log a, b] := by
    rw [hx] at hdistinct ⊢
    rw [hy]
    exact polynomialFit_of_line hdistinct hline
  have hexp : fromLogarithms [Real.log a, b] = [a, b] :=
    congrArg (· :: [b]) (Real.exp_log ha)
  change (polynomialFit data.x (data.y.map Real.log) 1).map fromLogarithms = _
  rw [hfit, Option.map_some, hexp]

theorem coefficients?_logarithmic
    {a b : ℝ} (hpos : ∀ x ∈ data.x, 0 < x)
    (hdistinct : 2 ≤ data.x.toFinset.card)
    (hdata : OnModel .logarithmic [a, b] data) :
    coefficients? .logarithmic data = some [a, b] := by
  let points := data.points.map fun p => (Real.log p.1, p.2)
  have hx : data.x.map Real.log = points.map Prod.fst := by
    simp [points, DataSet.x]
  have hy : data.y = points.map Prod.snd := by simp [points, DataSet.y]
  have hline : ∀ p ∈ points, p.2 = a + b * p.1 := by
    intro p hp
    obtain ⟨q, hq, rfl⟩ := List.mem_map.mp hp
    exact hdata q hq
  rw [← card_toFinset_map_log hpos, hx] at hdistinct
  change polynomialFit (data.x.map Real.log) data.y 1 = _
  rw [hx, hy]
  exact polynomialFit_of_line hdistinct hline

theorem coefficients?_power
    {a b : ℝ} (ha : 0 < a) (hpos : ∀ x ∈ data.x, 0 < x)
    (hdistinct : 2 ≤ data.x.toFinset.card)
    (hdata : OnModel .power [a, b] data) :
    coefficients? .power data = some [a, b] := by
  let points := data.points.map fun p => (Real.log p.1, Real.log p.2)
  have hx : data.x.map Real.log = points.map Prod.fst := by
    simp [points, DataSet.x]
  have hy : data.y.map Real.log = points.map Prod.snd := by
    simp [points, DataSet.y]
  have hline : ∀ p ∈ points, p.2 = Real.log a + b * p.1 := by
    intro p hp
    obtain ⟨q, hq, rfl⟩ := List.mem_map.mp hp
    have hq0 : 0 < q.1 := pos_of_mem_x hpos hq
    have hvalue : q.2 = a * q.1 ^ b := hdata q hq
    rw [hvalue, Real.log_mul ha.ne' (Real.rpow_pos_of_pos hq0 b).ne',
      Real.log_rpow hq0]
  have hfit : polynomialFit (data.x.map Real.log) (data.y.map Real.log) 1 =
      some [Real.log a, b] := by
    rw [← card_toFinset_map_log hpos, hx] at hdistinct
    rw [hx, hy]
    exact polynomialFit_of_line hdistinct hline
  have hexp : fromLogarithms [Real.log a, b] = [a, b] :=
    congrArg (· :: [b]) (Real.exp_log ha)
  change (polynomialFit (data.x.map Real.log) (data.y.map Real.log) 1).map
    fromLogarithms = _
  rw [hfit, Option.map_some, hexp]

/-- Data on a model lead back to its coefficients. -/
theorem coefficients?_of_onModel
    (hcoefficients : Coefficients model coefficients)
    (hpos : PositiveAbscissae model data)
    (hdistinct : model.parameters ≤ data.x.toFinset.card)
    (hdata : OnModel model coefficients data) :
    coefficients? model data = some coefficients := by
  cases hdegree : model.degree? with
  | some degree =>
      exact coefficients?_of_degree hdegree hcoefficients hdistinct hdata
  | none =>
      obtain ⟨a, b, rfl⟩ := hcoefficients.exists_eq_pair hdegree
      cases model with
      | linear => cases hdegree
      | quadratic => cases hdegree
      | cubic => cases hdegree
      | exponential =>
          exact coefficients?_exponential (hcoefficients.factor_pos (.inl rfl))
            hdistinct hdata
      | logarithmic =>
          exact coefficients?_logarithmic (hpos (.inl rfl)) hdistinct hdata
      | power =>
          exact coefficients?_power (hcoefficients.factor_pos (.inr rfl))
            (hpos (.inr rfl)) hdistinct hdata

/-! ## Nothing is in the way of the fit -/

/-- The values of a curve with a positive factor are positive. -/
theorem y_pos_of_onModel
    (hmodel : model = .exponential ∨ model = .power)
    (hcoefficients : Coefficients model coefficients)
    (hpos : PositiveAbscissae model data)
    (hdata : OnModel model coefficients data) : ∀ y ∈ data.y, 0 < y := by
  intro y hy
  obtain ⟨p, hp, rfl⟩ := List.mem_map.mp hy
  have ha := hcoefficients.factor_pos hmodel
  obtain ⟨a, b, rfl⟩ :=
    hcoefficients.exists_eq_pair (by rcases hmodel with rfl | rfl <;> rfl)
  rw [hdata p hp]
  rcases hmodel with rfl | rfl
  · exact mul_pos ha (Real.exp_pos _)
  · exact mul_pos ha
      (Real.rpow_pos_of_pos (pos_of_mem_x (hpos (.inr rfl)) hp) b)

theorem obstacle?_of_onModel
    (hcoefficients : Coefficients model coefficients)
    (hpos : PositiveAbscissae model data)
    (hdistinct : model.parameters ≤ data.x.toFinset.card)
    (hdata : OnModel model coefficients data) :
    obstacle? model data = none := by
  have hy : ∀ hmodel : model = .exponential ∨
      model = .power, ∀ y ∈ data.y, 0 < y :=
    fun hmodel => y_pos_of_onModel hmodel hcoefficients hpos hdata
  rw [obstacle?, distinctCount_eq_card]
  simp only [not_lt.mpr hdistinct, if_false]
  cases model with
  | linear => rfl
  | quadratic => rfl
  | cubic => rfl
  | exponential => simpa using hy (.inl rfl)
  | logarithmic => simpa using hpos (.inl rfl)
  | power => simpa using ⟨hpos (.inr rfl), hy (.inr rfl)⟩

/-! ## The statistics of an exact fit -/

/-- The correlation of a sample with itself is one, if it has one. -/
theorem eq_one_of_pearson_self {y : List ℝ} {r : ℝ}
    (hr : pearson y y = some r) : r = 1 := by
  let v := squaredDeviations y (Scalar.mean y)
  have hproduct : productDeviations y y (Scalar.mean y) (Scalar.mean y) =
      v := by
    simp [v, productDeviations, squaredDeviations, List.zipWith_self, pow_two]
  have hv : 0 ≤ v := by
    simp only [v, squaredDeviations, Scalar.sum_eq_sum, Scalar.power_eq_pow]
    apply List.sum_nonneg
    intro d hd
    obtain ⟨x, -, rfl⟩ := List.mem_map.mp hd
    exact sq_nonneg _
  simp only [pearson, Scalar.isFinite_eq_true, if_true, hproduct] at hr
  change (if isFlat v (Scalar.mean y) (Scalar.ofNat y.length) ||
      isFlat v (Scalar.mean y) (Scalar.ofNat y.length) then none
    else some (Scalar.clamp (v / √(v * v)) (-1) 1)) = some r at hr
  split at hr
  · cases hr
  · rename_i hflat
    have hne : v ≠ 0 := by
      intro h0
      apply hflat
      rw [h0]
      simp only [isFlat, zero_div, Bool.or_self, Scalar.power_eq_pow]
      exact decide_eq_true (sq_nonneg _)
    rw [Real.sqrt_mul_self hv, div_self hne] at hr
    have hclamp : Scalar.clamp (1 : ℝ) (-1) 1 = 1 := by norm_num [Scalar.clamp]
    rw [hclamp] at hr
    exact (Option.some.inj hr).symm

theorem phiValues_describe_of_onModel
    (weakCorrelation : ℝ) (hdata : OnModel model coefficients data) :
    (describe weakCorrelation model coefficients data).phiValues = data.y := by
  change data.x.map (model.evaluate coefficients) = data.y
  rw [DataSet.x, DataSet.y, List.map_map]
  exact List.map_congr_left fun p hp => (hdata p hp).symm

/-- An exact fit has no differences, no deviation and no reason for a
warning. -/
theorem describe_of_onModel
    {weakCorrelation : ℝ} (hweak : weakCorrelation ≤ 1)
    (hdata : OnModel model coefficients data) :
    let f := describe weakCorrelation model coefficients data
    f.differences = List.replicate data.length 0 ∧ f.standardDeviation = 0 ∧
      f.warnings = [] := by
  have hphi := phiValues_describe_of_onModel weakCorrelation hdata
  have hdifferences :
      (describe weakCorrelation model coefficients data).differences =
      List.replicate data.length 0 := by
    change List.zipWith (fun y phi => y - phi) data.y
      (describe weakCorrelation model coefficients data).phiValues = _
    rw [hphi, List.zipWith_self]
    simp [DataSet.y, DataSet.length, Function.comp_def]
  refine ⟨hdifferences, ?_, ?_⟩
  · change √(Scalar.sum
      ((describe weakCorrelation model coefficients data).differences.map
      fun e => e * e) / _) = 0
    rw [hdifferences]
    simp
  · simp only [describe] at hphi ⊢
    rw [hphi]
    cases hr : pearson data.y data.y with
    | none => rfl
    | some r =>
        rw [eq_one_of_pearson_self hr]
        exact if_neg (by simpa using hweak)

/-- From data on a model with enough distinct abscissae, positive where their
logarithms are taken, the fit returns exactly the coefficients of the model.  It
leaves no differences and no deviation, and its correlation is not weak. -/
theorem fit_of_onModel
    {weakCorrelation : ℝ} (hweak : weakCorrelation ≤ 1)
    (hcoefficients : Coefficients model coefficients)
    (hpos : PositiveAbscissae model data)
    (hdistinct : model.parameters ≤ data.x.toFinset.card)
    (hdata : OnModel model coefficients data) :
    ∃ f, fit weakCorrelation model data = .ok f ∧ f.model = model ∧
      f.coefficients = coefficients ∧
      f.differences = List.replicate data.length 0 ∧
      f.standardDeviation = 0 ∧ ∀ r, .weakCorrelation r ∉ f.warnings := by
  have hlength : ¬ data.length < 2 := by
    have hcard := data.x.toFinset_card_le
    have hparameters : 2 ≤ model.parameters := by cases model <;> decide
    rw [DataSet.x, List.length_map] at hcard
    simp only [DataSet.length, DataSet.x] at *
    omega
  obtain ⟨hdifferences, hdeviation, hwarnings⟩ :=
    describe_of_onModel hweak hdata
  refine ⟨describe weakCorrelation model coefficients data, ?_, rfl, rfl,
    hdifferences, hdeviation, ?_⟩
  · rw [fit, if_neg hlength,
      obstacle?_of_onModel hcoefficients hpos hdistinct hdata,
      coefficients?_of_onModel hcoefficients hpos hdistinct hdata]
  · intro r
    rw [hwarnings]
    exact List.not_mem_nil

/-- Three points on the hyperbola `15 / x`. -/
def hyperbola : DataSet ℝ :=
  ⟨[(1, 15), (3, 5), (5, 3)]⟩

theorem fit_of_onModel_hyperbola :
    ∃ f, fit 1 .power hyperbola = .ok f ∧ f.model = .power ∧
      f.coefficients = [15, -1] ∧
      f.differences = [0, 0, 0] ∧ f.standardDeviation = 0 ∧
      ∀ r, .weakCorrelation r ∉ f.warnings := by
  have hcoefficients : Coefficients .power [15, -1] :=
    ⟨rfl, fun _ => by norm_num⟩
  have hpos : PositiveAbscissae .power hyperbola := by
    intro _
    norm_num [hyperbola, DataSet.x]
  have hdistinct : Model.power.parameters ≤ hyperbola.x.toFinset.card := by
    norm_num [hyperbola, DataSet.x, Model.parameters]
  have hdata : OnModel .power [15, -1] hyperbola := by
    have hcurve : ∀ x : ℝ, Model.power.evaluate [15, -1] x = 15 * x⁻¹ := by
      intro x
      rw [← Real.rpow_neg_one]
      rfl
    simp only [OnModel, hcurve]
    norm_num [hyperbola]
  exact fit_of_onModel le_rfl hcoefficients hpos hdistinct hdata

end LeastSquares
end NumericalMethods
