import NumericalMethods.Proofs.LeastSquares.BestFit
import NumericalMethods.Proofs.LeastSquares.Optimality

/-!
# The order of the data

The points of a data set are put into another order by a permutation of their
indices.  Sums, counts and tests over all points do not see it: the same models
are applicable, with the same normal equations and the same statistics, and the
same fit is the best one.  Only the lists with an entry for each point come in
the new order.
-/

namespace NumericalMethods
namespace LeastSquares

open List

/-! ## Lists in another order -/

section Lists

variable {β γ δ : Type} {n : ℕ}

/-- The list whose entry `i` is entry `σ i` of another. -/
def reordered (σ : Equiv.Perm (Fin n)) (xs : List β) : List β :=
  (finRange n).filterMap fun i => xs[(σ i).val]?

variable (σ : Equiv.Perm (Fin n)) {xs : List β} {ys : List γ}

theorem map_reordered (f : β → γ) (xs : List β) :
    (reordered σ xs).map f = reordered σ (xs.map f) := by
  simp [reordered, map_filterMap]

theorem reordered_ofFn (u : Fin n → β) :
    reordered σ (ofFn u) = ofFn (u ∘ σ) := by
  simp [reordered, ofFn_eq_map]

theorem getElem?_reordered (h : xs.length = n) (i : Fin n) :
    (reordered σ xs)[i.val]? = xs[(σ i).val]? := by
  obtain ⟨u, rfl⟩ := exists_eq_ofFn h
  rw [reordered_ofFn]
  simp

theorem reordered_perm (h : xs.length = n) : reordered σ xs ~ xs := by
  obtain ⟨u, rfl⟩ := exists_eq_ofFn h
  rw [reordered_ofFn]
  exact σ.ofFn_comp_perm u

theorem length_reordered (h : xs.length = n) : (reordered σ xs).length = n :=
  (reordered_perm σ h).length_eq.trans h

theorem zipWith_reordered (f : β → γ → δ) (hx : xs.length = n)
    (hy : ys.length = n) :
    zipWith f (reordered σ xs) (reordered σ ys) =
      reordered σ (zipWith f xs ys) := by
  obtain ⟨u, rfl⟩ := exists_eq_ofFn hx
  obtain ⟨v, rfl⟩ := exists_eq_ofFn hy
  have hzip : ∀ (u : Fin n → β) (v : Fin n → γ),
      zipWith f (ofFn u) (ofFn v) = ofFn fun i => f (u i) (v i) :=
    fun u v => ext_getElem (by simp) fun i _ _ => by simp
  rw [reordered_ofFn, reordered_ofFn, hzip, hzip, reordered_ofFn]
  rfl

theorem zip_reordered (hx : xs.length = n) (hy : ys.length = n) :
    (reordered σ xs).zip (reordered σ ys) = reordered σ (xs.zip ys) :=
  zipWith_reordered σ Prod.mk hx hy

end Lists

/-! ## Sums and statistics -/

section Statistics

variable {K : Type} [Field K] [LinearOrder K] [ExactArithmetic K] {n : ℕ}
variable (σ : Equiv.Perm (Fin n)) {xs ys : List K}

theorem sum_reordered (h : xs.length = n) :
    Scalar.sum (reordered σ xs) = Scalar.sum xs := by
  rw [Scalar.sum_eq_sum, Scalar.sum_eq_sum, (reordered_perm σ h).sum_eq]

theorem sum_map_reordered (f : K → K) (h : xs.length = n) :
    Scalar.sum ((reordered σ xs).map f) = Scalar.sum (xs.map f) := by
  rw [map_reordered, sum_reordered σ (by rw [length_map, h])]

theorem sum_zipWith_reordered (f : K → K → K) (hx : xs.length = n)
    (hy : ys.length = n) :
    Scalar.sum (zipWith f (reordered σ xs) (reordered σ ys)) =
      Scalar.sum (zipWith f xs ys) := by
  rw [zipWith_reordered σ f hx hy, sum_reordered σ (by simp [hx, hy])]

theorem mean_reordered (h : xs.length = n) :
    Scalar.mean (reordered σ xs) = Scalar.mean xs := by
  rw [Scalar.mean, sum_reordered σ h, length_reordered σ h, Scalar.mean, h]

theorem squaredDeviations_reordered (m : K) (h : xs.length = n) :
    squaredDeviations (reordered σ xs) m = squaredDeviations xs m :=
  sum_map_reordered σ _ h

theorem pearson_reordered (hx : xs.length = n) (hy : ys.length = n) :
    pearson (reordered σ xs) (reordered σ ys) = pearson xs ys := by
  simp only [pearson, mean_reordered σ hx, mean_reordered σ hy,
    length_reordered σ hx, hx, squaredDeviations_reordered σ _ hx,
    squaredDeviations_reordered σ _ hy, productDeviations,
    sum_zipWith_reordered σ _ hx hy]

/-- The normal equations are sums over the points. -/
theorem polynomialFit_reordered (degree : ℕ) (hx : xs.length = n)
    (hy : ys.length = n) :
    polynomialFit (reordered σ xs) (reordered σ ys) degree =
      polynomialFit xs ys degree := by
  simp only [polynomialFit, normalEquations, moment, weighedMoment,
    sum_map_reordered σ _ hx, sum_zipWith_reordered σ _ hx hy]

end Statistics

end LeastSquares

/-! ## Reports in another order -/

section Reports

open LeastSquares

variable {α : Type} {n : ℕ} (σ : Equiv.Perm (Fin n))

/-- The data set whose point `i` is point `σ i` of another. -/
def DataSet.reordered (data : DataSet α) : DataSet α where
  points := LeastSquares.reordered σ data.points

/-- The fit with its lists over the points in another order. -/
def Fit.reordered (f : Fit α) : Fit α :=
  { f with
    data := f.data.reordered σ
    phiValues := LeastSquares.reordered σ f.phiValues
    differences := LeastSquares.reordered σ f.differences }

/-- The points of a fit, each with the value of the model and what is left of
the ordinate. -/
def Fit.pointsWithValues (f : Fit α) : List ((α × α) × α × α) :=
  f.data.points.zip (f.phiValues.zip f.differences)

/-- The report with the lists over the points in another order. -/
def FitReport.reordered (r : FitReport α) : FitReport α where
  best := r.best.reordered σ
  candidates := r.candidates.map (Fit.reordered σ)
  skipped := r.skipped

end Reports

namespace LeastSquares

open List

variable {n : ℕ} (σ : Equiv.Perm (Fin n)) {weakCorrelation : ℝ} {model : Model}
  {models : List Model} {data : DataSet ℝ}

theorem x_reordered (data : DataSet ℝ) :
    (data.reordered σ).x = reordered σ data.x :=
  map_reordered σ Prod.fst data.points

theorem y_reordered (data : DataSet ℝ) :
    (data.reordered σ).y = reordered σ data.y :=
  map_reordered σ Prod.snd data.points

theorem length_x (h : data.length = n) : data.x.length = n :=
  (length_map _).trans h

theorem length_y (h : data.length = n) : data.y.length = n :=
  (length_map _).trans h

theorem length_dataSet_reordered (h : data.length = n) :
    (data.reordered σ).length = n :=
  length_reordered σ h

/-! ## Single fits -/

theorem obstacle?_reordered (h : data.length = n) :
    obstacle? model (data.reordered σ) = obstacle? model data := by
  have hx := reordered_perm σ (length_x h)
  have hy := reordered_perm σ (length_y h)
  simp only [obstacle?, x_reordered, y_reordered, distinctCount_eq_card,
    hx.all_eq, hy.all_eq, toFinset_eq_of_perm _ _ hx]

theorem coefficients?_reordered (h : data.length = n) :
    coefficients? model (data.reordered σ) = coefficients? model data := by
  have hx := length_x h
  have hy := length_y h
  have hlogs : ∀ {xs : List ℝ}, xs.length = n →
      (xs.map Elementary.ln).length = n :=
    fun hlength => (length_map _).trans hlength
  cases model <;>
    simp only [coefficients?, x_reordered, y_reordered, map_reordered,
      polynomialFit_reordered σ _ hx hy,
      polynomialFit_reordered σ _ (hlogs hx) hy,
      polynomialFit_reordered σ _ hx (hlogs hy),
      polynomialFit_reordered σ _ (hlogs hx) (hlogs hy)]

theorem describe_reordered (coefficients : List ℝ) (h : data.length = n) :
    describe weakCorrelation model coefficients (data.reordered σ) =
      (describe weakCorrelation model coefficients data).reordered σ := by
  have hy := length_y h
  have hphi : (data.x.map (model.evaluate coefficients)).length = n :=
    (length_map _).trans (length_x h)
  have hdifferences : (zipWith (fun y phi => y - phi) data.y
      (data.x.map (model.evaluate coefficients))).length = n := by
    rw [length_zipWith, hy, hphi, min_self]
  simp only [describe, Fit.reordered, x_reordered, y_reordered, map_reordered,
    zipWith_reordered σ _ hy hphi, length_dataSet_reordered σ h, h,
    mean_reordered σ hy, squaredDeviations_reordered σ _ hy,
    pearson_reordered σ hy hphi,
    sum_reordered σ ((length_map _).trans hdifferences)]

theorem fit_reordered (h : data.length = n) :
    fit weakCorrelation model (data.reordered σ) =
      (fit weakCorrelation model data).map (Fit.reordered σ) := by
  rw [fit, fit, length_dataSet_reordered σ h, h, obstacle?_reordered σ h,
    coefficients?_reordered σ h]
  by_cases hfew : n < 2
  · rw [if_pos hfew, if_pos hfew]
    rfl
  · rw [if_neg hfew, if_neg hfew]
    cases obstacle? model data with
    | some obstacle => rfl
    | none =>
        cases coefficients? model data with
        | none => rfl
        | some coefficients =>
            exact congrArg Except.ok (describe_reordered σ coefficients h)

/-- A fit has an entry for each point in all of its lists. -/
theorem length_lists_of_fit_eq_ok
    {f : Fit ℝ} (hf : fit weakCorrelation model data = .ok f)
    (h : data.length = n) :
    f.data.points.length = n ∧ f.phiValues.length = n ∧
    f.differences.length = n := by
  obtain ⟨-, -, coefficients, -, rfl⟩ := fit_eq_ok_iff.mp hf
  have hx := length_x h
  have hy := length_y h
  exact ⟨h, by simp [describe, hx], by simp [describe, hx, hy]⟩

theorem pointsWithValues_reordered
    {f : Fit ℝ} (hf : fit weakCorrelation model data = .ok f)
    (h : data.length = n) (i : Fin n) :
    (f.reordered σ).pointsWithValues[i.val]? =
      f.pointsWithValues[(σ i).val]? := by
  obtain ⟨hpoints, hphi, hdifferences⟩ := length_lists_of_fit_eq_ok hf h
  have hvalues : (f.phiValues.zip f.differences).length = n := by
    rw [length_zip, hphi, hdifferences, min_self]
  have hall : f.pointsWithValues.length = n := by
    rw [Fit.pointsWithValues, length_zip, hpoints, hvalues, min_self]
  rw [← getElem?_reordered σ hall, Fit.pointsWithValues, Fit.pointsWithValues,
    Fit.reordered, DataSet.reordered, zip_reordered σ hphi hdifferences,
    zip_reordered σ hpoints hvalues]

/-! ## Reports -/

theorem attempts_reordered (h : data.length = n) :
    attempts weakCorrelation (data.reordered σ) models =
      ((attempts weakCorrelation data models).1.map (Fit.reordered σ),
        (attempts weakCorrelation data models).2) := by
  induction models with
  | nil => rfl
  | cons model models ih =>
      rw [attempts, attempts, ih, fit_reordered σ h]
      cases fit weakCorrelation model data with
      | error e => rfl
      | ok f => rfl

theorem better_reordered (best : Option (Fit ℝ)) (candidate : Fit ℝ) :
    better (best.map (Fit.reordered σ)) (candidate.reordered σ) =
      (better best candidate).map (Fit.reordered σ) := by
  cases best with
  | none => rfl
  | some current =>
      rw [better, Option.map_some, better,
        apply_ite (Option.map (Fit.reordered σ))]
      rfl

theorem foldl_better_reordered (fits : List (Fit ℝ)) (best : Option (Fit ℝ)) :
    (fits.map (Fit.reordered σ)).foldl better (best.map (Fit.reordered σ)) =
      (fits.foldl better best).map (Fit.reordered σ) := by
  induction fits generalizing best with
  | nil => rfl
  | cons candidate fits ih =>
      rw [map_cons, foldl_cons, foldl_cons, better_reordered, ih]

/-- The scan picks one of the fits it goes over. -/
theorem exists_foldl_better (first : Fit ℝ) (rest : List (Fit ℝ)) :
    ∃ best ∈ first :: rest, (first :: rest).foldl better none = some best := by
  have hscan : ∀ (fits : List (Fit ℝ)) (start : Fit ℝ),
      ∃ best ∈ start :: fits, fits.foldl better (some start) = some best := by
    intro fits
    induction fits with
    | nil => exact fun start => ⟨start, mem_cons_self, rfl⟩
    | cons candidate fits ih =>
        intro start
        rw [foldl_cons, better]
        split
        · obtain ⟨best, hmem, hbest⟩ := ih candidate
          exact ⟨best, mem_cons_of_mem start hmem, hbest⟩
        · obtain ⟨best, hmem, hbest⟩ := ih start
          refine ⟨best, ?_, hbest⟩
          rcases mem_cons.mp hmem with rfl | hlater
          · exact mem_cons_self
          · exact mem_cons_of_mem start (mem_cons_of_mem candidate hlater)
  exact hscan rest first

/-- The best fit of a report is one of the candidates, and these are fits of
the data. -/
theorem fits_of_report_eq_ok {r : FitReport ℝ}
    (hr : report weakCorrelation data = .ok r) :
    r.best ∈ r.candidates ∧ ∀ f ∈ r.candidates,
    fit weakCorrelation f.model data = .ok f := by
  rw [report] at hr
  split at hr
  · cases hr
  · dsimp only at hr
    cases hfits : (attempts weakCorrelation data Model.all).1 with
    | nil =>
        rw [hfits] at hr
        cases hr
    | cons first rest =>
        obtain ⟨best, hmem, hbest⟩ := exists_foldl_better first rest
        rw [hfits, hbest] at hr
        obtain rfl := Except.ok.inj hr
        exact ⟨hmem, fun f hf => (mem_attempts_iff.mp (hfits ▸ hf)).2.1⟩

/-- Over the real numbers one fit is enough for a report. -/
theorem exists_report_of_fit_eq_ok
    {f : Fit ℝ} (hf : fit weakCorrelation model data = .ok f) :
    ∃ r, report weakCorrelation data = .ok r := by
  have hmem : f ∈ (attempts weakCorrelation data Model.all).1 :=
    mem_attempts_iff.mpr ⟨mem_all _, model_of_fit_eq_ok hf ▸ hf, rfl⟩
  rw [report, if_neg (Nat.not_lt.mpr (fit_eq_ok_iff.mp hf).1)]
  dsimp only
  cases hfits : (attempts weakCorrelation data Model.all).1 with
  | nil => exact absurd (hfits ▸ hmem) not_mem_nil
  | cons first rest =>
      obtain ⟨best, -, hbest⟩ := exists_foldl_better first rest
      rw [hbest]
      exact ⟨_, rfl⟩

/-- A report on the same points in another order is the same report, with the
same models left out for the same reasons, the same coefficients and statistics
and the same best fit, or the same error.  Its lists over the points are in the
order of the points, in every fit. -/
theorem report_reordered
    (weakCorrelation : ℝ) (data : DataSet ℝ)
    (σ : Equiv.Perm (Fin data.length)) :
    report weakCorrelation (data.reordered σ) =
      (report weakCorrelation data).map (FitReport.reordered σ) ∧
    ∀ r, report weakCorrelation data = .ok r → r.best ∈ r.candidates ∧
      ∀ f ∈ r.candidates, ∀ i : Fin data.length,
        (f.reordered σ).pointsWithValues[i.val]? =
          f.pointsWithValues[(σ i).val]? := by
  constructor
  · have hbest :=
      foldl_better_reordered σ (attempts weakCorrelation data Model.all).1 none
    rw [report, report, length_dataSet_reordered σ rfl,
      attempts_reordered σ rfl]
    by_cases hfew : data.length < 2
    · rw [if_pos hfew, if_pos hfew]
      rfl
    · rw [if_neg hfew, if_neg hfew]
      dsimp only
      rw [Option.map_none] at hbest
      rw [hbest]
      cases (attempts weakCorrelation data Model.all).1.foldl better none with
      | none => rfl
      | some best => rfl
  · intro r hr
    obtain ⟨hmem, hfits⟩ := fits_of_report_eq_ok hr
    exact ⟨hmem, fun f hf => pointsWithValues_reordered σ (hfits f hf) rfl⟩

/-- Two points on a rising line. -/
def risingPair : DataSet ℝ :=
  ⟨[(0, 0), (1, 1)]⟩

/-- The two points trade places. -/
def exchange : Equiv.Perm (Fin risingPair.length) :=
  (Equiv.swap 0 1 : Equiv.Perm (Fin 2))

theorem report_reordered_risingPair :
    ∃ r, report (1 / 2) risingPair = .ok r ∧
      report (1 / 2) (⟨[(1, 1), (0, 0)]⟩ : DataSet ℝ) =
        .ok (r.reordered exchange) ∧
      r.best ∈ r.candidates ∧ ∀ f ∈ r.candidates,
        (f.reordered exchange).pointsWithValues[0]? =
          f.pointsWithValues[1]? := by
  obtain ⟨hsame, hlists⟩ := report_reordered (1 / 2) risingPair exchange
  have hexchanged : risingPair.reordered exchange = ⟨[(1, 1), (0, 0)]⟩ := rfl
  have hdistinct : 1 + 1 ≤ risingPair.x.toFinset.card := by
    norm_num [risingPair, DataSet.x]
  obtain ⟨c, hc, -⟩ := exists_polynomialFit_eq_some hdistinct
  have hline : fit (1 / 2) .linear risingPair =
      .ok (describe (1 / 2) .linear (List.ofFn c) risingPair) :=
    fit_eq_ok_iff.mpr ⟨le_rfl, obstacle_of_degree rfl hdistinct, _, hc, rfl⟩
  obtain ⟨r, hr⟩ := exists_report_of_fit_eq_ok hline
  obtain ⟨hbest, hvalues⟩ := hlists r hr
  rw [hexchanged, hr] at hsame
  exact ⟨r, hr, hsame, hbest, fun f hf => hvalues f hf (0 : Fin 2)⟩

end LeastSquares
end NumericalMethods
