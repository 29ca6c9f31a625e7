import NumericalMethods.Proofs.Binary64.Arithmetic
import NumericalMethods.Proofs.Binary64.Sorting
import NumericalMethods.Proofs.LeastSquares.Basic

/-!
# The fit that a report picks

A report tries every model once, in the order of their numbers, and scans the
fits with a finite standard deviation.  A later fit replaces the best one so far
if its deviation is below a bound that lies under the deviation of the best one
by a margin.  The bound only falls in the scan: no fit ends up below the bound
of the one that is picked, and every fit in front of it has a larger deviation.
-/

namespace NumericalMethods
namespace LeastSquares

open Binary64

/-! ## The bound of the scan -/

/-- A fit replaces one of deviation `s` if its own deviation is smaller
than this. -/
def replacementBound (s : Float) : Float :=
  s - 1e-12 * Scalar.larger s 1

section Bound

variable {s t : Float}

theorem one_le_value_larger (hs : s.isFinite = true) :
    1 ≤ Binary64.value (larger s 1) := by
  have hle := chooses_larger.le_right s 1 hs rfl
  rw [value_one] at hle
  exact neg_le_neg_iff.mp hle

theorem isFinite_larger (hs : s.isFinite = true) :
    (larger s 1).isFinite = true := by
  rcases chooses_larger.either s 1 hs rfl with h | h
  · rwa [h]
  · rw [h]
    rfl

/-- The margin is finite and not negative. -/
theorem margin_nonneg (hs : s.isFinite = true) :
    (1e-12 * larger s 1).isFinite = true ∧
    0 ≤ Binary64.value (1e-12 * larger s 1) := by
  have hlarger := isFinite_larger hs
  have hone := one_le_value_larger hs
  have hrounds := rounds_mul (x := 1e-12) rfl hlarger
  rw [value_trillionth] at hrounds
  have hproduct : 0 ≤ 4951760157141521 / 2 ^ 92 *
      Binary64.value (larger s 1) := by positivity
  have hfinite : (1e-12 * larger s 1).isFinite = true := by
    apply hrounds.isFinite_of_abs_le hlarger
    rw [abs_of_nonneg hproduct, abs_of_nonneg (zero_le_one.trans hone)]
    exact mul_le_of_le_one_left (zero_le_one.trans hone) (by norm_num)
  refine ⟨hfinite, ?_⟩
  rw [hrounds.value_eq hfinite]
  exact nearest_nonneg hproduct

/-- The bound that something undercuts is finite and not above the deviation. -/
theorem replacementBound_le (hs : s.isFinite = true)
    (hlt : t < replacementBound s) :
    (replacementBound s).isFinite = true ∧
      Binary64.value (replacementBound s) ≤ Binary64.value s := by
  obtain ⟨hmargin, hnonneg⟩ := margin_nonneg hs
  have hfinite : (replacementBound s).isFinite = true :=
    isFinite_of_lt_sub hs hmargin hnonneg hlt
  refine ⟨hfinite, ?_⟩
  rw [replacementBound] at hfinite ⊢
  calc
    Binary64.value (s - 1e-12 * larger s 1) =
        nearest (Binary64.value s - Binary64.value (1e-12 * larger s 1)) :=
      (rounds_sub hs hmargin).value_eq hfinite
    _ ≤ nearest (Binary64.value s) := nearest_mono (sub_le_self _ hnonneg)
    _ = Binary64.value s := nearest_value hs

/-- What undercuts a fit is below everything that does not. -/
theorem value_lt_of_undercuts {u : Float} (hs : s.isFinite = true)
    (ht : t.isFinite = true) (hu : u.isFinite = true)
    (hlt : t < replacementBound s) (hle : ¬ u < replacementBound s) :
    Binary64.value t < Binary64.value u := by
  obtain ⟨hfinite, -⟩ := replacementBound_le hs hlt
  rw [lt_iff_value_lt ht hfinite] at hlt
  rw [lt_iff_value_lt hu hfinite, not_lt] at hle
  exact hlt.trans_le hle

theorem not_lt_replacementBound (hs : s.isFinite = true) :
    ¬ s < replacementBound s := by
  intro hlt
  obtain ⟨hfinite, hle⟩ := replacementBound_le hs hlt
  rw [lt_iff_value_lt hs hfinite] at hlt
  exact hlt.not_ge hle

/-- Nothing undercuts a fit that replaced another one, unless it undercut that
one, too. -/
theorem lt_replacementBound_trans {u : Float} (hs : s.isFinite = true)
    (ht : t.isFinite = true) (hu : u.isFinite = true)
    (hlt : t < replacementBound s) (hu_lt : u < replacementBound t) :
    u < replacementBound s := by
  obtain ⟨hfinite, -⟩ := replacementBound_le hs hlt
  obtain ⟨hfinite', hle⟩ := replacementBound_le ht hu_lt
  rw [lt_iff_value_lt ht hfinite] at hlt
  rw [lt_iff_value_lt hu hfinite'] at hu_lt
  rw [lt_iff_value_lt hu hfinite]
  exact (hu_lt.trans_le hle).trans hlt

end Bound

/-! ## The scan -/

/-- Of a list of fits, this one is picked: none undercuts it, and those in front
of it have larger deviations. -/
structure Picks (fits : List (Fit Float)) (best : Fit Float) : Prop where
  not_undercut : ∀ c ∈ fits, ¬ c.standardDeviation <
    replacementBound best.standardDeviation
  first : ∃ before after, fits = before ++ best :: after ∧
    ∀ c ∈ before, best.standardDeviation < c.standardDeviation

section Scan

variable {fits rest : List (Fit Float)} {best candidate : Fit Float}

theorem Picks.mem (h : Picks fits best) : best ∈ fits := by
  obtain ⟨before, after, rfl, -⟩ := h.first
  simp

theorem picks_singleton
    (hfinite : candidate.standardDeviation.isFinite = true) :
    Picks [candidate] candidate where
  not_undercut := by
    intro c hc
    rw [List.mem_singleton.mp hc]
    exact not_lt_replacementBound hfinite
  first := ⟨[], [], rfl, by simp⟩

/-- One step of the scan. -/
theorem Picks.better (h : Picks fits best)
    (hfinite : ∀ c ∈ fits ++ [candidate], c.standardDeviation.isFinite = true) :
    ∃ next, LeastSquares.better (some best) candidate = some next ∧
      Picks (fits ++ [candidate]) next := by
  have hbest := hfinite best (List.mem_append_left _ h.mem)
  have hcandidate := hfinite candidate (by simp)
  by_cases hlt : candidate.standardDeviation <
    replacementBound best.standardDeviation
  · refine ⟨candidate, if_pos hlt, ?_, fits, [], rfl, ?_⟩
    · intro c hc hundercut
      have hc_lt :=
        lt_replacementBound_trans hbest hcandidate (hfinite c hc) hlt hundercut
      rcases List.mem_append.mp hc with hearlier | hlast
      · exact h.not_undercut c hearlier hc_lt
      · rw [List.mem_singleton.mp hlast] at hundercut
        exact not_lt_replacementBound hcandidate hundercut
    · intro c hc
      have hc_finite := hfinite c (List.mem_append_left _ hc)
      rw [lt_iff_value_lt hcandidate hc_finite]
      exact value_lt_of_undercuts hbest hcandidate hc_finite hlt
        (h.not_undercut c hc)
  · obtain ⟨before, after, hfits, hfirst⟩ := h.first
    refine ⟨best, if_neg hlt, ?_, before, after ++ [candidate], ?_, hfirst⟩
    · intro c hc
      rcases List.mem_append.mp hc with hearlier | hlast
      · exact h.not_undercut c hearlier
      · rwa [List.mem_singleton.mp hlast]
    · rw [hfits, List.append_assoc, List.cons_append]

/-- The whole scan, from a fit that is picked from those before. -/
theorem Picks.foldl_better (h : Picks fits best)
    (hfinite : ∀ c ∈ fits ++ rest, c.standardDeviation.isFinite = true) :
    ∃ last, rest.foldl LeastSquares.better (some best) = some last ∧
      Picks (fits ++ rest) last := by
  induction rest generalizing fits best with
  | nil => exact ⟨best, rfl, by rwa [List.append_nil]⟩
  | cons candidate rest ih =>
      rw [List.append_cons] at hfinite ⊢
      obtain ⟨next, hnext, hpicks⟩ := h.better fun c hc =>
        hfinite c (List.mem_append_left _ hc)
      rw [List.foldl_cons, hnext]
      exact ih hpicks hfinite

/-- A scan that meets a fit picks one. -/
theorem exists_picks (hne : fits ≠ [])
    (hfinite : ∀ c ∈ fits, c.standardDeviation.isFinite = true) :
    ∃ best, fits.foldl LeastSquares.better none = some best ∧
      Picks fits best := by
  cases fits with
  | nil => exact absurd rfl hne
  | cons first rest =>
      exact (picks_singleton (hfinite first List.mem_cons_self)).foldl_better
        hfinite

end Scan

/-! ## The attempts -/

section Attempts

variable {α : Type} [Elementary α] {weakCorrelation : α} {data : DataSet α}
variable {model : Model} {models : List Model} {f : Fit α}

theorem model_of_fit_eq_ok (h : fit weakCorrelation model data = .ok f) :
    f.model = model := by
  obtain ⟨-, -, _, -, rfl⟩ := fit_eq_ok_iff.mp h
  rfl

variable (weakCorrelation data model models) in
/-- The first of some models is fitted with a finite deviation, or left out. -/
theorem attempts_cons_cases :
    (∃ f, fit weakCorrelation model data = .ok f ∧
      Scalar.isFinite f.standardDeviation = true ∧
      attempts weakCorrelation data (model :: models) =
        (f :: (attempts weakCorrelation data models).1,
          (attempts weakCorrelation data models).2)) ∨
    ((∀ f, fit weakCorrelation model data = .ok f →
        Scalar.isFinite f.standardDeviation = false) ∧
      ∃ reason, attempts weakCorrelation data (model :: models) =
        ((attempts weakCorrelation data models).1,
          ⟨model, reason⟩ :: (attempts weakCorrelation data models).2)) := by
  cases hfit : fit weakCorrelation model data with
  | error e => exact .inr ⟨nofun, .failed e, by rw [attempts, hfit]⟩
  | ok f =>
      cases hfinite : Scalar.isFinite f.standardDeviation with
      | true =>
          refine .inl ⟨f, rfl, hfinite, ?_⟩
          simp only [attempts, hfit, hfinite, if_true]
      | false =>
          refine .inr ⟨?_, .deviation f.standardDeviation, ?_⟩
          · rintro _ ⟨⟩
            exact hfinite
          · simp only [attempts, hfit, hfinite, Bool.false_eq_true, if_false]

/-- The fits are those with a finite deviation. -/
theorem mem_attempts_iff :
    f ∈ (attempts weakCorrelation data models).1 ↔
      f.model ∈ models ∧ fit weakCorrelation f.model data = .ok f ∧
        Scalar.isFinite f.standardDeviation = true := by
  induction models with
  | nil => simp [attempts]
  | cons model models ih =>
      rcases attempts_cons_cases weakCorrelation data model models with
        ⟨g, hg, hfinite, heq⟩ | ⟨hnone, reason, heq⟩
      · rw [heq, List.mem_cons, List.mem_cons, ih]
        have hmodel := model_of_fit_eq_ok hg
        constructor
        · rintro (rfl | ⟨hmem, h⟩)
          · rw [hmodel]
            exact ⟨.inl rfl, hg, hfinite⟩
          · exact ⟨.inr hmem, h⟩
        · rintro ⟨hmem | hmem, hf, h⟩
          · rw [hmem, hg] at hf
            cases hf
            exact .inl rfl
          · exact .inr ⟨hmem, hf, h⟩
      · rw [heq, List.mem_cons, ih]
        constructor
        · rintro ⟨hmem, h⟩
          exact ⟨.inr hmem, h⟩
        · rintro ⟨hmem | hmem, hf, h⟩
          · rw [hmem] at hf
            rw [hnone f hf] at h
            cases h
          · exact ⟨hmem, hf, h⟩

variable (weakCorrelation data models) in
/-- Every model is fitted or left out. -/
theorem attempts_perm :
    ((attempts weakCorrelation data models).1.map Fit.model ++
      (attempts weakCorrelation data models).2.map SkippedModel.model).Perm
        models := by
  induction models with
  | nil => exact .refl []
  | cons model models ih =>
      rcases attempts_cons_cases weakCorrelation data model models with
        ⟨f, hf, -, heq⟩ | ⟨-, reason, heq⟩
      · rw [heq, List.map_cons, model_of_fit_eq_ok hf]
        exact ih.cons model
      · rw [heq, List.map_cons]
        exact List.perm_middle.trans (ih.cons model)

variable (weakCorrelation data models) in
/-- Fits and models left out keep the order of the models. -/
theorem attempts_sublist :
    ((attempts weakCorrelation data models).1.map Fit.model).Sublist models ∧
      ((attempts weakCorrelation data models).2.map SkippedModel.model).Sublist
        models := by
  induction models with
  | nil => exact ⟨.slnil, .slnil⟩
  | cons model models ih =>
      rcases attempts_cons_cases weakCorrelation data model models with
        ⟨f, hf, -, heq⟩ | ⟨-, reason, heq⟩
      · rw [heq, List.map_cons, model_of_fit_eq_ok hf]
        exact ⟨ih.1.cons_cons model, ih.2.cons model⟩
      · rw [heq, List.map_cons]
        exact ⟨ih.1.cons model, ih.2.cons_cons model⟩

variable (weakCorrelation data) in
theorem attempts_ordered (hordered : models.Pairwise fun m n => m.id < n.id) :
    ((attempts weakCorrelation data models).1.Pairwise fun c d => c.model.id <
      d.model.id) ∧
      (attempts weakCorrelation data models).2.Pairwise fun s t =>
        s.model.id < t.model.id := by
  obtain ⟨hfits, hskipped⟩ := attempts_sublist weakCorrelation data models
  constructor
  · have h := hordered.sublist hfits
    rwa [List.pairwise_map] at h
  · have h := hordered.sublist hskipped
    rwa [List.pairwise_map] at h

end Attempts

theorem pairwise_id_all : Model.all.Pairwise fun m n => m.id < n.id := by
  decide

theorem mem_all (model : Model) : model ∈ Model.all := by
  cases model <;> decide

/-! ## The report -/

section Report

variable {weakCorrelation : Float} {data : DataSet Float}

/-- What a report says about the data it is made from. -/
structure ReportsOn (weakCorrelation : Float) (data : DataSet Float)
    (r : FitReport Float) : Prop where
  each_model_once :
    (r.candidates.map Fit.model ++ r.skipped.map SkippedModel.model).Perm
      Model.all
  candidates_ordered : r.candidates.Pairwise fun c d => c.model.id < d.model.id
  skipped_ordered : r.skipped.Pairwise fun s t => s.model.id < t.model.id
  /-- The candidates are the fits of single models that have a finite
  deviation. -/
  mem_candidates_iff : ∀ c, c ∈ r.candidates ↔
    fit weakCorrelation c.model data = .ok c ∧
    c.standardDeviation.isFinite = true
  best_mem : r.best ∈ r.candidates
  /-- No candidate is better than the best one by more than the margin. -/
  not_undercut : ∀ c ∈ r.candidates,
    ¬ c.standardDeviation <
      r.best.standardDeviation -
        1e-12 * Scalar.larger r.best.standardDeviation 1
  earlier_larger : ∀ c ∈ r.candidates, c.model.id < r.best.model.id →
    r.best.standardDeviation < c.standardDeviation

/-- In a list in the order of the numbers, a fit with a smaller number than the
one that is picked stands in front of it. -/
theorem Picks.lt_of_id_lt {fits : List (Fit Float)} {best c : Fit Float}
    (h : Picks fits best)
    (hordered : fits.Pairwise fun c d => c.model.id < d.model.id)
    (hc : c ∈ fits) (hid : c.model.id < best.model.id) :
    best.standardDeviation < c.standardDeviation := by
  obtain ⟨before, after, rfl, hfirst⟩ := h.first
  have hafter :=
    (List.pairwise_cons.mp (List.pairwise_append.mp hordered).2.1).1
  rcases List.mem_append.mp hc with hbefore | hrest
  · exact hfirst c hbefore
  · rcases List.mem_cons.mp hrest with rfl | hlater
    · exact absurd hid (lt_irrefl _)
    · exact absurd hid (hafter c hlater).not_gt

variable {candidates : List (Fit Float)} {skipped : List (SkippedModel Float)}
variable {best c : Fit Float}

theorem mem_fits_iff
    (hattempts : attempts weakCorrelation data Model.all =
      (candidates, skipped)) :
    c ∈ candidates ↔
      fit weakCorrelation c.model data = .ok c ∧
      c.standardDeviation.isFinite = true := by
  have hfits : candidates = (attempts weakCorrelation data Model.all).1 := by
    rw [hattempts]
  rw [hfits]
  exact mem_attempts_iff.trans (and_iff_right (mem_all c.model))

/-- The report on the fits of which one is picked. -/
theorem reportsOn_of_picks
    (hattempts : attempts weakCorrelation data Model.all =
      (candidates, skipped))
    (h : Picks candidates best) :
    ReportsOn weakCorrelation data ⟨best, candidates, skipped⟩ := by
  have hperm := attempts_perm weakCorrelation data Model.all
  obtain ⟨hcandidates, hskipped⟩ :=
    attempts_ordered weakCorrelation data pairwise_id_all
  rw [hattempts] at hperm hcandidates hskipped
  exact {
    each_model_once := hperm
    candidates_ordered := hcandidates
    skipped_ordered := hskipped
    mem_candidates_iff := fun c => mem_fits_iff hattempts
    best_mem := h.mem
    not_undercut := h.not_undercut
    earlier_larger := fun c hc hid => h.lt_of_id_lt hcandidates hc hid }

/-- Data of two points or more are reported on, unless no model has a fit with a
finite deviation. -/
theorem report_of_two_le (weakCorrelation : Float) (data : DataSet Float)
    (hlength : 2 ≤ data.length) :
    (∀ e, report weakCorrelation data = .error e →
      e = .noApplicableModel ∧ ∀ model f,
      fit weakCorrelation model data = .ok f →
        f.standardDeviation.isFinite = false) ∧
    ∀ r, report weakCorrelation data = .ok r →
      ReportsOn weakCorrelation data r := by
  obtain ⟨⟨candidates, skipped⟩, hattempts⟩ :
      ∃ made, attempts weakCorrelation data Model.all = made := ⟨_, rfl⟩
  rw [report, if_neg (by omega), hattempts]
  dsimp only
  by_cases hne : candidates = []
  · subst hne
    refine ⟨?_, nofun⟩
    rintro _ ⟨⟩
    refine ⟨rfl, fun model f hf => ?_⟩
    rw [← model_of_fit_eq_ok hf] at hf
    by_contra hfinite
    have hmem :=
      (mem_fits_iff hattempts).mpr ⟨hf, Bool.eq_true_of_not_eq_false hfinite⟩
    exact List.not_mem_nil hmem
  · obtain ⟨best, hbest, hpicks⟩ := exists_picks hne fun c hc =>
      ((mem_fits_iff hattempts).mp hc).2
    rw [hbest]
    refine ⟨nofun, ?_⟩
    rintro _ ⟨⟩
    exact reportsOn_of_picks hattempts hpicks

/-- Three points on a parabola, where all logarithms are out of reach. -/
def negativeSquares : DataSet Float :=
  ⟨[(-1, -1), (-2, -4), (-3, -9)]⟩

/-- The line fits the three points with a larger deviation than the parabola. -/
theorem report_negativeSquares :
    2 ≤ negativeSquares.length ∧
    ∃ r, report 0.5 negativeSquares = .ok r ∧
      r.candidates.map Fit.model = [.linear, .quadratic] ∧
      r.best.model = .quadratic ∧
      ReportsOn 0.5 negativeSquares r := by
  have hmodels : (report 0.5 negativeSquares).toOption.map
      (fun r => (r.candidates.map Fit.model, r.best.model)) =
        some ([.linear, .quadratic], .quadratic) := by
    decide +kernel
  cases hreport : report 0.5 negativeSquares with
  | error e => rw [hreport] at hmodels; cases hmodels
  | ok r =>
      rw [hreport] at hmodels
      obtain ⟨hcandidates, hbest⟩ := Prod.mk.inj (Option.some.inj hmodels)
      exact ⟨by decide, r, rfl, hcandidates, hbest,
        (report_of_two_le 0.5 negativeSquares (by decide)).2 r hreport⟩

end Report

end LeastSquares
end NumericalMethods
