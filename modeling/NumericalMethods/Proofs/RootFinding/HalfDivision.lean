import Mathlib.Algebra.Order.Archimedean.Basic
import Mathlib.Data.List.Range
import Mathlib.Order.Bounds.Basic
import NumericalMethods.Proofs.Exact.Rational
import NumericalMethods.Proofs.Iteration
import NumericalMethods.Proofs.Trace
import NumericalMethods.RootFinding.HalfDivision

/-!
# Half-division of a change of sign

The intervals of a half-division form a sequence that does not depend on
tolerance, cap or stored function values: each of them is the half of the one
before on which the sign changes, so the `k`-th is `2 ^ k` times narrower than
the first.  A run walks along this sequence.  It stops at the first midpoint
that is a root, at the first interval narrower than the tolerance, or at the
cap, whichever comes first.
-/

namespace NumericalMethods
namespace RootFinding

/-! ## Nested intervals -/

section Intervals

variable {K : Type} [Field K]

/-- The middle of an interval. -/
def centre (s : K × K) : K :=
  (s.1 + s.2) / 2

/-- What is recorded when an interval is halved. -/
def halving (f : K → K) (s : K × K) : HalfDivisionStep K where
  a := s.1
  b := s.2
  x := centre s
  fa := f s.1
  fb := f s.2
  fx := f (centre s)
  absDiff := s.2 - s.1

variable [LinearOrder K]

/-- The half of an interval on which the sign changes. -/
def signChangeHalf (f : K → K) (s : K × K) : K × K :=
  if f s.1 * f (centre s) < 0 then (s.1, centre s) else (centre s, s.2)

/-- The intervals halving leads to, from the one between `a` and `b` on. -/
def nested (f : K → K) (a b : K) : ℕ → K × K
  | 0 => (min a b, max a b)
  | k + 1 => signChangeHalf f (nested f a b k)

/-- The halvings of the first `k` intervals. -/
def halvings (f : K → K) (a b : K) (k : ℕ) : List (HalfDivisionStep K) :=
  (List.range k).map fun j => halving f (nested f a b j)

/-- A proper interval with opposite signs at its ends. -/
structure ChangesSign (f : K → K) (s : K × K) : Prop where
  lt : s.1 < s.2
  sign : f s.1 * f s.2 < 0

/-- No midpoint of the first `k` intervals is a root. -/
def RootFree (f : K → K) (a b : K) (k : ℕ) : Prop :=
  ∀ j < k, f (centre (nested f a b j)) ≠ 0

/-- The trace of a half-division of the interval between `a` and `b`. -/
structure Bisects (f : K → K) (a b : K)
    (made : List (HalfDivisionStep K)) : Prop where
  first : ∀ e ∈ made.head?, e.a = min a b ∧ e.b = max a b
  halves : made.IsChain fun e next =>
    next.a = e.a ∧ next.b = e.x ∨ next.a = e.x ∧ next.b = e.b
  width : ∀ k e, made[k]? = some e →
    e.b - e.a = |b - a| / 2 ^ k ∧ e.absDiff = |b - a| / 2 ^ k
  ends : ∀ e ∈ made, e.a < e.b ∧ e.fa = f e.a ∧ e.fb = f e.b ∧ e.fa * e.fb < 0
  middle : ∀ e ∈ made, e.x = (e.a + e.b) / 2 ∧ e.fx = f e.x

variable {f : K → K} {a b tolerance : K} {s : K × K} {n : ℕ}

theorem signChangeHalf_cases (f : K → K) (s : K × K) :
    signChangeHalf f s = (s.1, centre s) ∨
    signChangeHalf f s = (centre s, s.2) := by
  rw [signChangeHalf]
  split
  · exact .inl rfl
  · exact .inr rfl

theorem halvings_succ (f : K → K) (a b : K) (k : ℕ) :
    halvings f a b (k + 1) = halvings f a b k ++
      [halving f (nested f a b k)] := by
  simp [halvings, List.range_succ]

@[simp]
theorem length_halvings (f : K → K) (a b : K) (k : ℕ) :
    (halvings f a b k).length = k := by
  simp [halvings]

theorem getElem?_halvings_eq_some_iff {m k : ℕ} {e : HalfDivisionStep K} :
    (halvings f a b m)[k]? = some e ↔
      k < m ∧ e = halving f (nested f a b k) := by
  rw [halvings, List.getElem?_map, Option.map_eq_some_iff]
  constructor
  · rintro ⟨j, hj, rfl⟩
    obtain ⟨hk, rfl⟩ := List.getElem?_eq_some_iff.mp hj
    simpa using hk
  · rintro ⟨hk, rfl⟩
    exact ⟨k, List.getElem?_range hk, rfl⟩

variable [IsStrictOrderedRing K]

theorem width_signChangeHalf (f : K → K) (s : K × K) :
    (signChangeHalf f s).2 - (signChangeHalf f s).1 = (s.2 - s.1) / 2 := by
  rcases signChangeHalf_cases f s with h | h
  · rw [h]
    simp only [centre]
    ring
  · rw [h]
    simp only [centre]
    ring

theorem width_nested (f : K → K) (a b : K) (k : ℕ) :
    (nested f a b k).2 - (nested f a b k).1 = |b - a| / 2 ^ k := by
  induction k with
  | zero => simp [nested, max_sub_min_eq_abs, abs_sub_comm]
  | succ k ih => rw [nested, width_signChangeHalf, ih, pow_succ, div_div]

/-- If the left half has equal signs at its ends, the right one has not. -/
theorem ChangesSign.half (h : ChangesSign f s) (hroot : f (centre s) ≠ 0) :
    ChangesSign f (signChangeHalf f s) := by
  constructor
  · have hpos : 0 < (s.2 - s.1) / 2 := half_pos (sub_pos.mpr h.lt)
    rw [← width_signChangeHalf f s] at hpos
    exact sub_pos.mp hpos
  · rw [signChangeHalf]
    by_cases hleft : f s.1 * f (centre s) < 0
    · rwa [if_pos hleft]
    · rw [if_neg hleft]
      have hne : f s.1 ≠ 0 := left_ne_zero_of_mul h.sign.ne
      have hsame : 0 < f s.1 * f (centre s) :=
        lt_of_le_of_ne (not_lt.mp hleft) (mul_ne_zero hne hroot).symm
      rcases mul_pos_iff.mp hsame with ⟨ha, hc⟩ | ⟨ha, hc⟩
      · exact mul_neg_of_pos_of_neg hc (neg_of_mul_neg_right h.sign ha.le)
      · exact mul_neg_of_neg_of_pos hc (pos_of_mul_neg_right h.sign ha.le)

theorem changesSign_nested_zero (hsign : f a * f b < 0) :
    ChangesSign f (nested f a b 0) := by
  have hne : a ≠ b := by
    rintro rfl
    exact absurd hsign (not_lt.mpr (mul_self_nonneg _))
  constructor
  · exact min_lt_max.mpr hne
  · rcases lt_or_gt_of_ne hne with h | h
    · rwa [nested, min_eq_left h.le, max_eq_right h.le]
    · rwa [nested, min_eq_right h.le, max_eq_left h.le, mul_comm]

theorem changesSign_nested (hsign : f a * f b < 0) {k : ℕ}
    (hfree : RootFree f a b k) :
    ChangesSign f (nested f a b k) := by
  induction k with
  | zero => exact changesSign_nested_zero hsign
  | succ k ih =>
      have hbefore : RootFree f a b k :=
        fun j hj => hfree j (hj.trans k.lt_succ_self)
      exact (ih hbefore).half (hfree k k.lt_succ_self)

theorem bisects_halvings
    (hsign : f a * f b < 0) {m : ℕ} (hfree : ∀ k < m, RootFree f a b k) :
    Bisects f a b (halvings f a b m) where
  first e he := by
    rw [List.head?_eq_getElem?] at he
    obtain ⟨-, rfl⟩ := getElem?_halvings_eq_some_iff.mp he
    exact ⟨rfl, rfl⟩
  halves := by
    rw [halvings, List.isChain_map, List.isChain_range]
    intro k _
    rcases signChangeHalf_cases f (nested f a b k) with h | h
    · exact .inl (Prod.ext_iff.mp h)
    · exact .inr (Prod.ext_iff.mp h)
  width k e he := by
    obtain ⟨-, rfl⟩ := getElem?_halvings_eq_some_iff.mp he
    exact ⟨width_nested f a b k, width_nested f a b k⟩
  ends e he := by
    obtain ⟨k, he⟩ := List.mem_iff_getElem?.mp he
    obtain ⟨hk, rfl⟩ := getElem?_halvings_eq_some_iff.mp he
    obtain ⟨hlt, hchange⟩ := changesSign_nested hsign (hfree k hk)
    exact ⟨hlt, rfl, rfl, hchange⟩
  middle e he := by
    obtain ⟨k, he⟩ := List.mem_iff_getElem?.mp he
    obtain ⟨-, rfl⟩ := getElem?_halvings_eq_some_iff.mp he
    exact ⟨rfl, rfl⟩

/-! ## The first narrow interval -/

theorem exists_isLeast_width_lt [Archimedean K] (w : K)
    (htolerance : 0 < tolerance) :
    ∃ n, IsLeast {n : ℕ | w / 2 ^ n < tolerance} n := by
  classical
  obtain ⟨m, hm⟩ :=
    pow_unbounded_of_one_lt (w / tolerance) (one_lt_two (α := K))
  have hnarrow : ∃ n : ℕ, w / 2 ^ n < tolerance :=
    ⟨m, (div_lt_comm₀ (by positivity) htolerance).mpr hm⟩
  exact ⟨Nat.find hnarrow, Nat.find_spec hnarrow,
    fun k hk => Nat.find_min' hnarrow hk⟩

/-- The intervals in front of the first narrow one are wide, all others
are not. -/
theorem tolerance_le_width_iff
    (hn : IsLeast {n : ℕ | |b - a| / 2 ^ n < tolerance} n) {k : ℕ} :
    tolerance ≤ |b - a| / 2 ^ k ↔ k < n := by
  constructor
  · intro hwide
    by_contra hle
    have hshrink : |b - a| / 2 ^ k ≤ |b - a| / 2 ^ n :=
      div_le_div_of_nonneg_left (abs_nonneg _) (by positivity)
        (pow_le_pow_right₀ one_le_two (not_lt.mp hle))
    exact absurd hn.1 (not_lt.mpr (hwide.trans hshrink))
  · intro hk
    by_contra hnarrow
    exact absurd (hn.2 (not_le.mp hnarrow)) (not_le.mpr hk)

end Intervals

/-! ## The run along them -/

variable {K : Type} [Field K] [LinearOrder K] [IsStrictOrderedRing K]
  [ExactArithmetic K]
  {f : K → K} {a b tolerance : K} {s : K × K} {n : ℕ}

/-- An interval with the function at its ends. -/
def bracketOf (f : K → K) (s : K × K) : Bracket K :=
  ⟨s.1, s.2, f s.1, f s.2⟩

theorem middle_eq_centre (p : Bracket K) : p.middle = centre (p.a, p.b) := by
  rw [Bracket.middle, centre]
  norm_num

theorem width_bracketOf (h : s.1 < s.2) : (bracketOf f s).width = s.2 - s.1 :=
  abs_of_pos (sub_pos.mpr h)

/-- The left end is moved unless the sign changes on the left half. -/
theorem sameSign_centre_iff (h : ChangesSign f s) (hroot : f (centre s) ≠ 0) :
    Scalar.sameSign (f (centre s)) (f s.1) = true ↔
      ¬ f s.1 * f (centre s) < 0 := by
  have hne : f s.1 ≠ 0 := left_ne_zero_of_mul h.sign.ne
  have hsame : Scalar.sameSign (f (centre s)) (f s.1) = true ↔
      (f (centre s) < 0 ↔ f s.1 < 0) := decide_eq_true_iff
  rw [hsame, mul_neg_iff]
  rcases lt_or_gt_of_ne hne with ha | ha
  · rcases lt_or_gt_of_ne hroot with hc | hc
    · simp [ha, hc, ha.not_gt, hc.not_gt]
    · simp [ha, hc, ha.not_gt, hc.not_gt]
  · rcases lt_or_gt_of_ne hroot with hc | hc
    · simp [ha, hc, ha.not_gt, hc.not_gt]
    · simp [ha, hc, ha.not_gt, hc.not_gt]

theorem halve_bracketOf (h : ChangesSign f s) :
    halve f tolerance (bracketOf f s) =
      if tolerance ≤ s.2 - s.1 then
        if f (centre s) = 0 then
          .last (halving f s)
            { bracketOf f s with a := centre s, b := centre s }
        else .step (halving f s) (bracketOf f (signChangeHalf f s))
      else .halt := by
  have hentry : Scalar.abs ((bracketOf f s).a - (bracketOf f s).b) =
      s.2 - s.1 := by
    rw [Scalar.abs_eq_abs, abs_sub_comm]
    exact abs_of_pos (sub_pos.mpr h.lt)
  rw [halve, width_bracketOf h.lt]
  simp only [middle_eq_centre, hentry]
  by_cases hroot : f (centre s) = 0
  · simp [bracketOf, halving, hroot]
  · have hsame := sameSign_centre_iff h hroot
    by_cases hleft : f s.1 * f (centre s) < 0
    · simp [bracketOf, halving, hroot, signChangeHalf, hleft, hsame]
    · simp [bracketOf, halving, hroot, signChangeHalf, hleft, hsame]

theorem halve_nested
    (hn : IsLeast {n : ℕ | |b - a| / 2 ^ n < tolerance} n)
    (hsign : f a * f b < 0) {k : ℕ} (hfree : RootFree f a b k) :
    halve f tolerance (bracketOf f (nested f a b k)) =
      if k < n then
        if f (centre (nested f a b k)) = 0 then
          .last (halving f (nested f a b k))
            { bracketOf f (nested f a b k) with
              a := centre (nested f a b k)
              b := centre (nested f a b k) }
        else .step (halving f (nested f a b k))
          (bracketOf f (nested f a b (k + 1)))
      else .halt := by
  rw [halve_bracketOf (changesSign_nested hsign hfree), width_nested]
  simp only [tolerance_le_width_iff hn]
  rfl

/-- Halvings after which the run goes on lead along the nested intervals, none
of which had a root in the middle. -/
theorem exists_nested_of_steps
    (hn : IsLeast {n : ℕ | |b - a| / 2 ^ n < tolerance} n)
    (hsign : f a * f b < 0) {made : List (HalfDivisionStep K)} {s : Bracket K}
    (hsteps : Steps (halve f tolerance) (bracketOf f (nested f a b 0)) made s) :
    ∃ k ≤ n, RootFree f a b k ∧ made = halvings f a b k ∧
      s = bracketOf f (nested f a b k) := by
  induction hsteps with
  | refl => exact ⟨0, n.zero_le, fun j hj => absurd hj j.not_lt_zero, rfl, rfl⟩
  | snoc _ hround ih =>
      obtain ⟨k, -, hfree, rfl, rfl⟩ := ih
      rw [halve_nested hn hsign hfree] at hround
      by_cases hk : k < n
      · by_cases hroot : f (centre (nested f a b k)) = 0
        · simp [hk, hroot] at hround
        · simp only [hk, hroot, if_true, if_false, Round.step.injEq] at hround
          obtain ⟨rfl, rfl⟩ := hround
          refine ⟨k + 1, hk, ?_, (halvings_succ f a b k).symm, rfl⟩
          intro j hj
          rcases Nat.lt_succ_iff_lt_or_eq.mp hj with hj | rfl
          · exact hfree j hj
          · exact hroot
      · simp [hk] at hround

/-- A run ends at the first midpoint that is a root, or else at the first narrow
interval or at the cap. -/
theorem halving_run_cases
    (hn : IsLeast {n : ℕ | |b - a| / 2 ^ n < tolerance} n)
    (hsign : f a * f b < 0) {cap : ℕ}
    {run : Run (HalfDivisionStep K) (Bracket K)}
    (hrun : iterate (halve f tolerance) cap (bracketOf f (nested f a b 0)) =
      .ok run) :
    (∃ k < min n cap, RootFree f a b k ∧ f (centre (nested f a b k)) = 0 ∧
      run.entries = halvings f a b (k + 1) ∧
      run.state.a = centre (nested f a b k) ∧
      run.state.b = centre (nested f a b k)) ∨
    (RootFree f a b (min n cap) ∧ run.entries = halvings f a b (min n cap) ∧
      run.state = bracketOf f (nested f a b (min n cap))) := by
  obtain ⟨made, s, hsteps, hending⟩ := exists_steps_of_iterate_eq_ok hrun
  obtain ⟨k, hkn, hfree, rfl, rfl⟩ := exists_nested_of_steps hn hsign hsteps
  have hround := halve_nested hn hsign hfree
  cases hending with
  | capped hcap =>
      obtain rfl : k = cap := (length_halvings f a b k).symm.trans hcap
      rw [min_eq_right hkn]
      exact .inr ⟨hfree, rfl, rfl⟩
  | halted hcap hhalt =>
      rw [length_halvings] at hcap
      have hk : ¬ k < n := by
        intro hk
        rw [hround, if_pos hk] at hhalt
        split at hhalt <;> simp at hhalt
      obtain rfl : k = n := le_antisymm hkn (not_lt.mp hk)
      rw [min_eq_left hcap.le]
      exact .inr ⟨hfree, rfl, rfl⟩
  | settled hcap hlast =>
      rw [length_halvings] at hcap
      rw [hround] at hlast
      by_cases hk : k < n
      · by_cases hroot : f (centre (nested f a b k)) = 0
        · simp only [hk, hroot, if_true, Round.last.injEq] at hlast
          obtain ⟨rfl, rfl⟩ := hlast
          exact .inl ⟨k, lt_min hk hcap, hfree, hroot,
            (halvings_succ f a b k).symm, rfl, rfl⟩
        · simp [hk, hroot] at hlast
      · simp [hk] at hlast

/-! ## The outcome -/

theorem exists_halfDivision_eq_ok
    {f : ScalarFunction K} (settings : RootSettings K) (tolerance : K)
    (hsign : f.evaluate a * f.evaluate b < 0) :
    ∃ run, iterate (halve f.evaluate tolerance) settings.maxIterations
        (bracketOf f.evaluate (nested f.evaluate a b 0)) = .ok run ∧
      halfDivision settings f a b tolerance =
        .ok (halfDivisionResult settings f tolerance run) := by
  have hstart := changesSign_nested_zero hsign
  have hends : (if b < a then (b, a) else (a, b)) =
      nested f.evaluate a b 0 := by
    rw [nested]
    by_cases h : b < a
    · rw [if_pos h, min_eq_right h.le, max_eq_left h.le]
    · rw [if_neg h, min_eq_left (not_lt.mp h), max_eq_right (not_lt.mp h)]
  cases hrun : iterate (halve f.evaluate tolerance) settings.maxIterations
      (bracketOf f.evaluate (nested f.evaluate a b 0)) with
  | error stopped => exact stopped.1.elim
  | ok run =>
      refine ⟨run, rfl, ?_⟩
      rw [halfDivision, hends]
      simp only [hstart.sign, if_true]
      rw [bracketOf] at hrun
      rw [hrun]

section Result

variable {f : ScalarFunction K} {run : Run (HalfDivisionStep K) (Bracket K)}
  (settings : RootSettings K) (tolerance : K)

omit [IsStrictOrderedRing K] in
theorem hasWarning_halfDivisionResult_iff :
    (halfDivisionResult settings f tolerance run).hasWarning
        .iterationLimitExceeded = true ↔
      tolerance ≤ |run.state.b - run.state.a| := by
  rw [SolveResult.hasWarning, halfDivisionResult, result, capWarning,
    Warning.occurs_unless_settled, Bool.not_not]
  exact decide_eq_true_iff

/-- A root in the middle is the result, without an error. -/
theorem halfDivisionResult_of_root {k : ℕ} {x : K}
    (hentries : run.entries = halvings f.evaluate a b (k + 1))
    (ha : run.state.a = x) (hb : run.state.b = x) :
    (halfDivisionResult settings f tolerance run).iterations = k + 1 ∧
      (halfDivisionResult settings f tolerance run).value = x ∧
      (halfDivisionResult settings f tolerance run).errorValue = 0 := by
  refine ⟨?_, ?_, ?_⟩
  · change (run.entries.map _).length = k + 1
    rw [List.length_map, hentries, length_halvings]
  · change run.state.middle = x
    rw [middle_eq_centre, ha, hb, centre, add_self_div_two]
  · change |run.state.b - run.state.a| = 0
    rw [ha, hb, sub_self, abs_zero]

/-- Without a root the result is the middle of the interval that was reached. -/
theorem halfDivisionResult_of_rootFree {k : ℕ}
    (hsigned : ChangesSign f.evaluate (nested f.evaluate a b k))
    (hentries : run.entries = halvings f.evaluate a b k)
    (hstate : run.state = bracketOf f.evaluate (nested f.evaluate a b k)) :
    (halfDivisionResult settings f tolerance run).iterations = k ∧
      (halfDivisionResult settings f tolerance run).value =
        centre (nested f.evaluate a b k) ∧
      (halfDivisionResult settings f tolerance run).errorValue =
        |b - a| / 2 ^ k := by
  refine ⟨?_, ?_, ?_⟩
  · change (run.entries.map _).length = k
    rw [List.length_map, hentries, length_halvings]
  · change run.state.middle = _
    rw [middle_eq_centre, hstate]
    rfl
  · change run.state.width = _
    rw [hstate, width_bracketOf hsigned.lt, width_nested]

end Result

/-- Half-division of an interval with opposite signs at its ends answers.  Let
`n` be the first index at which the nested intervals are narrower than the
tolerance.  The trace follows these intervals.  The first midpoint in front of
`n` and of the cap that is a root ends the run there; without one the run
reaches `n` or the cap, and it has a warning if that was the cap. -/
theorem halfDivision_of_signChange
    [Archimedean K] (settings : RootSettings K) {f : ScalarFunction K}
    {a b tolerance : K} (hsign : f.evaluate a * f.evaluate b < 0)
    (htolerance : 0 < tolerance) :
    ∃ n, IsLeast {n : ℕ | |b - a| / 2 ^ n < tolerance} n ∧
    ∃ r, halfDivision settings f a b tolerance = .ok r ∧
      let middle := fun k => centre (nested f.evaluate a b k)
      let reached := min n settings.maxIterations
      (∃ made, r.steps = Step.number (made.map .halfDivision) ∧
        r.iterations = made.length ∧ Bisects f.evaluate a b made ∧
        ∀ k e, made[k]? = some e → e.x = middle k) ∧
      (∀ k < reached, f.evaluate (middle k) = 0 →
        (∀ j < k, f.evaluate (middle j) ≠ 0) →
          r.iterations = k + 1 ∧ r.value = middle k ∧ r.errorValue = 0) ∧
      ((∀ k < reached, f.evaluate (middle k) ≠ 0) →
        r.iterations = reached ∧ r.errorValue = |b - a| / 2 ^ reached ∧
        ∃ s, ChangesSign f.evaluate s ∧ s.2 - s.1 = |b - a| / 2 ^ reached ∧
          r.value = centre s) ∧
      (r.hasWarning .iterationLimitExceeded = true ↔
        (∀ k < reached, f.evaluate (middle k) ≠ 0) ∧
        settings.maxIterations < n) := by
  obtain ⟨n, hn⟩ := exists_isLeast_width_lt |b - a| htolerance
  obtain ⟨run, hrun, hresult⟩ :=
    exists_halfDivision_eq_ok settings tolerance hsign
  refine ⟨n, hn, _, hresult, ?_⟩
  intro middle reached
  rw [hasWarning_halfDivisionResult_iff]
  have hmiddle : ∀ m k e, (halvings f.evaluate a b m)[k]? = some e →
      e.x = middle k := by
    intro m k e he
    rw [(getElem?_halvings_eq_some_iff.mp he).2]
    rfl
  rcases halving_run_cases hn hsign hrun with
    ⟨k, hk, hfree, hroot, hentries, ha, hb⟩ | ⟨hfree, hentries, hstate⟩
  · have hbisects : Bisects f.evaluate a b (halvings f.evaluate a b (k + 1)) :=
      bisects_halvings hsign fun j hj i hi =>
        hfree i (hi.trans_le (Nat.lt_succ_iff.mp hj))
    refine ⟨⟨run.entries, rfl, List.length_map _, ?_, ?_⟩, ?_, ?_, ?_⟩
    · rwa [hentries]
    · rw [hentries]
      exact hmiddle (k + 1)
    · intro j _ hroot' hfree'
      obtain rfl : j = k := by
        rcases lt_trichotomy j k with h | h | h
        · exact absurd hroot' (hfree j h)
        · exact h
        · exact absurd hroot (hfree' k h)
      exact halfDivisionResult_of_root settings tolerance hentries ha hb
    · intro hnone
      exact absurd hroot (hnone k hk)
    · rw [ha, hb, sub_self, abs_zero]
      constructor
      · intro hle
        exact absurd htolerance (not_lt.mpr hle)
      · intro hnone
        exact absurd hroot (hnone.1 k hk)
  · have hsigned := changesSign_nested hsign hfree
    have hbisects : Bisects f.evaluate a b (halvings f.evaluate a b reached) :=
      bisects_halvings hsign fun j hj i hi => hfree i (hi.trans hj)
    obtain ⟨hiterations, hvalue, herror⟩ :=
      halfDivisionResult_of_rootFree settings tolerance hsigned hentries hstate
    refine ⟨⟨run.entries, rfl, List.length_map _, ?_, ?_⟩, ?_, ?_, ?_⟩
    · rwa [hentries]
    · rw [hentries]
      exact hmiddle reached
    · intro j hj hroot
      exact absurd hroot (hfree j hj)
    · intro _
      exact ⟨hiterations, herror, nested f.evaluate a b reached, hsigned,
        width_nested f.evaluate a b reached, hvalue⟩
    · have hwidth : |run.state.b - run.state.a| =
          |b - a| / 2 ^ reached := herror
      rw [hwidth, tolerance_le_width_iff hn, min_lt_iff]
      constructor
      · rintro (h | h)
        · exact absurd h (lt_irrefl n)
        · exact ⟨hfree, h⟩
      · intro h
        exact .inr h.2

/-- A function whose roots are not rational. -/
def squareLessTwo : ScalarFunction ℚ where
  evaluate x := x * x - 2

/-- The third halving leaves an interval as wide as the tolerance, which is not
narrow enough.  The second one is that of the interval from one to two. -/
theorem halfDivision_of_signChange_squareLessTwo :
    ∃ (r : SolveResult ℚ) (made : List (HalfDivisionStep ℚ)),
      halfDivision ⟨10, 0, 0, 0⟩ squareLessTwo 2 0 (1 / 4) = .ok r ∧
      r.steps = Step.number (made.map .halfDivision) ∧
      (∃ e : HalfDivisionStep ℚ, made[1]? = some e ∧ e.a = 1 ∧ e.b = 2 ∧
        e.x = 3 / 2 ∧
        e.fa = -1 ∧ e.fb = 2 ∧ e.fx = 1 / 4) ∧
      r.iterations = 4 ∧ r.errorValue = 1 / 8 ∧
      r.hasWarning .iterationLimitExceeded = false := by
  have hsign : squareLessTwo.evaluate 2 * squareLessTwo.evaluate 0 < 0 := by
    decide +kernel
  have htolerance : (0 : ℚ) < 1 / 4 := by norm_num
  obtain ⟨n, hn, r, hr, ⟨made, hsteps, hlength, hbisects, hmiddle⟩, -,
      hreached, hwarning⟩ :=
    halfDivision_of_signChange ⟨10, 0, 0, 0⟩ hsign htolerance
  have hleast : IsLeast {n : ℕ | |(0 : ℚ) - 2| / 2 ^ n < 1 / 4} 4 := by
    constructor
    · norm_num
    · intro k hk
      by_contra hlt
      have hwide : ∀ j < 4, ¬ |(0 : ℚ) - 2| / 2 ^ j < 1 / 4 := by decide +kernel
      exact hwide k (not_le.mp hlt) hk
  obtain rfl : n = 4 := hn.unique hleast
  have hfree : ∀ k < min 4 10,
      squareLessTwo.evaluate (centre (nested squareLessTwo.evaluate 2 0 k)) ≠
        0 := by
    decide +kernel
  obtain ⟨hiterations, herror, -⟩ := hreached hfree
  refine ⟨r, made, hr, hsteps, ?_, hiterations, ?_, ?_⟩
  · have hone : 1 < made.length := by
      rw [← hlength, hiterations]
      decide
    refine ⟨made[1], List.getElem?_eq_getElem hone, ?_⟩
    have hmem := List.getElem_mem hone
    have hwidth := (hbisects.width 1 _ (List.getElem?_eq_getElem hone)).1
    have hx : made[1].x = 3 / 2 := by
      rw [hmiddle 1 _ (List.getElem?_eq_getElem hone)]
      decide +kernel
    obtain ⟨hcentre, hfx⟩ := hbisects.middle _ hmem
    obtain ⟨-, hfa, hfb, -⟩ := hbisects.ends _ hmem
    rw [hx] at hcentre hfx
    norm_num at hwidth
    have ha : made[1].a = 1 := by linarith
    have hb : made[1].b = 2 := by linarith
    rw [ha] at hfa
    rw [hb] at hfb
    refine ⟨ha, hb, hx, ?_, ?_, ?_⟩
    · rw [hfa]
      decide +kernel
    · rw [hfb]
      decide +kernel
    · rw [hfx]
      decide +kernel
  · rw [herror]
    norm_num
  · rw [Bool.eq_false_iff, Ne, hwarning]
    intro h
    exact absurd h.2 (by decide)

end RootFinding
end NumericalMethods
