import NumericalMethods.Proofs.Exact.Rational
import NumericalMethods.Proofs.Iteration
import NumericalMethods.Proofs.LinearSystem.Contraction

/-!
# Convergence of simultaneous iteration

What each sweep of a run on a strictly dominated system does, and what follows
for the whole run: movements shrink by the rate of the system, the unknowns stay
within a bound known in advance, and the last movement tells how far the
solution still is.
-/

namespace NumericalMethods
namespace Jacobi

variable {K : Type} [Field K] [LinearOrder K] [ExactArithmetic K] {n : ℕ}

/-! ## One sweep -/

theorem le_maxError (errors : Vector K n) (i : Fin n) :
    errors.get i ≤ maxError errors := by
  have hmem : errors.get i ∈ errors.toList := by
    rw [Grid.toList_eq_ofFn]
    exact List.mem_ofFn.mpr ⟨i, rfl⟩
  rw [maxError]
  split
  · rename_i hnil
    simp [hnil] at hmem
  · rename_i first rest hcons
    rw [hcons] at hmem
    exact Scalar.le_maximum first rest hmem

theorem exists_get_eq_maxError [NeZero n] (errors : Vector K n) :
    ∃ i, errors.get i = maxError errors := by
  rw [maxError]
  split
  · rename_i hnil
    have hlength := congrArg List.length hnil
    rw [Vector.length_toList] at hlength
    exact absurd hlength (NeZero.ne n)
  · rename_i first rest hcons
    have hmem := Scalar.maximum_mem first rest
    rw [← hcons, Grid.toList_eq_ofFn] at hmem
    exact List.mem_ofFn.mp hmem

theorem maxError_le_iff [NeZero n] {errors : Vector K n} {bound : K} :
    maxError errors ≤ bound ↔ ∀ i, errors.get i ≤ bound := by
  constructor
  · exact fun h i => (le_maxError errors i).trans h
  · intro h
    obtain ⟨i, hi⟩ := exists_get_eq_maxError errors
    exact hi ▸ h i

theorem max?_toList_eq_maxError [NeZero n] (errors : Vector K n) :
    errors.toList.max? = some (maxError errors) := by
  rw [List.max?_eq_some_iff, Grid.toList_eq_ofFn]
  constructor
  · exact List.mem_ofFn.mpr (exists_get_eq_maxError errors)
  · intro e he
    obtain ⟨i, rfl⟩ := List.mem_ofFn.mp he
    exact le_maxError errors i

/-- The sweep of a system in exact arithmetic. -/
def systemSweep (settings : Settings K) (w : LinearSystem K n) (tolerance : K) :
    State K n → Round (Breakdown K) (SweepStep K) (State K n) :=
  sweep settings w.iterationMatrix (Vector.ofFn w.offset) tolerance

variable {settings : Settings K} {w : LinearSystem K n} {tolerance : K}

/-- The state a sweep leads to, if all unknowns are within the bound. -/
def swept (w : LinearSystem K n) (s : State K n) : State K n where
  x := Vector.ofFn (w.jacobiMap s.x.get)
  errors := Vector.ofFn fun i => |w.jacobiMap s.x.get i - s.x.get i|

/-- The entry of a sweep. -/
def sweptEntry (w : LinearSystem K n) (s : State K n) : SweepStep K where
  x := (swept w s).x.toList
  maxError := maxError (swept w s).errors

theorem systemSweep_eq (s : State K n) :
    systemSweep settings w tolerance s =
      if (swept w s).x.toList.all (inBound settings) then
        if (sweptEntry w s).maxError ≤ tolerance then
          .last (sweptEntry w s) (swept w s)
        else .step (sweptEntry w s) (swept w s)
      else .fail (.leftBound settings.divergenceBound) := by
  have hx : Vector.zipWith (· + ·) (w.iterationMatrix.apply s.x)
      (Vector.ofFn w.offset) =
      (swept w s).x := by
    ext i hi
    have happly := Grid.get_apply w.iterationMatrix s.x ⟨i, hi⟩
    rw [Vector.getElem_zipWith, swept, Vector.getElem_ofFn, Vector.getElem_ofFn]
    exact congrArg (· + w.offset ⟨i, hi⟩) happly
  have herrors : (Vector.zipWith (· - ·) (swept w s).x s.x).map Scalar.abs =
      (swept w s).errors := by
    ext i hi
    rw [Vector.getElem_map, Vector.getElem_zipWith, swept, Vector.getElem_ofFn,
      Vector.getElem_ofFn, Scalar.abs_eq_abs]
    rfl
  rw [systemSweep, sweep]
  simp only [hx, herrors]
  rfl

theorem eq_swept_of_leads
    {s next : State K n} {entry : SweepStep K}
    (hleads : (systemSweep settings w tolerance s).Leads entry next) :
    entry = sweptEntry w s ∧ next = swept w s := by
  rw [systemSweep_eq] at hleads
  split at hleads
  · split at hleads
    · simpa [Round.Leads, eq_comm] using hleads
    · simpa [Round.Leads, eq_comm] using hleads
  · simp [Round.Leads] at hleads

@[simp]
theorem swept_x_get (w : LinearSystem K n) (s : State K n) (i : Fin n) :
    (swept w s).x.get i = w.jacobiMap s.x.get i := by
  rw [swept, Grid.get_ofFn]

@[simp]
theorem swept_errors_get (w : LinearSystem K n) (s : State K n) (i : Fin n) :
    (swept w s).errors.get i = |w.jacobiMap s.x.get i - s.x.get i| := by
  rw [swept, Grid.get_ofFn]

theorem swept_x_get_eq (w : LinearSystem K n) (s : State K n) :
    (swept w s).x.get = w.jacobiMap s.x.get :=
  funext (swept_x_get w s)

section

variable [IsStrictOrderedRing K] [NeZero n]

/-- A sweep moves the unknowns by less than the sweep before. -/
theorem maxError_swept_swept_le (w : LinearSystem K n) (s : State K n) :
    (sweptEntry w (swept w s)).maxError ≤
      w.rate * (sweptEntry w s).maxError := by
  refine maxError_le_iff.mpr fun i => ?_
  rw [swept_errors_get, swept_x_get, swept_x_get_eq]
  refine LinearSystem.abs_jacobiMap_sub_le
    (w.dominanceRatio_le_rate i) fun j => ?_
  rw [← swept_errors_get]
  exact le_maxError _ j

omit [IsStrictOrderedRing K] in
theorem maxError_swept_le_of_zero
    {s : State K n} (hs : ∀ i, s.x.get i = 0) :
    (sweptEntry w s).maxError ≤ w.largestOffset := by
  have hx : s.x.get = fun _ => 0 := funext hs
  refine maxError_le_iff.mpr fun i => ?_
  rw [swept_errors_get, hx, LinearSystem.jacobiMap_zero, sub_zero]
  exact w.abs_offset_le_largestOffset i

/-- The bound within which the unknowns stay is kept by a sweep. -/
theorem abs_swept_le
    (hw : w.StrictlyDominant) {s : State K n}
    (hs : ∀ i, |s.x.get i| ≤ w.largestOffset / (1 - w.rate)) (i : Fin n) :
    |(swept w s).x.get i| ≤ w.largestOffset / (1 - w.rate) := by
  rw [swept_x_get]
  calc |w.jacobiMap s.x.get i|
      ≤ w.rate * (w.largestOffset / (1 - w.rate)) + w.largestOffset :=
        LinearSystem.abs_jacobiMap_le (w.dominanceRatio_le_rate i) hs
          (w.abs_offset_le_largestOffset i)
    _ = w.largestOffset / (1 - w.rate) :=
        mul_div_one_sub_add (LinearSystem.rate_lt_one hw) _

/-! ## The whole run -/

/-- What is known of a run after the sweeps `made`. -/
structure Progress (w : LinearSystem K n) (made : List (SweepStep K))
    (s : State K n) : Prop where
  shrinking : made.IsChain fun a b => b.maxError ≤ w.rate * a.maxError
  bounded : ∀ i, |s.x.get i| ≤ w.largestOffset / (1 - w.rate)
  /-- In front of the first sweep the unknowns are zero. -/
  fresh : made = [] → ∀ i, s.x.get i = 0
  /-- Afterwards they come from the last sweep. -/
  latest : ∀ entry, made.getLast? = some entry →
    (∃ previous, s = swept w previous ∧ entry = sweptEntry w previous) ∧
      entry.maxError ≤ w.rate ^ (made.length - 1) * w.largestOffset

theorem Progress.start
    (hw : w.StrictlyDominant) {s : State K n} (hs : ∀ i, s.x.get i = 0) :
    Progress w [] s where
  shrinking := .nil
  bounded i := by
    rw [hs i, abs_zero]
    exact div_nonneg w.largestOffset_nonneg
      (sub_nonneg.mpr (LinearSystem.rate_lt_one hw).le)
  fresh _ := hs
  latest entry hentry := by simp at hentry

theorem Progress.sweep
    (hw : w.StrictlyDominant) {made : List (SweepStep K)} {s : State K n}
    (h : Progress w made s) :
    Progress w (made ++ [sweptEntry w s]) (swept w s) where
  shrinking := by
    rw [List.isChain_append]
    refine ⟨h.shrinking, .singleton _, fun entry hentry next hnext => ?_⟩
    obtain ⟨⟨previous, rfl, rfl⟩, -⟩ := h.latest entry hentry
    obtain rfl : sweptEntry w (swept w previous) = next := by simpa using hnext
    exact maxError_swept_swept_le w previous
  bounded := abs_swept_le hw h.bounded
  fresh hnil := by simp at hnil
  latest entry hentry := by
    obtain rfl : sweptEntry w s = entry := by simpa using hentry
    refine ⟨⟨s, rfl, rfl⟩, ?_⟩
    rw [List.length_append, List.length_singleton, Nat.add_sub_cancel]
    rcases List.eq_nil_or_concat made with rfl | ⟨front, last, rfl⟩
    · simpa using maxError_swept_le_of_zero (w := w) (h.fresh rfl)
    · rw [List.concat_eq_append] at h ⊢
      obtain ⟨⟨previous, rfl, rfl⟩, hlast⟩ := h.latest last (by simp)
      rw [List.length_append, List.length_singleton,
        Nat.add_sub_cancel] at hlast
      calc (sweptEntry w (swept w previous)).maxError
          ≤ w.rate * (sweptEntry w previous).maxError :=
            maxError_swept_swept_le w previous
        _ ≤ w.rate * (w.rate ^ front.length * w.largestOffset) :=
            mul_le_mul_of_nonneg_left hlast w.rate_nonneg
        _ = _ := by
          rw [List.length_append, List.length_singleton, pow_succ]; ring

end

/-! ## The outcome -/

/-- The state in front of the first sweep. -/
def initial : State K n :=
  ⟨Vector.ofFn fun _ => 0, Vector.ofFn fun _ => Scalar.infinity⟩

/-- The steps an outcome keeps: those of a result, or those completed before a
breakdown. -/
def recorded : Except (EngineError K) (LinearSolveResult K) → List (Step K)
  | .ok r => r.steps
  | .error failure =>
    match failure.partialTrace? with
    | some (.steps made) => made
    | _ => []

section

variable {s : LinearSystem K n}

theorem solve_eq_of_checks
    (htolerance : 0 < tolerance) (hdeterminant :
      isSingular settings s (Elimination.determinant s.matrix.toLists) = false)
    (hdivisors : smallPivot? settings (arrange s).system = none) :
    solve settings s tolerance =
      match iterate (systemSweep settings (arrange s).system tolerance)
        settings.maxIterations initial with
      | .ok run =>
        .ok (result settings (Elimination.determinant s.matrix.toLists)
          (arrange s) run)
      | .error (cause, made) => .error (.ofSteps cause (made.map .sweep)) := by
  rw [solve, if_neg (by simpa using htolerance)]
  simp only [hdeterminant, hdivisors]
  rfl

variable [IsStrictOrderedRing K] [NeZero n]

theorem progress_of_leads
    (hw : w.StrictlyDominant) (made : List (SweepStep K)) (s : State K n)
    (entry : SweepStep K) (next : State K n) (h : Progress w made s)
    (hleads : (systemSweep settings w tolerance s).Leads entry next) :
    Progress w (made ++ [entry]) next := by
  obtain ⟨rfl, rfl⟩ := eq_swept_of_leads hleads
  exact h.sweep hw

theorem progress_initial (hw : w.StrictlyDominant) :
    Progress w [] (initial : State K n) :=
  Progress.start hw fun i => by rw [initial, Grid.get_ofFn]

/-- Within the bound no sweep breaks down. -/
theorem systemSweep_ne_fail
    (hw : w.StrictlyDominant)
    (hbound : w.largestOffset / (1 - w.rate) ≤ settings.divergenceBound)
    {made : List (SweepStep K)} {s : State K n} (h : Progress w made s)
    (cause : Breakdown K) :
    systemSweep settings w tolerance s ≠ .fail cause := by
  have hall : (swept w s).x.toList.all (inBound settings) = true := by
    rw [List.all_eq_true, Grid.toList_eq_ofFn]
    intro v hv
    obtain ⟨i, rfl⟩ := List.mem_ofFn.mp hv
    have hi := (abs_swept_le hw h.bounded i).trans hbound
    simpa [inBound] using hi
  rw [systemSweep_eq, if_pos hall]
  split <;> simp

/-- A run that used up its sweeps moved by more than the tolerance in the last
one. -/
theorem lt_of_settled_eq_false
    (hw : w.StrictlyDominant) (hcap : 1 ≤ settings.maxIterations)
    {run : Run (SweepStep K) (State K n)}
    (hrun : iterate (systemSweep settings w tolerance)
      settings.maxIterations initial =
      .ok run)
    (hsettled : run.settled = false) :
    tolerance < w.rate ^ (settings.maxIterations - 1) * w.largestOffset := by
  obtain ⟨made, last, hsteps, hending⟩ := exists_steps_of_iterate_eq_ok hrun
  have hprogress : Progress w made last :=
    hsteps.invariant (progress_initial hw) (progress_of_leads hw)
  cases hending with
  | halted _ _ => simp at hsettled
  | settled _ _ => simp at hsettled
  | capped hlength =>
      cases hsteps with
      | refl => simp at hlength; omega
      | snoc hbefore hround =>
          rename_i front state entry
          obtain ⟨-, hentry⟩ := hprogress.latest entry (by simp)
          rw [hlength] at hentry
          refine lt_of_lt_of_le ?_ hentry
          obtain ⟨rfl, rfl⟩ := eq_swept_of_leads (.inl hround)
          rw [systemSweep_eq] at hround
          split at hround
          · split at hround
            · simp at hround
            · rename_i hmoved
              exact not_le.mp hmoved
          · simp at hround

omit [IsStrictOrderedRing K] [NeZero n] in
theorem settled_eq_false_of_mem
    {determinant : K} {run : Run (SweepStep K) (State K n)} {cap : ℕ}
    (hwarning : .iterationLimitExceeded cap ∈
      (result settings determinant (arrange s) run).warnings) :
    run.settled = false := by
  have harrange : .iterationLimitExceeded cap ∉ (arrange s).warnings := by
    rw [arrange]
    split
    · simp
    · split <;> simp
  cases hsettled : run.settled with
  | false => rfl
  | true =>
      rw [result, hsettled] at hwarning
      simp [harrange] at hwarning

/-- The last sweep tells how far the unknowns are from a solution. -/
theorem abs_sub_le_of_solves
    (hw : w.StrictlyDominant) {previous : State K n} {x : Fin n → K}
    (hx : w.Solves x) (i : Fin n) :
    |(swept w previous).x.get i - x i| ≤
      w.rate / (1 - w.rate) * maxError (swept w previous).errors := by
  rw [LinearSystem.solves_iff_jacobiMap_eq (LinearSystem.entry_self_ne_zero hw)]
    at hx
  rw [swept_x_get]
  refine LinearSystem.abs_jacobiMap_sub_fixed_le w.dominanceRatio_le_rate
    (LinearSystem.rate_lt_one hw) hx (fun j => ?_) i
  rw [← swept_errors_get]
  exact le_maxError _ j

/-- A run ends after a sweep. -/
theorem exists_eq_swept
    (hw : w.StrictlyDominant) (hcap : 1 ≤ settings.maxIterations)
    {run : Run (SweepStep K) (State K n)}
    (hrun : iterate (systemSweep settings w tolerance)
      settings.maxIterations initial =
      .ok run) :
    ∃ previous, run.state = swept w previous := by
  have hprogress : Progress w run.entries run.state :=
    invariant_of_iterate_eq_ok hrun (progress_initial hw) (progress_of_leads hw)
  have hentries : run.entries ≠ [] := by
    obtain ⟨made, last, -, hending⟩ := exists_steps_of_iterate_eq_ok hrun
    cases hending with
    | capped hlength =>
        refine List.ne_nil_of_length_pos ?_
        exact hlength ▸ hcap
    | settled _ _ => simp
    | halted _ hround =>
        rw [systemSweep_eq] at hround
        split at hround
        · split at hround <;> simp at hround
        · simp at hround
  obtain ⟨entry, hentry⟩ := Option.ne_none_iff_exists'.mp
    (mt List.getLast?_eq_none_iff.mp hentries)
  obtain ⟨⟨previous, hstate, -⟩, -⟩ := hprogress.latest entry hentry
  exact ⟨previous, hstate⟩

/-- A system whose rows, in the order of the iteration, are strictly dominated
has exactly one solution, and the iteration contracts towards it.  Every
recorded movement is at most `rate` times the one before, a bound of
`largestOffset / (1 - rate)` is never left, the cap on the sweeps is only
noticed when the geometric estimate of the last movement exceeds the tolerance,
and the last movement bounds the distance from the solution. -/
theorem solve_contracts
    {settings : Settings K} {s : LinearSystem K n} {tolerance : K}
    (htolerance : 0 < tolerance) (hcap : 1 ≤ settings.maxIterations)
    (hdeterminant :
      isSingular settings s (Elimination.determinant s.matrix.toLists) = false)
    (hdivisors : smallPivot? settings (arrange s).system = none)
    (hdominant : (arrange s).system.StrictlyDominant) :
    let q := (arrange s).system.rate
    let d := (arrange s).system.largestOffset
    q < 1 ∧
    (∃ sweeps : List (SweepStep K),
      recorded (solve settings s tolerance) = Step.number (sweeps.map .sweep) ∧
      sweeps.IsChain fun a b => b.maxError ≤ q * a.maxError) ∧
    (d / (1 - q) ≤ settings.divergenceBound →
      ∃ r, solve settings s tolerance = .ok r) ∧
    ∀ r, solve settings s tolerance = .ok r →
      (∀ cap, .iterationLimitExceeded cap ∈ r.warnings →
        tolerance < q ^ (settings.maxIterations - 1) * d) ∧
      ∃ x, s.Solves x ∧ (∀ y, s.Solves y → y = x) ∧
        ∃ v e, r.solution = List.ofFn v ∧ r.errors.max? = some e ∧
          ∀ i, |v i - x i| ≤ q / (1 - q) * e := by
  intro q d
  have hsolve := solve_eq_of_checks htolerance hdeterminant hdivisors
  have hinitial := progress_initial (n := n) hdominant
  have hleads : ∀ made state entry next,
      Progress (arrange s).system made state →
      (systemSweep settings (arrange s).system tolerance state).Leads
          entry next →
        Progress (arrange s).system (made ++ [entry]) next :=
    progress_of_leads hdominant
  refine ⟨LinearSystem.rate_lt_one hdominant, ?_, ?_, ?_⟩
  · cases hrun : iterate (systemSweep settings (arrange s).system tolerance)
        settings.maxIterations initial with
    | ok run =>
        rw [hsolve, hrun]
        exact ⟨run.entries, rfl,
          (invariant_of_iterate_eq_ok hrun hinitial hleads).shrinking⟩
    | error stopped =>
        obtain ⟨_, hprogress, _⟩ :=
          invariant_of_iterate_eq_error hrun hinitial hleads
        rw [hsolve, hrun]
        exact ⟨stopped.2, rfl, hprogress.shrinking⟩
  · intro hbound
    cases hrun : iterate (systemSweep settings (arrange s).system tolerance)
        settings.maxIterations initial with
    | ok run => exact ⟨_, by rw [hsolve, hrun]⟩
    | error stopped =>
        obtain ⟨_, hprogress, hfail⟩ :=
          invariant_of_iterate_eq_error hrun hinitial hleads
        exact absurd hfail (systemSweep_ne_fail hdominant hbound hprogress _)
  · intro r hr
    cases hrun : iterate (systemSweep settings (arrange s).system tolerance)
        settings.maxIterations initial with
    | error stopped => simp [hsolve, hrun] at hr
    | ok run =>
        obtain rfl : result settings _ (arrange s) run = r := by
          simpa [hsolve, hrun] using hr
        constructor
        · intro cap hwarning
          exact lt_of_settled_eq_false hdominant hcap hrun
            (settled_eq_false_of_mem hwarning)
        · obtain ⟨x, hx⟩ := LinearSystem.exists_solves hdominant
          obtain ⟨previous, hstate⟩ := exists_eq_swept hdominant hcap hrun
          refine ⟨x, (solves_arrange_iff s).mp hx, fun y hy => ?_,
            run.state.x.get, maxError run.state.errors, Grid.toList_eq_ofFn _,
            max?_toList_eq_maxError _, fun i => ?_⟩
          · exact LinearSystem.eq_of_solves hdominant
              ((solves_arrange_iff s).mpr hy) hx
          · rw [hstate]
            exact abs_sub_le_of_solves hdominant hx i

end

/-- Two equations which are dominated in the opposite order. -/
def crossed : LinearSystem ℚ 2 :=
  ⟨#v[#v[3, 4], #v[4, 3]], #v[7, 7]⟩

/-- Limits under which they are solved. -/
def narrow : Settings ℚ :=
  ⟨5, 1 / 100, 1 / 100, 7⟩

theorem solve_contracts_crossed :
    ∃ r, solve narrow crossed (1 / 10) = .ok r ∧
      ∃ x, crossed.Solves x ∧ ∃ v e, r.solution = List.ofFn v ∧
        r.errors.max? = some e ∧
        ∀ i, |v i - x i| ≤ 3 * e := by
  have htolerance : (0 : ℚ) < 1 / 10 := by norm_num
  have hcap : 1 ≤ narrow.maxIterations := by decide
  have hdeterminant :
      isSingular narrow crossed
        (Elimination.determinant crossed.matrix.toLists) = false := by
    decide +kernel
  have hdivisors : smallPivot? narrow (arrange crossed).system = none := by
    decide +kernel
  have hdominant : (arrange crossed).system.StrictlyDominant := by
    decide +kernel
  have hrate : (arrange crossed).system.rate = 3 / 4 := by decide +kernel
  have hlargest : (arrange crossed).system.largestOffset = 7 / 4 := by
    decide +kernel
  obtain ⟨-, -, hok, hresult⟩ :=
    solve_contracts htolerance hcap hdeterminant hdivisors hdominant
  rw [hrate, hlargest] at hok
  obtain ⟨r, hr⟩ := hok (by norm_num [narrow])
  obtain ⟨-, x, hx, -, v, e, hv, he, hdistance⟩ := hresult r hr
  refine ⟨r, hr, x, hx, v, e, hv, he, fun i => ?_⟩
  have hi := hdistance i
  rw [hrate] at hi
  norm_num at hi
  exact hi

end Jacobi
end NumericalMethods
