import NumericalMethods.Proofs.Binary64.Finite
import NumericalMethods.Proofs.Cap
import NumericalMethods.Proofs.LinearSystem.Convergence
import NumericalMethods.Proofs.LinearSystem.Dominance

/-!
# What a result certifies

A result holds enough to check it without the solver.  Its trace is what the
returned matrix and right-hand side make of the zero column, sweep by sweep, and
how far the last sweep moved bounds how far the unknowns are from satisfying
each equation that was given.  No dominance is needed for either.
-/

namespace NumericalMethods

/-! ## Sweeps from zero -/

namespace LinearSystem

variable {K : Type} [Field K] [LinearOrder K] [ExactArithmetic K] {n : ℕ}

/-- The unknowns after a number of sweeps from zero. -/
def unknowns (w : LinearSystem K n) : ℕ → Fin n → K
  | 0 => fun _ => 0
  | k + 1 => w.jacobiMap (w.unknowns k)

/-- How far each unknown moved in the last of a number of sweeps.  In front of
the first one it counts as infinite. -/
def movement (w : LinearSystem K n) : ℕ → Fin n → K
  | 0 => fun _ => Scalar.infinity
  | k + 1 => fun i => |w.unknowns (k + 1) i - w.unknowns k i|

/-- An equation is missed by at most what the last sweep moved, weighed by the
row outside its diagonal. -/
theorem abs_residual_le [IsStrictOrderedRing K]
    {w : LinearSystem K n} {i : Fin n} (hdivisor : w.entry i i ≠ 0)
    {y : Fin n → K} {moved : K}
    (hmoved : ∀ j, |w.jacobiMap y j - y j| ≤ moved) :
    |w.rhs.get i - ∑ j, w.entry i j * w.jacobiMap y j| ≤
      moved * w.weightOutside i i := by
  have hdiagonal : w.entry i i * w.jacobiMap y i =
      w.rhs.get i - ∑ j ∈ Finset.univ.erase i, w.entry i j * y j := by
    rw [jacobiMap_eq_div, mul_div_cancel₀ _ hdivisor]
  have hresidual : w.rhs.get i - ∑ j, w.entry i j * w.jacobiMap y j =
      -∑ j ∈ Finset.univ.erase i, w.entry i j * (w.jacobiMap y j - y j) := by
    rw [← Finset.add_sum_erase _ (fun j => w.entry i j * w.jacobiMap y j)
      (Finset.mem_univ i),
      hdiagonal]
    simp only [mul_sub, Finset.sum_sub_distrib]
    ring
  rw [hresidual, abs_neg, weightOutside, Finset.mul_sum]
  refine (Finset.abs_sum_le_sum_abs _ _).trans (Finset.sum_le_sum fun j _ => ?_)
  rw [abs_mul, mul_comm]
  exact mul_le_mul_of_nonneg_right (hmoved j) (abs_nonneg _)

end LinearSystem

namespace Jacobi

open Binary64

/-! ## Divisors and sweeps -/

section

variable {α : Type} [Scalar α] {n : ℕ} {settings : Settings α}
  {s : LinearSystem α n} {tolerance : α}

theorem floor_le_of_smallPivot_eq_none
    {w : LinearSystem α n} (hdivisors : smallPivot? settings w = none)
    (i : Fin n) :
    settings.divisorFloor ≤ Scalar.abs (w.entry i i) := by
  have hi := List.find?_eq_none.mp hdivisors i (List.mem_finRange i)
  simpa using hi

theorem stoppedAtCap_result_iff (determinant : α)
    (run : Run (SweepStep α) (State α n)) :
    StoppedAtCap (result settings determinant (arrange s) run) ↔
      run.settled = false :=
  stoppedAtCap_iff rfl (occurs_warnings_arrange s)

theorem sweep_ne_halt
    (settings : Settings α) (c : Grid α n n) (d : Vector α n) (tolerance : α)
    (s : State α n) :
    sweep settings c d tolerance s ≠ .halt := by
  rw [sweep]
  dsimp only
  split
  · split <;> simp
  · simp

/-- A run that settled did so in a last sweep. -/
theorem exists_last_of_settled
    {c : Grid α n n} {d : Vector α n} {cap : ℕ} {start : State α n}
    {run : Run (SweepStep α) (State α n)}
    (hrun : iterate (sweep settings c d tolerance) cap start = .ok run)
    (hsettled : run.settled = true) :
    ∃ made s entry, sweep settings c d tolerance s = .last entry run.state ∧
      run.entries = made ++ [entry] := by
  obtain ⟨made, s, -, hending⟩ := exists_steps_of_iterate_eq_ok hrun
  cases hending with
  | capped hlength => cases hsettled
  | halted hlength hround => exact absurd hround (sweep_ne_halt _ _ _ _ _)
  | settled hlength hround => exact ⟨made, s, _, hround, rfl⟩

end

/-! ## Zero divisors in binary arithmetic -/

/-- A sweep that divides by zero leads to an unknown that is not finite. -/
theorem sweep_eq_fail_of_divisor_eq_zero
    {n : ℕ} (settings : Settings Float) {w : LinearSystem Float n} {i : Fin n}
    (hi : (w.entry i i == 0) = true) (tolerance : Float) (s : State Float n) :
    sweep settings w.iterationMatrix
      (Vector.ofFn fun i => w.rhs.get i / w.entry i i)
      tolerance s = .fail (.leftBound settings.divergenceBound) := by
  rw [sweep]
  dsimp only
  rw [if_neg]
  rw [List.all_eq_true]
  intro hall
  have hmem :=
    List.getElem_mem (l := (Vector.zipWith (· + ·) (w.iterationMatrix.apply s.x)
    (Vector.ofFn fun i => w.rhs.get i / w.entry i i)).toList) (n := i) (by simp)
  have hbound := hall _ hmem
  rw [inBound, Bool.and_eq_true] at hbound
  rw [Vector.getElem_toList, Vector.getElem_zipWith, Vector.getElem_ofFn]
    at hbound
  have hinfinite := isFinite_add_of_right
    (x := (w.iterationMatrix.apply s.x)[(i : ℕ)])
    (isFinite_div_of_zero (x := w.rhs.get i) hi)
  exact Bool.false_ne_true (hinfinite.symm.trans hbound.1)

/-- A result that does not complain of the cap was computed without dividing by
zero. -/
theorem divisor_ne_zero_of_solve_eq_ok
    {n : ℕ} {settings : Settings Float} {s : LinearSystem Float n}
    {tolerance : Float} {r : LinearSolveResult Float}
    (hr : solve settings s tolerance = .ok r) (hsettled : ¬ StoppedAtCap r)
    (i : Fin n) :
    ((arrange s).system.entry i i == 0) = false := by
  obtain ⟨-, -, run, rfl, hrun⟩ := exists_run_of_solve_eq_ok hr
  rw [stoppedAtCap_result_iff, Bool.not_eq_false] at hsettled
  obtain ⟨made, state, entry, hlast, -⟩ := exists_last_of_settled hrun hsettled
  by_contra hzero
  rw [sweep_eq_fail_of_divisor_eq_zero settings (Bool.not_eq_false _ ▸ hzero)]
    at hlast
  cases hlast

/-! ## The sweeps of a run -/

section

variable {K : Type} [Field K] [LinearOrder K] [ExactArithmetic K] {n : ℕ}
  {settings : Settings K} {w : LinearSystem K n} {tolerance : K}

/-- The state after a number of sweeps from zero. -/
def stateAfter (w : LinearSystem K n) : ℕ → State K n
  | 0 => initial
  | k + 1 => swept w (stateAfter w k)

/-- The record of the sweep behind `k` others. -/
def sweepAfter (w : LinearSystem K n) (k : ℕ) : SweepStep K where
  x := List.ofFn (w.unknowns (k + 1))
  maxError := maxError (Vector.ofFn (w.movement (k + 1)))

theorem stateAfter_eq (w : LinearSystem K n) (k : ℕ) :
    stateAfter w k =
      ⟨Vector.ofFn (w.unknowns k), Vector.ofFn (w.movement k)⟩ := by
  induction k with
  | zero => rfl
  | succ k ih =>
      have hx : (Vector.ofFn (w.unknowns k)).get = w.unknowns k :=
        funext (Grid.get_ofFn _)
      rw [stateAfter, ih, swept]
      simp only [hx]
      rfl

theorem sweptEntry_stateAfter (w : LinearSystem K n) (k : ℕ) :
    sweptEntry w (stateAfter w k) = sweepAfter w k := by
  have hnext : swept w (stateAfter w k) = stateAfter w (k + 1) := rfl
  rw [sweptEntry, hnext, stateAfter_eq, sweepAfter, Vector.toList_ofFn]

/-- The sweeps of a run are those from zero, in their order. -/
theorem eq_stateAfter_of_iterate_eq_ok
    {cap : ℕ} {run : Run (SweepStep K) (State K n)}
    (hrun : iterate (systemSweep settings w tolerance) cap initial = .ok run) :
    run.state = stateAfter w run.entries.length ∧
      run.entries = (List.range run.entries.length).map (sweepAfter w) := by
  refine invariant_of_iterate_eq_ok
    (I := fun made s => s = stateAfter w made.length ∧
      made = (List.range made.length).map (sweepAfter w)) hrun ⟨rfl, rfl⟩ ?_
  rintro made s entry next ⟨rfl, hmade⟩ hleads
  obtain ⟨rfl, rfl⟩ := eq_swept_of_leads hleads
  rw [List.length_append, List.length_singleton]
  refine ⟨rfl, ?_⟩
  rw [List.range_succ, List.map_append, ← hmade, List.map_singleton,
    sweptEntry_stateAfter]

theorem le_of_systemSweep_eq_last
    {s next : State K n} {entry : SweepStep K}
    (hlast : systemSweep settings w tolerance s = .last entry next) :
    maxError next.errors ≤ tolerance := by
  obtain ⟨rfl, rfl⟩ := eq_swept_of_leads (.inr hlast)
  rw [systemSweep_eq] at hlast
  split at hlast
  · split at hlast
    · rename_i hle
      exact hle
    · cases hlast
  · cases hlast

theorem lt_of_systemSweep_eq_step
    {s next : State K n} {entry : SweepStep K}
    (hstep : systemSweep settings w tolerance s = .step entry next) :
    tolerance < maxError next.errors := by
  obtain ⟨rfl, rfl⟩ := eq_swept_of_leads (.inl hstep)
  rw [systemSweep_eq] at hstep
  split at hstep
  · split at hstep
    · cases hstep
    · rename_i hle
      exact not_le.mp hle
  · cases hstep

theorem lt_maxError_iff [NeZero n] {errors : Vector K n} {bound : K} :
    bound < maxError errors ↔ ∃ e ∈ errors.toList, bound < e := by
  rw [← not_le, maxError_le_iff, Grid.toList_eq_ofFn]
  simp [List.mem_ofFn]

/-- A run settles exactly if its last sweep moved by no more than the
tolerance. -/
theorem settled_eq_false_iff [NeZero n]
    {cap : ℕ} (hcap : 0 < cap ∨ tolerance < Scalar.infinity)
    {run : Run (SweepStep K) (State K n)}
    (hrun : iterate (systemSweep settings w tolerance) cap initial = .ok run) :
    run.settled = false ↔ tolerance < maxError run.state.errors := by
  obtain ⟨made, s, hsteps, hending⟩ := exists_steps_of_iterate_eq_ok hrun
  cases hending with
  | halted hlength hround => exact absurd hround (sweep_ne_halt _ _ _ _ _)
  | settled hlength hround =>
      exact ⟨nofun, fun hlt =>
        absurd (le_of_systemSweep_eq_last hround) (not_le.mpr hlt)⟩
  | capped hlength =>
      refine ⟨fun _ => ?_, fun _ => rfl⟩
      cases hsteps with
      | snoc hbefore hround => exact lt_of_systemSweep_eq_step hround
      | refl =>
          have hinfinity : tolerance < Scalar.infinity := by
            refine hcap.resolve_left ?_
            rw [← hlength]
            exact Nat.lt_irrefl 0
          obtain ⟨i, hi⟩ := exists_get_eq_maxError (initial : State K n).errors
          rw [← hi, initial, Grid.get_ofFn]
          exact hinfinity

end

/-! ## The certificate -/

/-- A result holds the sweeps of a system from zero, and the unknowns and their
movement are those of the last one. -/
structure HoldsSweeps {K : Type} [Field K] [LinearOrder K]
    [ExactArithmetic K] {n : ℕ} (w : LinearSystem K n)
    (r : LinearSolveResult K) : Prop where
  steps : r.steps =
    Step.number ((List.range r.iterations).map fun k => .sweep (sweepAfter w k))
  solution : r.solution = List.ofFn (w.unknowns r.iterations)
  errors : r.errors = List.ofFn (w.movement r.iterations)

section

variable {K : Type} [Field K] [LinearOrder K] [ExactArithmetic K] {n : ℕ}
  {settings : Settings K} {s : LinearSystem K n} {tolerance : K}

theorem holdsSweeps_result
    {run : Run (SweepStep K) (State K n)} (determinant : K)
    (hrun : iterate (systemSweep settings (arrange s).system tolerance)
      settings.maxIterations initial = .ok run) :
    HoldsSweeps (arrange s).system
      (result settings determinant (arrange s) run) := by
  obtain ⟨hstate, hentries⟩ := eq_stateAfter_of_iterate_eq_ok hrun
  constructor
  · change Step.number (run.entries.map .sweep) = _
    conv_lhs => rw [hentries, List.map_map]
    rfl
  · change run.state.x.toList =
      List.ofFn ((arrange s).system.unknowns run.entries.length)
    rw [hstate, stateAfter_eq, Vector.toList_ofFn]
  · change run.state.errors.toList =
      List.ofFn ((arrange s).system.movement run.entries.length)
    rw [hstate, stateAfter_eq, Vector.toList_ofFn]

variable [IsStrictOrderedRing K]

/-- The unknowns of a run that settled miss each equation by at most the
tolerance, weighed by the row outside its divisor. -/
theorem abs_residual_le_of_settled
    {w : LinearSystem K n} {run : Run (SweepStep K) (State K n)} {cap : ℕ}
    (hrun : iterate (systemSweep settings w tolerance) cap initial = .ok run)
    (hsettled : run.settled = true) {i : Fin n} (hdivisor : w.entry i i ≠ 0) :
    |w.rhs.get i - ∑ j, w.entry i j * w.unknowns run.entries.length j| ≤
      tolerance * w.weightOutside i i := by
  obtain ⟨made, previous, entry, hlast, hentries⟩ :=
    exists_last_of_settled hrun hsettled
  obtain ⟨hstate, -⟩ := eq_stateAfter_of_iterate_eq_ok hrun
  have hmoved := le_of_systemSweep_eq_last hlast
  rw [hstate, hentries, List.length_append, List.length_singleton,
    stateAfter_eq] at hmoved
  rw [hentries, List.length_append, List.length_singleton]
  refine LinearSystem.abs_residual_le hdivisor fun j => ?_
  have hj := (le_maxError _ j).trans hmoved
  rwa [Grid.get_ofFn] at hj

/-- Every result is a certificate for itself.  Its equations are the given ones
in the order it names, its trace consists of the sweeps `x ↦ C x + d` of these
equations from zero, and the cap is complained of exactly when an unknown moved
by more than the tolerance in the last sweep.  Otherwise each given equation is
missed by at most the tolerance times the weight of its row outside the divisor.

In exact arithmetic this needs a divisor that is not zero, and for a run without
a sweep infinity has to lie above the tolerance.  Of results in binary
arithmetic both are true. -/
theorem solve_certified [NeZero n]
    {r : LinearSolveResult K} (hr : solve settings s tolerance = .ok r) :
    (∃ (σ : Equiv.Perm (Fin n)) (w : LinearSystem K n),
      r.permutation = List.ofFn (fun i => (σ i : ℕ)) ∧
      (∀ i, s.SameRow w i (σ i)) ∧
      r.matrix = w.matrix.toLists ∧ r.rhs = w.rhs.toList ∧
      r.cMatrix = w.iterationMatrix.toLists ∧ HoldsSweeps w r ∧
      (0 < settings.maxIterations ∨ tolerance < Scalar.infinity →
        (StoppedAtCap r ↔ ∃ e ∈ r.errors, tolerance < e)) ∧
      (¬ StoppedAtCap r → ∃ x, r.solution = List.ofFn x ∧
        ∀ i, s.entry i (σ i) ≠ 0 →
        |s.rhs.get i - ∑ j, s.entry i j * x j| ≤
          tolerance * s.weightOutside i (σ i)) ∧
      (0 < settings.divisorFloor → ∀ i, s.entry i (σ i) ≠ 0)) ∧
    ∀ {m : ℕ} (settings : Settings Float) (t : LinearSystem Float m)
      (tolerance : Float) q,
      solve settings t tolerance = .ok q →
        tolerance < Scalar.infinity ∧
        (¬ StoppedAtCap q → ∀ i, ((arrange t).system.entry i i == 0) =
          false) := by
  constructor
  · obtain ⟨-, hdivisors, run, rfl, hrun⟩ := exists_run_of_solve_eq_ok hr
    obtain ⟨σ, hpermutation, hsystem, -⟩ := exists_perm_arrange s
    have hsame : ∀ i, s.SameRow (arrange s).system i (σ i) := by
      intro i
      rw [hsystem]
      constructor
      · rw [LinearSystem.matrix_get_reordered, Equiv.symm_apply_apply]
      · rw [LinearSystem.rhs_get_reordered, Equiv.symm_apply_apply]
    have hentry : ∀ i j, (arrange s).system.entry (σ i) j = s.entry i j := by
      intro i j
      rw [hsystem, LinearSystem.entry_reordered, Equiv.symm_apply_apply]
    refine ⟨σ, (arrange s).system, ?_, hsame, rfl, rfl, rfl,
      holdsSweeps_result _ hrun, ?_, ?_, ?_⟩
    · rw [result, hpermutation, List.map_ofFn]
      rfl
    · intro hcap
      rw [stoppedAtCap_result_iff, settled_eq_false_iff hcap hrun,
        lt_maxError_iff]
      rfl
    · intro hsettled
      rw [stoppedAtCap_result_iff, Bool.not_eq_false] at hsettled
      refine ⟨_, (holdsSweeps_result _ hrun).solution, fun i hi => ?_⟩
      rw [← hentry] at hi
      have hresidual := abs_residual_le_of_settled hrun hsettled hi
      have hweight : (arrange s).system.weightOutside (σ i) (σ i) =
          s.weightOutside i (σ i) := by
        rw [hsystem, LinearSystem.weightOutside_reordered,
          Equiv.symm_apply_apply]
      simp only [hentry, (hsame i).2, hweight] at hresidual
      exact hresidual
    · intro hfloor i hzero
      have hi := floor_le_of_smallPivot_eq_none hdivisors (σ i)
      rw [hentry, hzero, Scalar.abs_eq_abs, abs_zero] at hi
      exact absurd hfloor (not_lt.mpr hi)
  · intro m settings t tolerance q hq
    obtain ⟨htolerance, -⟩ := exists_run_of_solve_eq_ok hq
    rw [Scalar.isPositiveFinite, Bool.and_eq_true] at htolerance
    exact ⟨lt_infinity htolerance.2, divisor_ne_zero_of_solve_eq_ok hq⟩

/-- Two equations in the order in which neither is dominated. -/
def opposite : LinearSystem ℚ 2 :=
  ⟨#v[#v[1, 3], #v[3, 1]], #v[4, 4]⟩

theorem solve_certified_opposite :
    ∃ r, solve narrow opposite (1 / 10) = .ok r ∧ ¬ StoppedAtCap r ∧
      ∃ σ : Equiv.Perm (Fin 2), r.permutation = List.ofFn (fun i => (σ i : ℕ)) ∧
        ∃ x, r.solution = List.ofFn x ∧ ∀ i,
          |opposite.rhs.get i - ∑ j, opposite.entry i j * x j| ≤
            1 / 10 * opposite.weightOutside i (σ i) := by
  have hsolved : (solve narrow opposite (1 / 10)).toOption.map
      (fun r => decide (StoppedAtCap r)) = some false := by
    decide +kernel
  have hfloor : 0 < narrow.divisorFloor := by norm_num [narrow]
  obtain ⟨r, hr, hsettled⟩ := exists_eq_ok_of_map_eq_some hsolved
  have hunstopped : ¬ StoppedAtCap r := of_decide_eq_false hsettled
  obtain ⟨⟨σ, w, hpermutation, -, -, -, -, -, -, hresidual, hdivisors⟩, -⟩ :=
    solve_certified hr
  obtain ⟨x, hx, hbound⟩ := hresidual hunstopped
  exact ⟨r, hr, hunstopped, σ, hpermutation, x, hx,
    fun i => hbound i (hdivisors hfloor i)⟩

end

end Jacobi
end NumericalMethods
