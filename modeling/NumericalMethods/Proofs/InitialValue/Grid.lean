import NumericalMethods.InitialValue.Trace
import NumericalMethods.Proofs.Failure
import NumericalMethods.Proofs.InitialValue.Corrector

/-!
# The grid of a solution

A method that does not break down makes one step for each step of the grid and
leaves a point at each node, whatever its ordinates are.  So two solutions with
the same step share their abscissae, and the number of their points is known in
advance.
-/

namespace NumericalMethods
namespace InitialValue

variable {α : Type} [Scalar α]

/-- The abscissae of a grid of `n` steps.  The first one is the start itself,
which is not computed. -/
def abscissae (x0 h : α) (n : ℕ) : List α :=
  x0 :: (List.range n).map fun i => node x0 h (i + 1)

@[simp]
theorem length_abscissae (x0 h : α) (n : ℕ) :
    (abscissae x0 h n).length = n + 1 := by
  simp [abscissae]

theorem getElem?_abscissae_of_lt
    {x0 h : α} {n i : ℕ} (hi : i < n) :
    (abscissae x0 h n)[i + 1]? = some (node x0 h (i + 1)) := by
  simp [abscissae, hi]

/-! ## One step -/

/-- A round leaves a point with a finite ordinate at the next node, or fails. -/
def Advances {σ : Type} (round : σ → Round (Breakdown α) (α × α) σ)
    (index : σ → ℕ) (x0 h : α) : Prop :=
  ∀ s, (∃ y next, round s = .step (node x0 h (index s + 1), y) next ∧
      Scalar.isFinite y = true ∧ index next = index s + 1) ∨
    ∃ cause, round s = .fail cause

section Step

variable {f : OdeFunction α} {cap : ℕ} {tolerance : α}

theorem advances_advance
    (method : OdeMethod) (step : α → α → α) (x0 h : α) :
    Advances (advance method step x0 h) Position.index x0 h := by
  intro s
  simp only [advance]
  split
  · rename_i hfinite
    exact .inl ⟨_, _, rfl, hfinite, rfl⟩
  · exact .inr ⟨_, rfl⟩

theorem isFinite_of_nextOrdinate_eq_ok
    {x0 h y : α} {s : History α}
    (hy : nextOrdinate f cap tolerance x0 h s = .ok y) :
    Scalar.isFinite y = true := by
  simp only [nextOrdinate] at hy
  split at hy
  · exact isFinite_of_settle_eq_ok hy
  · split at hy
    · rename_i hfinite
      cases hy
      exact hfinite
    · cases hy

theorem advances_milneRound
    (f : OdeFunction α) (cap : ℕ) (tolerance x0 h : α) :
    Advances (milneRound f cap tolerance x0 h) History.index x0 h := by
  intro s
  simp only [milneRound]
  split
  · rename_i y hy
    exact .inl ⟨y, _, rfl, isFinite_of_nextOrdinate_eq_ok hy, rfl⟩
  · exact .inr ⟨_, rfl⟩

theorem exists_nextOrdinate_of_milneRound_eq_step
    {x0 h : α} {s next : History α} {entry : α × α}
    (hround : milneRound f cap tolerance x0 h s = .step entry next) :
    ∃ y, nextOrdinate f cap tolerance x0 h s = .ok y ∧
      entry = (node x0 h (s.index + 1), y) ∧
      next = s.push ⟨y, f.rhs (node x0 h (s.index + 1)) y⟩ := by
  rw [milneRound] at hround
  cases hy : nextOrdinate f cap tolerance x0 h s with
  | error cause =>
      rw [hy] at hround
      cases hround
  | ok y =>
      rw [hy] at hround
      cases hround
      exact ⟨y, rfl, rfl, rfl⟩

theorem nextOrdinate_eq_error_of_milneRound_eq_fail
    {x0 h : α} {s : History α} {cause : Breakdown α}
    (hround : milneRound f cap tolerance x0 h s = .fail cause) :
    nextOrdinate f cap tolerance x0 h s = .error cause := by
  rw [milneRound] at hround
  cases hy : nextOrdinate f cap tolerance x0 h s with
  | ok y =>
      rw [hy] at hround
      cases hround
  | error stopped =>
      rw [hy, Round.fail.injEq] at hround
      rw [hround]

end Step

/-! ## All steps -/

section Points

variable {σ : Type} {round : σ → Round (Breakdown α) (α × α) σ}
  {index : σ → ℕ} {start : σ} {x0 h : α}

theorem Advances.ne_halt (hround : Advances round index x0 h) (s : σ) :
    round s ≠ .halt := by
  rcases hround s with ⟨_, _, hs, _⟩ | ⟨_, hs⟩
  · simp [hs]
  · simp [hs]

theorem Advances.ne_last
    (hround : Advances round index x0 h) (s : σ) (entry : α × α) (next : σ) :
    round s ≠ .last entry next := by
  rcases hround s with ⟨_, _, hs, _⟩ | ⟨_, hs⟩
  · simp [hs]
  · simp [hs]

theorem Advances.of_step
    (hround : Advances round index x0 h) {s next : σ} {entry : α × α}
    (hs : round s = .step entry next) :
    entry.1 = node x0 h (index s + 1) ∧ Scalar.isFinite entry.2 = true ∧
      index next = index s + 1 := by
  rcases hround s with ⟨_, _, hs', hfinite, hindex⟩ | ⟨_, hs'⟩
  · rw [hs, Round.step.injEq] at hs'
    rw [hs'.1, hs'.2]
    exact ⟨rfl, hfinite, hindex⟩
  · rw [hs] at hs'
    cases hs'

/-- A run that did not break down made all its steps. -/
theorem Advances.exists_steps_of_collect_eq_ok
    (hround : Advances round index x0 h) {origin : α × α} {n : ℕ}
    {points : List (α × α)}
    (hpoints : collect origin (iterate round n start) = .ok points) :
    ∃ made s, Steps round start made s ∧ made.length = n ∧
      points = origin :: made := by
  cases hrun : iterate round n start with
  | error stopped => simp [hrun, collect] at hpoints
  | ok run =>
      simp only [hrun, collect, Except.ok.injEq] at hpoints
      obtain ⟨hsteps, hlength⟩ :=
        steps_of_iterate_eq_ok hrun hround.ne_halt hround.ne_last
      exact ⟨run.entries, run.state, hsteps, hlength, hpoints.symm⟩

/-- Steps that advance a counter leave the abscissae of the grid behind. -/
theorem Advances.map_fst_of_steps
    (hround : Advances round index x0 h) {made : List (α × α)} {s : σ}
    (hsteps : Steps round start made s) (hstart : index start = 0) :
    made.map Prod.fst =
        (List.range made.length).map (fun i => node x0 h (i + 1)) ∧
      index s = made.length := by
  induction hsteps with
  | refl => exact ⟨rfl, hstart⟩
  | snoc _ hnext ih =>
      obtain ⟨hentry, -, hindex⟩ := hround.of_step hnext
      obtain ⟨hmade, hlength⟩ := ih
      refine ⟨?_, by
        rw [hindex, hlength, List.length_append, List.length_singleton]⟩
      rw [List.map_append, hmade, List.length_append, List.length_singleton,
        List.range_succ, List.map_append, List.map_singleton,
        List.map_singleton, hentry, hlength]

theorem Advances.map_fst_of_collect
    (hround : Advances round index x0 h) {y0 : α} {n : ℕ}
    {points : List (α × α)} (hstart : index start = 0)
    (hpoints : collect (x0, y0) (iterate round n start) = .ok points) :
    points.map Prod.fst = abscissae x0 h n := by
  obtain ⟨made, s, hsteps, rfl, rfl⟩ :=
    hround.exists_steps_of_collect_eq_ok hpoints
  rw [List.map_cons, (hround.map_fst_of_steps hsteps hstart).1, abscissae]

end Points

variable {settings : Settings} {method : OdeMethod} {f : OdeFunction α}

theorem map_fst_march
    {step : α → α → α} {x0 y0 h : α} {n : ℕ} {points : List (α × α)}
    (hpoints : march method step x0 y0 h n = .ok points) :
    points.map Prod.fst = abscissae x0 h n :=
  (advances_advance method step x0 h).map_fst_of_collect rfl hpoints

theorem map_fst_milnePoints
    {cap n : ℕ} {x0 y0 h tolerance : α} {points : List (α × α)}
    (hpoints : milnePoints f cap x0 y0 h n tolerance = .ok points) :
    points.map Prod.fst = abscissae x0 h n :=
  (advances_milneRound f cap tolerance x0 h).map_fst_of_collect rfl hpoints

/-- The points of a run lie at the nodes of its grid, for every method. -/
theorem map_fst_run
    {p : InitialValueProblem α} {h : α} {points : List (α × α)}
    (hrun : run settings method f p h = .ok points) :
    points.map Prod.fst = abscissae p.x0 h (gridSize p.x0 p.xn h) := by
  simp only [run, solutionPoints, reserve_bind_eq_ok_iff,
    liftError_eq_ok_iff] at hrun
  cases method with
  | euler => exact map_fst_march hrun.2
  | extendedEuler => exact map_fst_march hrun.2
  | milne => exact map_fst_milnePoints hrun.2

theorem length_run
    {p : InitialValueProblem α} {h : α} {points : List (α × α)}
    (hrun : run settings method f p h = .ok points) :
    points.length = gridSize p.x0 p.xn h + 1 := by
  rw [← List.length_map Prod.fst, map_fst_run hrun, length_abscissae]

end InitialValue
end NumericalMethods
