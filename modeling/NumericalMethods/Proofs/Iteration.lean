import Mathlib.Data.Nat.Notation
import NumericalMethods.Iteration

/-!
# What a capped iteration can do

`Steps` relates the start of a run to the entries and the state after some
rounds that each made a step.  Every run is such a sequence of steps with one of
four endings: the cap, a round with nothing left to do, a last step, or a
breakdown.  A property of all runs is proved for one step and carried along
`Steps` by induction.
-/

namespace NumericalMethods

variable {ε τ σ : Type} {round : σ → Round ε τ σ} {start : σ}

/-- Rounds that each made a step lead from `start` to a state and leave the
entries `made`. -/
inductive Steps (round : σ → Round ε τ σ) (start : σ) : List τ → σ → Prop where
  /-- No round was performed. -/
  | refl : Steps round start [] start
  /-- One more round made a step. -/
  | snoc {made : List τ} {s next : σ} {entry : τ} :
      Steps round start made s → round s = .step entry next →
        Steps round start (made ++ [entry]) next

/-- How a run without a breakdown ends after the steps `made`, which lead to the
state `s`. -/
inductive Ending (round : σ → Round ε τ σ) (cap : ℕ) (made : List τ) (s : σ) :
    Run τ σ → Prop where
  /-- The cap is reached. -/
  | capped : made.length = cap → Ending round cap made s ⟨made, s, false⟩
  /-- Nothing is left to do. -/
  | halted : made.length < cap → round s = .halt →
      Ending round cap made s ⟨made, s, true⟩
  /-- One more step is the last one. -/
  | settled {entry : τ} {next : σ} :
        made.length < cap → round s = .last entry next →
      Ending round cap made s ⟨made ++ [entry], next, true⟩

theorem exists_steps_of_iterateFrom_eq_ok
    {cap : ℕ} {s : σ} {made : List τ} {run : Run τ σ}
    (hsteps : Steps round start made.reverse s)
    (hrun : iterateFrom round cap s made = .ok run) :
    ∃ completed final, Steps round start completed final ∧
      Ending round (made.length + cap) completed final run := by
  induction cap generalizing s made with
  | zero =>
      rw [iterateFrom, Except.ok.injEq] at hrun
      subst hrun
      exact ⟨_, _, hsteps, .capped (by simp)⟩
  | succ cap ih =>
      rw [iterateFrom] at hrun
      cases hround : round s with
      | halt =>
          simp only [hround, Except.ok.injEq] at hrun
          subst hrun
          exact ⟨_, _, hsteps, .halted (by simp) hround⟩
      | fail cause => simp [hround] at hrun
      | step entry next =>
          simp only [hround] at hrun
          have hnext : Steps round start (entry :: made).reverse next := by
            rw [List.reverse_cons]
            exact hsteps.snoc hround
          obtain ⟨completed, final, hcompleted, hending⟩ := ih hnext hrun
          refine ⟨completed, final, hcompleted, ?_⟩
          rwa [List.length_cons, Nat.add_right_comm, Nat.add_assoc] at hending
      | last entry next =>
          simp only [hround, Except.ok.injEq, List.reverse_cons] at hrun
          subst hrun
          exact ⟨_, _, hsteps, .settled (by simp) hround⟩

/-- A run that did not break down made steps and ended. -/
theorem exists_steps_of_iterate_eq_ok {cap : ℕ} {run : Run τ σ}
    (hrun : iterate round cap start = .ok run) :
    ∃ made s, Steps round start made s ∧ Ending round cap made s run := by
  have hstart : Steps round start ([] : List τ).reverse start := .refl
  simpa using exists_steps_of_iterateFrom_eq_ok hstart hrun

theorem exists_steps_of_iterateFrom_eq_error
    {cap : ℕ} {s : σ} {made completed : List τ} {cause : ε}
    (hsteps : Steps round start made.reverse s)
    (hrun : iterateFrom round cap s made = .error (cause, completed)) :
    ∃ final, Steps round start completed final ∧
      completed.length < made.length + cap ∧ round final = .fail cause := by
  induction cap generalizing s made with
  | zero => simp [iterateFrom] at hrun
  | succ cap ih =>
      rw [iterateFrom] at hrun
      cases hround : round s with
      | halt => simp [hround] at hrun
      | fail cause =>
          simp only [hround, Except.error.injEq, Prod.mk.injEq] at hrun
          obtain ⟨rfl, rfl⟩ := hrun
          exact ⟨s, hsteps, by simp, hround⟩
      | step entry next =>
          simp only [hround] at hrun
          have hnext : Steps round start (entry :: made).reverse next := by
            rw [List.reverse_cons]
            exact hsteps.snoc hround
          obtain ⟨final, hcompleted, hlength, hfail⟩ := ih hnext hrun
          refine ⟨final, hcompleted, ?_, hfail⟩
          rw [List.length_cons] at hlength
          omega
      | last entry next => simp [hround] at hrun

/-- A run that broke down made steps and then failed. -/
theorem exists_steps_of_iterate_eq_error {cap : ℕ} {cause : ε} {made : List τ}
    (hrun : iterate round cap start = .error (cause, made)) :
    ∃ s, Steps round start made s ∧ made.length < cap ∧
      round s = .fail cause := by
  have hstart : Steps round start ([] : List τ).reverse start := .refl
  simpa using exists_steps_of_iterateFrom_eq_error hstart hrun

/-- A run of which no round ends by itself makes a step in every round. -/
theorem steps_of_iterate_eq_ok {cap : ℕ} {run : Run τ σ}
    (hrun : iterate round cap start = .ok run) (hhalt : ∀ s, round s ≠ .halt)
    (hlast : ∀ s entry next, round s ≠ .last entry next) :
    Steps round start run.entries run.state ∧ run.entries.length = cap := by
  obtain ⟨made, s, hsteps, hending⟩ := exists_steps_of_iterate_eq_ok hrun
  cases hending with
  | capped hlength => exact ⟨hsteps, hlength⟩
  | halted _ hround => exact absurd hround (hhalt s)
  | settled _ hround => exact absurd hround (hlast s _ _)

/-! ## Invariants -/

/-- The round makes a step, be it the last one or not. -/
def Round.Leads (r : Round ε τ σ) (entry : τ) (next : σ) : Prop :=
  r = .step entry next ∨ r = .last entry next

section Invariant

variable {I : List τ → σ → Prop}

theorem Steps.invariant
    {made : List τ} {s : σ}
    (hsteps : Steps round start made s) (hstart : I [] start)
    (hleads : ∀ made s entry next, I made s → (round s).Leads entry next →
      I (made ++ [entry]) next) :
    I made s := by
  induction hsteps with
  | refl => exact hstart
  | snoc _ hround ih => exact hleads _ _ _ _ ih (.inl hround)

/-- What holds at the start and is kept by every step holds of a run that did
not break down. -/
theorem invariant_of_iterate_eq_ok
    {cap : ℕ} {run : Run τ σ}
    (hrun : iterate round cap start = .ok run) (hstart : I [] start)
    (hleads : ∀ made s entry next, I made s → (round s).Leads entry next →
      I (made ++ [entry]) next) :
    I run.entries run.state := by
  obtain ⟨made, s, hsteps, hending⟩ := exists_steps_of_iterate_eq_ok hrun
  have hmade : I made s := hsteps.invariant hstart hleads
  cases hending with
  | capped _ => exact hmade
  | halted _ _ => exact hmade
  | settled _ hround => exact hleads _ _ _ _ hmade (.inr hround)

/-- It also holds of what a run had done when it broke down. -/
theorem invariant_of_iterate_eq_error
    {cap : ℕ} {cause : ε} {made : List τ}
    (hrun : iterate round cap start = .error (cause, made))
    (hstart : I [] start)
        (hleads : ∀ made s entry next, I made s → (round s).Leads entry next →
      I (made ++ [entry]) next) :
    ∃ s, I made s ∧ round s = .fail cause := by
  obtain ⟨s, hsteps, _, hfail⟩ := exists_steps_of_iterate_eq_error hrun
  exact ⟨s, hsteps.invariant hstart hleads, hfail⟩

end Invariant

/-! ## Raising the cap -/

/-- Rounds behind `cap` of them go on from where these stopped, unless these had
ended the run. -/
theorem iterateFrom_add (cap more : ℕ) (s : σ) (made : List τ) :
    iterateFrom round (cap + more) s made =
      match iterateFrom round cap s made with
      | .ok run =>
        if run.settled then .ok run
        else iterateFrom round more run.state run.entries.reverse
      | .error stopped => .error stopped := by
  induction cap generalizing s made with
  | zero => simp [iterateFrom]
  | succ cap ih =>
      rw [Nat.add_right_comm, iterateFrom, iterateFrom]
      cases hround : round s with
      | halt => simp
      | fail cause => simp
      | step entry next => simpa using ih next (entry :: made)
      | last entry next => simp

/-- The entries of all steps a run made, whether or not it broke down. -/
def completedEntries : Except (ε × List τ) (Run τ σ) → List τ
  | .ok run => run.entries
  | .error stopped => stopped.2

theorem reverse_prefix_completedEntries_iterateFrom
    (cap : ℕ) (s : σ) (made : List τ) :
    made.reverse <+: completedEntries (iterateFrom round cap s made) := by
  induction cap generalizing s made with
  | zero => exact List.prefix_rfl
  | succ cap ih =>
      rw [iterateFrom]
      have hone : ∀ entry : τ, made.reverse <+: (entry :: made).reverse := by
        intro entry
        rw [List.reverse_cons]
        exact List.prefix_append _ _
      cases round s with
      | halt => exact List.prefix_rfl
      | fail cause => exact List.prefix_rfl
      | step entry next => exact (hone entry).trans (ih next (entry :: made))
      | last entry next => exact hone entry

variable {cap cap' : ℕ} {run : Run τ σ}

/-- A higher cap only adds steps. -/
theorem completedEntries_prefix_of_le (hcap : cap ≤ cap') :
    completedEntries (iterate round cap start) <+:
      completedEntries (iterate round cap' start) := by
  obtain ⟨more, rfl⟩ := Nat.exists_eq_add_of_le hcap
  rw [iterate, iterate, iterateFrom_add]
  cases iterateFrom round cap start [] with
  | error stopped => exact List.prefix_rfl
  | ok run =>
      by_cases hsettled : run.settled = true
      · simp [hsettled]
      · have hmore : run.entries.reverse.reverse <+:
            completedEntries
              (iterateFrom round more run.state run.entries.reverse) :=
          reverse_prefix_completedEntries_iterateFrom _ _ _
        simpa [hsettled, completedEntries] using hmore

/-- A run that broke down does so under every higher cap. -/
theorem iterate_eq_error_of_le
    {stopped : ε × List τ} (hrun : iterate round cap start = .error stopped)
    (hcap : cap ≤ cap') :
    iterate round cap' start = .error stopped := by
  obtain ⟨more, rfl⟩ := Nat.exists_eq_add_of_le hcap
  rw [iterate] at hrun
  rw [iterate, iterateFrom_add, hrun]

/-- A run that settled, or has nothing left to do, does not need a
higher cap. -/
theorem iterate_eq_ok_of_lt
    (hrun : iterate round cap start = .ok run)
    (hdone : run.settled = true ∨ round run.state = .halt) (hcap : cap < cap') :
    iterate round cap' start = .ok { run with settled := true } := by
  obtain ⟨more, rfl⟩ := Nat.exists_eq_add_of_lt hcap
  rw [iterate] at hrun
  rw [iterate, Nat.add_assoc, iterateFrom_add, hrun]
  obtain ⟨entries, state, settled⟩ := run
  cases settled with
  | true => rfl
  | false =>
      have hhalt : round state = .halt := by simpa using hdone
      simp [iterateFrom, hhalt]

/-! ## Runs along given steps -/

/-- Steps are made by the run with their number as its cap. -/
theorem iterate_eq_ok_of_steps
    {made : List τ} {s : σ} (hsteps : Steps round start made s) :
    iterate round made.length start = .ok ⟨made, s, false⟩ := by
  induction hsteps with
  | refl => rfl
  | snoc _ hround ih =>
      rw [List.length_append, List.length_singleton, iterate, iterateFrom_add,
        ← iterate, ih]
      simp [iterateFrom, hround]

/-- A breakdown behind some steps is that of every run with a higher cap. -/
theorem iterate_eq_error_of_steps
    {made : List τ} {s : σ} {cause : ε} (hsteps : Steps round start made s)
    (hfail : round s = .fail cause) (hcap : made.length < cap) :
    iterate round cap start = .error (cause, made) := by
  have hnext : iterate round (made.length + 1) start =
      .error (cause, made) := by
    rw [iterate, iterateFrom_add, ← iterate, iterate_eq_ok_of_steps hsteps]
    simp [iterateFrom, hfail]
  exact iterate_eq_error_of_le hnext hcap

/-- The first steps of a run are steps. -/
theorem Steps.take
    {made : List τ} {s : σ} (hsteps : Steps round start made s) {k : ℕ}
    (hk : k ≤ made.length) :
    ∃ s', Steps round start (made.take k) s' := by
  induction hsteps with
  | refl => exact ⟨start, by rw [List.take_nil]; exact .refl⟩
  | @snoc made _ next entry hsteps hround ih =>
      rcases Nat.eq_or_lt_of_le hk with rfl | hlt
      · exact ⟨next, by rw [List.take_length]; exact hsteps.snoc hround⟩
      · have hle : k ≤ made.length := by
          rw [List.length_append, List.length_singleton] at hlt
          omega
        rw [List.take_append_of_le_length hle]
        exact ih hle

/-- A sequence of states of which each is reached by a step from the one before
is what a run goes through. -/
theorem iterate_eq_ok_of_forall_step
    {state : ℕ → σ} {entry : ℕ → τ}
    (hstep : ∀ i, round (state i) = .step (entry i) (state (i + 1))) (cap : ℕ) :
    iterate round cap (state 0) =
      .ok ⟨(List.range cap).map entry, state cap, false⟩ := by
  have hsteps : Steps round (state 0) ((List.range cap).map entry)
      (state cap) := by
    induction cap with
    | zero => exact .refl
    | succ cap ih =>
        rw [List.range_succ, List.map_append, List.map_singleton]
        exact ih.snoc (hstep cap)
  simpa using iterate_eq_ok_of_steps hsteps

end NumericalMethods
