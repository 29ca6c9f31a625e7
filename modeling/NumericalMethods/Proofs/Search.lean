import NumericalMethods.Proofs.Outcome

/-!
# The law of a trace

A search moves from point to point and records each step.  `Search` says which
steps are right; a run whose rounds make right steps, or break down where there
is no right step, has a lawful outcome.  The rounds are inspected once for each
method, and what follows for runs of any length is proved here by induction over
the steps.
-/

namespace NumericalMethods

/-- How a method searches: at points of type `π`, with entries of type `τ`, for
a result of type `ρ`. -/
structure Search (α π τ ρ : Type) where
  /-- The entry is that of a right step from one point to another. -/
  Makes : π → τ → π → Prop
  /-- The distance moved. -/
  moved : τ → α
  record : τ → StepData α
  /-- The result tells where the search ended, and the last distance moved. -/
  Tells : ρ → π → α → Prop

/-- Steps, each of them from where the one before it ended. -/
inductive Path {π τ : Type} (Makes : π → τ → π → Prop) (start : π) :
    List τ → π → Prop where
  | refl : Path Makes start [] start
  | snoc {made : List τ} {point next : π} {entry : τ} :
      Path Makes start made point → Makes point entry next →
        Path Makes start (made ++ [entry]) next

theorem Path.mono
    {π τ : Type} {Makes Makes' : π → τ → π → Prop} {start stop : π}
    {made : List τ}
    (hmakes : ∀ point entry next, Makes point entry next →
      Makes' point entry next)
    (hpath : Path Makes start made stop) :
    Path Makes' start made stop := by
  induction hpath with
  | refl => exact .refl
  | snoc _ hstep ih => exact ih.snoc (hmakes _ _ _ hstep)

namespace Search

variable {α π τ ρ σ : Type} [Scalar α] [CappedResult α ρ]

/-- The distance of the last step, infinite before the first one. -/
def lastMoved (search : Search α π τ ρ) (made : List τ) : α :=
  (made.getLast?.map search.moved).getD Scalar.infinity

omit [CappedResult α ρ] in
@[simp]
theorem lastMoved_append (search : Search α π τ ρ) (made : List τ) (entry : τ) :
    search.lastMoved (made ++ [entry]) = search.moved entry := by
  simp [lastMoved]

omit [CappedResult α ρ] in
theorem not_lastMoved_lt
    {search : Search α π τ ρ} {made : List τ} {tolerance : α}
    (hmade : ∀ e ∈ made, ¬ search.moved e < tolerance)
    (htolerance : ¬ (Scalar.infinity : α) < tolerance) :
    ¬ search.lastMoved made < tolerance := by
  rw [lastMoved]
  cases hlast : made.getLast? with
  | none => exact htolerance
  | some e => exact hmade e (List.mem_of_getLast? hlast)

/-- The steps recorded are those of a path, numbered from one on, and at most
the last one is shorter than the tolerance. -/
structure Trace (search : Search α π τ ρ) (start : π) (tolerance : α) (cap : ℕ)
    (made : List τ) (stop : π) (steps : List (Step α)) : Prop where
  numbers : steps.map Step.iteration = List.range' 1 made.length
  entries : steps.map Step.data = made.map search.record
  length_le : made.length ≤ cap
  path : Path search.Makes start made stop
  not_lt_tolerance : ∀ e ∈ made.dropLast, ¬ search.moved e < tolerance

/-- A search returned a result. -/
structure Returns (search : Search α π τ ρ) (start : π)
    (tolerance : α) (cap : ℕ) (made : List τ) (stop : π) (r : ρ) : Prop where
  trace : search.Trace start tolerance cap made stop (CappedResult.steps r)
  iterations_eq : CappedResult.iterations r = made.length
  tells : search.Tells r stop (search.lastMoved made)
  stoppedAtCap_iff : StoppedAtCap r ↔ ¬ search.lastMoved made < tolerance
  length_eq_of_stoppedAtCap : StoppedAtCap r → made.length = cap

/-- A search broke down: the point reached is not the end of the search, and
there is no step from it. -/
structure Breaks (search : Search α π τ ρ) (start : π) (tolerance : α) (cap : ℕ)
    (made : List τ) (stop : π) (completed : PartialTrace α) : Prop where
  trace : ∃ steps, completed = .steps steps ∧
    search.Trace start tolerance cap made stop steps
  length_lt : made.length < cap
  not_lt_tolerance : ∀ e ∈ made, ¬ search.moved e < tolerance
  stuck : ∀ entry next, ¬ search.Makes stop entry next

/-- The law of an outcome. -/
structure Lawful (search : Search α π τ ρ) (start : π) (tolerance : α) (cap : ℕ)
    (outcome : Except (EngineError α) ρ) : Prop where
  of_ok : ∀ r, outcome = .ok r →
    ∃ made stop, search.Returns start tolerance cap made stop r
  of_breakdown : ∀ cause completed,
  outcome = .error (.breakdown cause completed) →
    ∃ made stop, search.Breaks start tolerance cap made stop completed

omit [CappedResult α ρ] in
theorem trace_number
    {search : Search α π τ ρ} {start stop : π} {tolerance : α} {cap : ℕ}
    {made : List τ} (hlength : made.length ≤ cap)
    (hpath : Path search.Makes start made stop)
    (hmoved : ∀ e ∈ made.dropLast, ¬ search.moved e < tolerance) :
    search.Trace start tolerance cap made stop
      (Step.number (made.map search.record)) where
  numbers := by rw [Step.map_iteration_number, List.length_map]
  entries := Step.map_data_number _
  length_le := hlength
  path := hpath
  not_lt_tolerance := hmoved

/-- What a round of the search does in a state.  The step is the last one if it
is short. -/
inductive Performs (search : Search α π τ ρ) (tolerance : α) (point : σ → π)
    (moved : σ → α) (Valid : σ → Prop) (s : σ) :
    Round (Breakdown α) τ σ → Prop where
  | step {entry : τ} {next : σ} : search.Makes (point s) entry (point next) →
      moved next = search.moved entry → Valid next →
        ¬ search.moved entry < tolerance →
        Performs search tolerance point moved Valid s (.step entry next)
  | last {entry : τ} {next : σ} : search.Makes (point s) entry (point next) →
      moved next = search.moved entry → search.moved entry < tolerance →
        Performs search tolerance point moved Valid s (.last entry next)
  | fail {cause : Breakdown α} :
        (∀ entry next, ¬ search.Makes (point s) entry next) →
      Performs search tolerance point moved Valid s (.fail cause)

omit [CappedResult α ρ] in
theorem Performs.of_makes
    {search : Search α π τ ρ} {tolerance distance : α} {point : σ → π}
    {moved : σ → α} {Valid : σ → Prop} {s next : σ} {entry : τ}
    (hmakes : search.Makes (point s) entry (point next))
    (hentry : search.moved entry = distance) (hnext : moved next = distance)
    (hvalid : Valid next) :
    search.Performs tolerance point moved Valid s
      (if distance < tolerance then .last entry next
        else .step entry next) := by
  subst hentry
  split
  · rename_i hshort
    exact .last hmakes hnext hshort
  · rename_i hlong
    exact .step hmakes hnext hvalid hlong

/-- What a run that did not break down has done. -/
structure Completes (search : Search α π τ ρ) (tolerance : α) (cap : ℕ)
    (point : σ → π) (moved : σ → α) (start : σ) (run : Run τ σ) : Prop where
  path : Path search.Makes (point start) run.entries (point run.state)
  moved_eq : moved run.state = search.lastMoved run.entries
  length_le : run.entries.length ≤ cap
  not_lt_tolerance : ∀ e ∈ run.entries.dropLast, ¬ search.moved e < tolerance
  of_settled : run.settled = true →
    ∃ e, run.entries.getLast? = some e ∧ search.moved e < tolerance
  of_capped : run.settled = false →
    run.entries.length = cap ∧ ∀ e ∈ run.entries, ¬ search.moved e < tolerance

omit [CappedResult α ρ] in
theorem Completes.entries_ne_nil
    {search : Search α π τ ρ} {tolerance : α} {cap : ℕ} {point : σ → π}
    {moved : σ → α} {start : σ} {run : Run τ σ}
    (h : search.Completes tolerance cap point moved start run)
    (hcap : 1 ≤ cap) :
    run.entries ≠ [] := by
  intro hnil
  cases hsettled : run.settled with
  | false =>
      have hlength := (h.of_capped hsettled).1
      rw [hnil, List.length_nil] at hlength
      omega
  | true =>
      obtain ⟨e, hlast, -⟩ := h.of_settled hsettled
      simp [hnil] at hlast

omit [CappedResult α ρ] in
/-- If only the first step can be long, the second one is the last. -/
theorem Completes.of_tail_short
    {search : Search α π τ ρ} {tolerance : α} {cap : ℕ} {point : σ → π}
    {moved : σ → α} {start : σ} {run : Run τ σ}
    (h : search.Completes tolerance cap point moved start run)
    (hshort : ∀ e ∈ run.entries.tail, search.moved e < tolerance) :
    run.entries.length ≤ 2 ∧ (2 ≤ cap → run.settled = true) := by
  rcases Nat.lt_or_ge run.entries.length 2 with hlength | hlength
  · refine ⟨Nat.le_of_lt hlength, fun hcap => ?_⟩
    cases hsettled : run.settled with
    | true => rfl
    | false =>
        have hfull := (h.of_capped hsettled).1
        omega
  · match hentries : run.entries with
    | [] | [_] => simp [hentries] at hlength
    | first :: second :: rest =>
        have hsecond := hshort second (by simp [hentries])
        constructor
        · cases rest with
          | nil => simp
          | cons third rest =>
              exact absurd hsecond
                (h.not_lt_tolerance second (by simp [hentries]))
        · intro _
          cases hsettled : run.settled with
          | true => rfl
          | false =>
              exact absurd hsecond
                ((h.of_capped hsettled).2 second (by simp [hentries]))

/-- The result of a run reports the run. -/
structure Reports (search : Search α π τ ρ) (point : σ → π) (moved : σ → α)
    (run : Run τ σ) (r : ρ) : Prop where
  iterations_eq : CappedResult.iterations r = run.entries.length
  steps_eq : CappedResult.steps r = Step.number (run.entries.map search.record)
  tells : search.Tells r (point run.state) (moved run.state)
  stoppedAtCap_iff : StoppedAtCap r ↔ run.settled = false

section Run

variable {search : Search α π τ ρ} {tolerance : α} {point : σ → π}
  {moved : σ → α}
  {Valid : σ → Prop} {round : σ → Round (Breakdown α) τ σ} {start : σ} {cap : ℕ}

omit [CappedResult α ρ] in
/-- Steps of which none was the last follow a path. -/
theorem path_of_steps
    (hperforms : ∀ s, Valid s →
      search.Performs tolerance point moved Valid s (round s))
    (hvalid : Valid start) (hmoved : moved start = Scalar.infinity)
    {made : List τ} {s : σ} (hsteps : Steps round start made s) :
    Path search.Makes (point start) made (point s) ∧ Valid s ∧
      moved s = search.lastMoved made ∧
      ∀ e ∈ made, ¬ search.moved e < tolerance := by
  induction hsteps with
  | refl => exact ⟨.refl, hvalid, hmoved, by simp⟩
  | @snoc made s next entry _ hround ih =>
      obtain ⟨hpath, hs, -, hlong⟩ := ih
      have hperform := hperforms s hs
      rw [hround] at hperform
      cases hperform with
      | step hmakes hnext hvalidNext hentry =>
          refine ⟨hpath.snoc hmakes, hvalidNext, ?_, ?_⟩
          · rw [hnext, lastMoved_append]
          · intro e he
            rcases List.mem_append.mp he with he | he
            · exact hlong e he
            · obtain rfl := List.mem_singleton.mp he
              exact hentry

omit [CappedResult α ρ] in
/-- A run that did not break down follows a path to its last step or to
the cap. -/
theorem completes_of_iterate_eq_ok
    (hperforms : ∀ s, Valid s →
      search.Performs tolerance point moved Valid s (round s))
    (hvalid : Valid start) (hmoved : moved start = Scalar.infinity)
    {run : Run τ σ} (hrun : iterate round cap start = .ok run) :
    search.Completes tolerance cap point moved start run := by
  obtain ⟨made, s, hsteps, hending⟩ := exists_steps_of_iterate_eq_ok hrun
  obtain ⟨hpath, hs, hlast, hlong⟩ :=
    path_of_steps hperforms hvalid hmoved hsteps
  cases hending with
  | capped hlength =>
      refine ⟨hpath, hlast, Nat.le_of_eq hlength, ?_, nofun,
        fun _ => ⟨hlength, hlong⟩⟩
      intro e he
      exact hlong e ((List.dropLast_sublist made).subset he)
  | halted _ hround =>
      have hperform := hperforms s hs
      rw [hround] at hperform
      cases hperform
  | @settled entry next hlength hround =>
      have hperform := hperforms s hs
      rw [hround] at hperform
      cases hperform with
      | last hmakes hnext hentry =>
          refine ⟨hpath.snoc hmakes, ?_, ?_, ?_,
            fun _ => ⟨entry, ?_, hentry⟩, nofun⟩
          · rw [hnext, lastMoved_append]
          · simpa using Nat.succ_le_of_lt hlength
          · simpa using hlong
          · simp

theorem exists_returns_of_iterate_eq_ok
    (hperforms : ∀ s, Valid s →
      search.Performs tolerance point moved Valid s (round s))
    (hvalid : Valid start) (hmoved : moved start = Scalar.infinity)
    (htolerance : ¬ (Scalar.infinity : α) < tolerance)
    {run : Run τ σ} {r : ρ} (hrun : iterate round cap start = .ok run)
    (hreports : search.Reports point moved run r) :
    ∃ made stop, search.Returns (point start) tolerance cap made stop r := by
  have hcompletes := completes_of_iterate_eq_ok hperforms hvalid hmoved hrun
  refine ⟨run.entries, point run.state, ?_, hreports.iterations_eq, ?_, ?_, ?_⟩
  · rw [hreports.steps_eq]
    exact trace_number hcompletes.length_le hcompletes.path
      hcompletes.not_lt_tolerance
  · rw [← hcompletes.moved_eq]
    exact hreports.tells
  · rw [hreports.stoppedAtCap_iff]
    cases hsettled : run.settled with
    | false =>
        have hlong := (hcompletes.of_capped hsettled).2
        simpa using not_lastMoved_lt hlong htolerance
    | true =>
        obtain ⟨e, hlast, hshort⟩ := hcompletes.of_settled hsettled
        simpa [lastMoved, hlast] using hshort
  · intro hstopped
    exact (hcompletes.of_capped (hreports.stoppedAtCap_iff.mp hstopped)).1

omit [CappedResult α ρ] in
theorem exists_breaks_of_iterate_eq_error
    (hperforms : ∀ s, Valid s →
      search.Performs tolerance point moved Valid s (round s))
    (hvalid : Valid start) (hmoved : moved start = Scalar.infinity)
    {cause : Breakdown α} {made : List τ}
    (hrun : iterate round cap start = .error (cause, made)) :
    ∃ stop, search.Breaks (point start) tolerance cap made stop
      (.steps (Step.number (made.map search.record))) := by
  obtain ⟨s, hsteps, hlength, hround⟩ := exists_steps_of_iterate_eq_error hrun
  obtain ⟨hpath, hs, -, hlong⟩ := path_of_steps hperforms hvalid hmoved hsteps
  have hperform := hperforms s hs
  rw [hround] at hperform
  cases hperform with
  | fail hstuck =>
      refine ⟨point s, ⟨_, rfl, ?_⟩, hlength, hlong, hstuck⟩
      refine trace_number (Nat.le_of_lt hlength) hpath ?_
      intro e he
      exact hlong e ((List.dropLast_sublist made).subset he)

omit [CappedResult α ρ] in
/-- A search that never gets stuck does not break down. -/
theorem exists_completes_of_forall_path
    (cap : ℕ)
    (hperforms : ∀ s, Valid s →
      search.Performs tolerance point moved Valid s (round s))
    (hvalid : Valid start) (hmoved : moved start = Scalar.infinity)
    (hnext : ∀ made stop, Path search.Makes (point start) made stop →
      ∃ entry next, search.Makes stop entry next) :
    ∃ run, iterate round cap start = .ok run ∧
      search.Completes tolerance cap point moved start run := by
  cases hrun : iterate round cap start with
  | ok run =>
      exact ⟨run, rfl, completes_of_iterate_eq_ok hperforms hvalid hmoved hrun⟩
  | error stopped =>
      obtain ⟨stop, hbreaks⟩ :=
        exists_breaks_of_iterate_eq_error hperforms hvalid hmoved hrun
      obtain ⟨_, -, htrace⟩ := hbreaks.trace
      obtain ⟨entry, next, hmakes⟩ := hnext _ stop htrace.path
      exact absurd hmakes (hbreaks.stuck entry next)

/-- The steps an outcome keeps are those of a path. -/
theorem exists_path_of_ofIteration
    {result : Run τ σ → ρ}
    (hperforms : ∀ s, Valid s →
      search.Performs tolerance point moved Valid s (round s))
    (hreports : ∀ run, search.Reports point moved run (result run))
    (hvalid : Valid start) (hmoved : moved start = Scalar.infinity) :
    ∃ made stop,
      keptSteps
        (ofIteration result search.record id (iterate round cap start)) =
        Step.number (made.map search.record) ∧
      Path search.Makes (point start) made stop := by
  rw [keptSteps_ofIteration id fun run => (hreports run).steps_eq]
  cases hrun : iterate round cap start with
  | ok run =>
      have hcompletes := completes_of_iterate_eq_ok hperforms hvalid hmoved hrun
      exact ⟨run.entries, point run.state, rfl, hcompletes.path⟩
  | error stopped =>
      obtain ⟨stop, hbreaks⟩ :=
        exists_breaks_of_iterate_eq_error hperforms hvalid hmoved hrun
      obtain ⟨_, -, htrace⟩ := hbreaks.trace
      exact ⟨stopped.2, stop, rfl, htrace.path⟩

/-- The outcome of a search whose rounds perform right steps is lawful. -/
theorem lawful_ofIteration
    {result : Run τ σ → ρ} {p : π}
    (hperforms : ∀ s, Valid s →
      search.Performs tolerance point moved Valid s (round s))
    (hreports : ∀ run, search.Reports point moved run (result run))
    (hpoint : point start = p) (hmoved : moved start = Scalar.infinity)
    (hvalid : Valid start) (htolerance : ¬ (Scalar.infinity : α) < tolerance) :
    search.Lawful p tolerance cap
      (ofIteration result search.record id (iterate round cap start)) := by
  subst hpoint
  constructor
  · intro r hr
    obtain ⟨run, hrun, rfl⟩ := ofIteration_eq_ok_iff.mp hr
    exact exists_returns_of_iterate_eq_ok hperforms hvalid hmoved htolerance
      hrun (hreports run)
  · intro cause completed hbreak
    obtain ⟨_, made, hrun, -, rfl⟩ := ofIteration_eq_breakdown_iff.mp hbreak
    exact ⟨made, exists_breaks_of_iterate_eq_error hperforms hvalid hmoved hrun⟩

end Run
end Search
end NumericalMethods
