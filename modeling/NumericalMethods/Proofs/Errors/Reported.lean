import NumericalMethods.Proofs.Outcome

/-!
# What an error may report

An error that keeps a partial trace can carry any kind and any trace.
`Reported` says which kinds an operation uses and what it keeps, and that it
keeps a trace for a breakdown only.  The errors of a composed operation are
those of its parts, so the errors of a solver are found along its definition.
-/

namespace NumericalMethods

/-! ## Kinds -/

/-- The kinds of error behind which there is a partial trace. -/
def ErrorKind.breakdowns : List ErrorKind :=
  BreakdownKind.all.map BreakdownKind.errorKind

@[simp]
theorem ErrorKind.mem_breakdowns {kind : ErrorKind} :
    kind ∈ breakdowns ↔ kind = zeroDerivative ∨ kind = zeroDivisor ∨
      kind = singularJacobian ∨
      kind = correctorDivergence ∨ kind = divergenceDetected := by
  simp [breakdowns, BreakdownKind.all, BreakdownKind.errorKind]

/-- The kinds that tell of a condition of a result. -/
def ErrorKind.advisory : List ErrorKind :=
  [iterationLimitExceeded, convergenceFailure, extrapolationWarning,
    weakCorrelation, stepRefinementExhausted, stepToleranceNotMet,
    contractionNotGuaranteed, diagonalDominanceNotReached]

theorem Warning.kind_mem_advisory {α : Type} (w : Warning α) :
    w.kind ∈ ErrorKind.advisory := by
  cases w <;> simp [kind, ErrorKind.advisory]

variable {α : Type}

/-- The trace consists of the steps of a solver, numbered from one on. -/
def PartialTrace.IsSteps (t : PartialTrace α) : Prop :=
  ∃ made, t = .steps (Step.number made)

/-! ## Errors -/

/-- The error has one of some kinds, and what it keeps, if it keeps anything,
was left by a breakdown. -/
structure EngineError.Reported (kinds : List ErrorKind)
    (kept : PartialTrace α → Prop) (e : EngineError α) : Prop where
  kind_mem : e.kind ∈ kinds
  kept_of_breakdown : ∀ cause completed, e = .breakdown cause completed →
    cause.kind ∈ ErrorKind.breakdowns ∧ kept completed

section Reported

variable {kinds kinds' : List ErrorKind} {kept : PartialTrace α → Prop}
  {e : EngineError α}

theorem EngineError.Reported.mono
    (he : e.Reported kinds kept) (hkinds : kinds ⊆ kinds') :
    e.Reported kinds' kept :=
  ⟨hkinds he.kind_mem, he.kept_of_breakdown⟩

theorem EngineError.reported_plain
    (hkind : e.kind ∈ kinds) (hnone : e.partialTrace? = none) :
    e.Reported kinds kept where
  kind_mem := hkind
  kept_of_breakdown := by
    rintro cause completed rfl
    cases hnone

theorem EngineError.reported_breakdown
    {cause : Breakdown α} {completed : PartialTrace α}
    (hkind : cause.kind ∈ kinds)
    (hbreakdown : cause.kind ∈ ErrorKind.breakdowns) (hkept : kept completed) :
    (EngineError.breakdown cause completed).Reported kinds kept where
  kind_mem := hkind
  kept_of_breakdown := by
    rintro cause' completed' h
    cases h
    exact ⟨hbreakdown, hkept⟩

theorem EngineError.Reported.isSome_partialTrace?_iff
    (he : e.Reported kinds kept) :
    e.partialTrace?.isSome = true ↔ e.kind ∈ ErrorKind.breakdowns := by
  cases e with
  | breakdown cause completed =>
      have hbreakdown := (he.kept_of_breakdown _ _ rfl).1
      exact ⟨fun _ => hbreakdown, fun _ => rfl⟩
  | _ => simp [partialTrace?, kind]

theorem EngineError.Reported.kind_not_mem_advisory
    (he : e.Reported kinds kept) :
    e.kind ∉ ErrorKind.advisory := by
  cases e with
  | breakdown cause completed =>
      have hbreakdown := (he.kept_of_breakdown _ _ rfl).1
      rw [ErrorKind.mem_breakdowns] at hbreakdown
      rcases hbreakdown with h | h | h | h | h <;>
        simp [kind, h, ErrorKind.advisory]
  | _ => simp [kind, ErrorKind.advisory]

theorem EngineError.Reported.kept_of_partialTrace?_eq_some
    (he : e.Reported kinds kept) {t : PartialTrace α}
    (ht : e.partialTrace? = some t) :
    kept t := by
  cases e with
  | breakdown cause completed =>
      obtain rfl : completed = t := Option.some.inj ht
      exact (he.kept_of_breakdown _ _ rfl).2
  | _ => cases ht

end Reported

/-! ## Operations -/

section Raises

variable {ε β γ : Type} {P Q : ε → Prop}

/-- Every error of an outcome has a property. -/
def Raises (P : ε → Prop) (outcome : Except ε β) : Prop :=
  ∀ e, outcome = .error e → P e

theorem raises_ok (b : β) : Raises P (.ok b) := by
  intro e he
  cases he

theorem raises_error {e : ε} (he : P e) : Raises P (.error e : Except ε β) := by
  intro e' h
  cases h
  exact he

theorem Raises.mono
    {outcome : Except ε β} (h : Raises P outcome) (hPQ : ∀ e, P e → Q e) :
    Raises Q outcome :=
  fun e he => hPQ e (h e he)

theorem Raises.bind
    {outcome : Except ε β} {next : β → Except ε γ} (h : Raises P outcome)
    (hnext : ∀ b, outcome = .ok b → Raises P (next b)) :
    Raises P (outcome >>= next) := by
  intro e he
  cases outcome with
  | error e' =>
      obtain rfl : e' = e := Except.error.inj he
      exact h e' rfl
  | ok b => exact hnext b rfl e he

theorem Raises.map
    {outcome : Except ε β} (h : Raises P outcome) (f : β → γ) :
    Raises P (outcome.map f) := by
  intro e he
  cases outcome with
  | error e' =>
      obtain rfl : e' = e := Except.error.inj he
      exact h e' rfl
  | ok b => cases he

/-- A check in front of what follows. -/
theorem raises_guard
    {c : Prop} [Decidable c] {e : ε} {next : Unit → Except ε β} (he : P e)
    (hnext : ¬ c → Raises P (next ())) :
    Raises P (if c then throw e >>= next else next ()) := by
  by_cases hc : c
  · rw [if_pos hc]
    exact raises_error he
  · rw [if_neg hc]
    exact hnext hc

theorem raises_mapM
    {f : γ → Except ε β} (hf : ∀ c, Raises P (f c)) (cs : List γ) :
    Raises P (cs.mapM f) := by
  induction cs with
  | nil => exact raises_ok []
  | cons c cs ih =>
      rw [List.mapM_cons]
      exact (hf c).bind fun _ _ => ih.bind fun _ _ => raises_ok _

end Raises

section Reported

variable {β : Type} {kinds kinds' : List ErrorKind}
  {kept : PartialTrace α → Prop}

theorem Raises.widen
    {outcome : Except (EngineError α) β}
    (h : Raises (EngineError.Reported kinds kept) outcome)
    (hkinds : kinds ⊆ kinds') :
    Raises (EngineError.Reported kinds' kept) outcome :=
  h.mono fun _ he => he.mono hkinds

/-- An error without a partial trace. -/
theorem raises_plain
    {e : EngineError α} (hkind : e.kind ∈ kinds)
    (hnone : e.partialTrace? = none) :
    Raises (EngineError.Reported kinds kept)
      (.error e : Except (EngineError α) β) :=
  raises_error (EngineError.reported_plain hkind hnone)

end Reported

section Failure

variable {β : Type} {P Q : EngineError α → Prop}

/-- An error has a property.  An abort is not an error. -/
def Failure.ErrorHas (P : EngineError α → Prop) : Failure α → Prop
  | .error e => P e
  | .abort _ => True

theorem Failure.ErrorHas.mono
    {failure : Failure α} (h : failure.ErrorHas P) (hPQ : ∀ e, P e → Q e) :
    failure.ErrorHas Q := by
  cases failure with
  | error e => exact hPQ e h
  | abort reason => trivial

theorem Raises.widenError
    {kinds kinds' : List ErrorKind} {kept : PartialTrace α → Prop}
    {outcome : Except (Failure α) β}
    (h : Raises (Failure.ErrorHas (EngineError.Reported kinds kept)) outcome)
    (hkinds : kinds ⊆ kinds') :
    Raises (Failure.ErrorHas (EngineError.Reported kinds' kept)) outcome :=
  h.mono fun _ hfailure => hfailure.mono fun _ he => he.mono hkinds

theorem raises_liftError
    {outcome : Except (EngineError α) β} (h : Raises P outcome) :
    Raises (Failure.ErrorHas P) (liftError outcome) := by
  intro failure hfailure
  cases outcome with
  | error e =>
      obtain rfl : .error e = failure := Except.error.inj hfailure
      exact h e rfl
  | ok b => cases hfailure

theorem raises_reserve (length bytes : ℕ) :
    Raises (Failure.ErrorHas P) (reserve length bytes) := by
  rw [reserve]
  split
  · exact raises_ok ()
  · exact raises_error trivial

/-- Waiting for computations may end with an abort, but not with an error. -/
theorem raises_await (runs : List (Except (Failure α) β)) :
    Raises (Failure.ErrorHas P) (await runs) := by
  rw [await]
  split
  · exact raises_error trivial
  · exact raises_ok ()

end Failure

/-! ## Capped iterations -/

/-- A round breaks down for reasons of some kinds only. -/
def FailsWith {ε τ σ : Type} (kinds : List ErrorKind) (cause : ε → Breakdown α)
    (round : σ → Round ε τ σ) : Prop :=
  ∀ s c, round s = .fail c → (cause c).kind ∈ kinds ∧
    (cause c).kind ∈ ErrorKind.breakdowns

theorem FailsWith.of_iterate_eq_error
    {ε τ σ : Type} {kinds : List ErrorKind} {cause : ε → Breakdown α}
    {round : σ → Round ε τ σ} (hround : FailsWith kinds cause round) {cap : ℕ}
    {start : σ} {c : ε} {made : List τ}
    (hrun : iterate round cap start = .error (c, made)) :
    (cause c).kind ∈ kinds ∧ (cause c).kind ∈ ErrorKind.breakdowns := by
  obtain ⟨s, -, -, hfail⟩ := exists_steps_of_iterate_eq_error hrun
  exact hround s c hfail

/-- A solver that iterates keeps its steps when a round breaks down. -/
theorem raises_ofIteration
    {ρ ε τ σ : Type} {kinds : List ErrorKind} {cause : ε → Breakdown α}
    {round : σ → Round ε τ σ} (hround : FailsWith kinds cause round)
    (result : Run τ σ → ρ) (record : τ → StepData α) (cap : ℕ) (start : σ) :
    Raises (EngineError.Reported kinds PartialTrace.IsSteps)
      (ofIteration result record cause (iterate round cap start)) := by
  intro e he
  cases hrun : iterate round cap start with
  | ok run => rw [hrun] at he; cases he
  | error stopped =>
      rw [hrun] at he
      obtain rfl := Except.error.inj he
      obtain ⟨hkind, hbreakdown⟩ := hround.of_iterate_eq_error hrun
      exact EngineError.reported_breakdown hkind hbreakdown ⟨_, rfl⟩

end NumericalMethods
