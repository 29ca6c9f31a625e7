/-!
# Capped iteration

The iterative solvers share one scheme.  A round looks at the state and either
finds nothing left to do, breaks down, makes a step, or makes its last step.
`iterate` performs rounds until one of them ends the run, or until a cap on
their number is reached, and keeps the entries of all steps made.  A run that
broke down keeps the entries made before.
-/

namespace NumericalMethods

/-- What a round does: `ε` is the cause of a breakdown, `τ` the entry a step
leaves in the trace, `σ` the state. -/
inductive Round (ε τ σ : Type) where
  /-- Nothing is left to do. -/
  | halt
  /-- The round cannot be completed. -/
  | fail (cause : ε)
  /-- A step after which the run goes on. -/
  | step (entry : τ) (next : σ)
  /-- A step after which the run has settled. -/
  | last (entry : τ) (next : σ)

/-- A run that did not break down. -/
structure Run (τ σ : Type) where
  /-- The entries of its steps, in order. -/
  entries : List τ
  /-- The state it ended in. -/
  state : σ
  /-- Whether it ended by itself and not at the cap. -/
  settled : Bool

/-- Performs at most `cap` rounds, in front of which the entries `made` were
left, latest first. -/
@[specialize] def iterateFrom {ε τ σ : Type} (round : σ → Round ε τ σ) :
    (cap : Nat) → (state : σ) → (made : List τ) → Except (ε × List τ) (Run τ σ)
  | 0, state, made => .ok ⟨made.reverse, state, false⟩
  | cap + 1, state, made =>
    match round state with
    | .halt => .ok ⟨made.reverse, state, true⟩
    | .fail cause => .error (cause, made.reverse)
    | .step entry next => iterateFrom round cap next (entry :: made)
    | .last entry next => .ok ⟨(entry :: made).reverse, next, true⟩

/-- Performs at most `cap` rounds. -/
@[specialize] def iterate {ε τ σ : Type} (round : σ → Round ε τ σ) (cap : Nat)
    (start : σ) : Except (ε × List τ) (Run τ σ) :=
  iterateFrom round cap start []

end NumericalMethods
