import NumericalMethods.Error

/-!
# Operations that may end without an answer

An operation composed of others ends without an answer, or with a result, along
with its parts.
-/

namespace NumericalMethods

variable {α β : Type}

/-- Outcomes can be compared if failures and results can. -/
instance decidableEqExcept [DecidableEq α] [DecidableEq β] :
    DecidableEq (Except α β)
  | .ok a, .ok b => decidable_of_iff (a = b) (by simp)
  | .error a, .error b => decidable_of_iff (a = b) (by simp)
  | .ok _, .error _ => .isFalse (by simp)
  | .error _, .ok _ => .isFalse (by simp)

/-- A value computed from a result shows that there is one. -/
theorem exists_eq_ok_of_map_eq_some
    {γ : Type} {result : Except α β} {value : β → γ} {c : γ}
    (hvalue : result.toOption.map value = some c) :
    ∃ b, result = .ok b ∧ value b = c := by
  cases result with
  | error _ => cases hvalue
  | ok b => exact ⟨b, rfl, Option.some.inj hvalue⟩

/-- Two operations in a row succeed if both do. -/
theorem bind_eq_ok_iff
    {ε : Type} {result : Except ε α} {next : α → Except ε β} {b : β} :
    (result >>= next) = .ok b ↔ ∃ a, result = .ok a ∧ next a = .ok b := by
  cases result with
  | error _ => simp [bind, Except.bind]
  | ok a => simp [bind, Except.bind]

@[simp]
theorem liftError_eq_ok_iff {result : Except (EngineError α) β} {b : β} :
    liftError result = .ok b ↔ result = .ok b := by
  cases result <;> simp [liftError]

theorem map_eq_ok_iff
    {ε γ : Type} {result : Except ε α} {f : α → γ} {c : γ} :
    result.map f = .ok c ↔ ∃ a, result = .ok a ∧ f a = c := by
  cases result with
  | error _ => simp [Except.map]
  | ok a => simp [Except.map]

theorem map_eq_error_iff
    {ε γ : Type} {result : Except ε α} (f : α → γ) {e : ε} :
    result.map f = .error e ↔ result = .error e := by
  cases result with
  | error _ => simp [Except.map]
  | ok a => simp [Except.map]

theorem reserve_bind_eq_ok_iff
    {length bytes : Nat} {next : Unit → Except (Failure α) β} {b : β} :
    (reserve length bytes >>= next) = .ok b ↔
      length * bytes ≤ largestBlock ∧ next () = .ok b := by
  by_cases h : length * bytes ≤ largestBlock <;>
    simp [reserve, h, bind, Except.bind]

/-! ## Aborts of composed operations -/

section Aborts

variable {γ : Type} {reason : Abort}

theorem liftError_ne_abort (result : Except (EngineError α) β) :
    liftError result ≠ .error (.abort reason) := by
  cases result with
  | ok b => simp [liftError]
  | error e => simp [liftError]

/-- Two operations in a row abort if one of them does. -/
theorem bind_eq_abort_iff {result : Except (Failure α) β}
    {next : β → Except (Failure α) γ} :
    (result >>= next) = .error (.abort reason) ↔
      result = .error (.abort reason) ∨
        ∃ b, result = .ok b ∧ next b = .error (.abort reason) := by
  cases result with
  | ok b => simp [bind, Except.bind]
  | error failure => simp [bind, Except.bind]

theorem liftError_bind_eq_abort_iff
    {result : Except (EngineError α) β} {next : β → Except (Failure α) γ} :
    (liftError result >>= next) = .error (.abort reason) ↔
      ∃ b, result = .ok b ∧ next b = .error (.abort reason) := by
  rw [bind_eq_abort_iff, or_iff_right (liftError_ne_abort result)]
  simp only [liftError_eq_ok_iff]

theorem reserve_bind_eq_abort_iff
    {length bytes : Nat} {next : Unit → Except (Failure α) β}
    (hnext : ∀ u, next u ≠ .error (.abort reason)) :
    (reserve length bytes >>= next) = .error (.abort reason) ↔
      reason = .capacityExceeded ∧ largestBlock < length * bytes := by
  rw [reserve]
  by_cases hfits : length * bytes ≤ largestBlock
  · rw [if_pos hfits]
    simp [bind, Except.bind, hnext, hfits]
  · rw [if_neg hfits]
    simp [bind, Except.bind, Nat.not_le.mp hfits, eq_comm]

theorem aborted?_eq_some_iff {result : Except (Failure α) β} :
    aborted? result = some reason ↔ result = .error (.abort reason) := by
  cases result with
  | ok b => simp [aborted?]
  | error failure =>
      cases failure with
      | error e => simp [aborted?]
      | abort other => simp [aborted?]

/-- Operations that run side by side abort if one of them does. -/
theorem await_eq_abort_iff
    {runs : List (Except (Failure α) β)} {limit : Abort}
    (hlimit : ∀ run ∈ runs, ∀ other, run = .error (.abort other) →
      other = limit) :
    await runs = .error (.abort reason) ↔
      reason = limit ∧ ∃ run ∈ runs, run = .error (.abort limit) := by
  rw [await]
  cases hfirst : runs.findSome? aborted? with
  | none =>
      have hnone := List.findSome?_eq_none_iff.mp hfirst
      simp only [reduceCtorEq, false_iff, not_and, not_exists]
      rintro - run hrun rfl
      exact absurd (hnone _ hrun) (by simp [aborted?])
  | some first =>
      obtain ⟨run, hrun, haborted⟩ := List.exists_of_findSome?_eq_some hfirst
      have habort := aborted?_eq_some_iff.mp haborted
      obtain rfl := hlimit run hrun first habort
      simp only [Except.error.injEq, Failure.abort.injEq]
      exact ⟨fun h => ⟨h.symm, run, hrun, habort⟩, fun h => h.1.symm⟩

/-- Behind operations that run side by side none of them aborts. -/
theorem ne_abort_of_await_eq_ok
    {runs : List (Except (Failure α) β)} {u : Unit} (hok : await runs = .ok u)
    {run : Except (Failure α) β} (hrun : run ∈ runs) :
    run ≠ .error (.abort reason) := by
  rintro rfl
  rw [await] at hok
  cases hfirst : runs.findSome? aborted? with
  | none =>
      have hnone := List.findSome?_eq_none_iff.mp hfirst
      exact absurd (hnone _ hrun) (by simp [aborted?])
  | some first =>
      rw [hfirst] at hok
      cases hok

end Aborts

end NumericalMethods
