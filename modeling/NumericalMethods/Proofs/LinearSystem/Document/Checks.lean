import Mathlib.Data.Nat.Notation
import NumericalMethods.LinearSystem.Document

/-!
# The checks of a document

A document is judged by checks of its lines, in a fixed order, and the first one
that fails decides the error.  A reader of a part of the document decides a part
of the checks, and readers in a row decide theirs one after the other.
-/

namespace NumericalMethods
namespace LinearSystem

/-- The order that the first line declares. -/
def declaredOrder? (lines : List (List Char)) : Option ℕ :=
  lines.head?.bind Decimal.count?

/-- The declared order, and zero without one. -/
def orderOf (lines : List (List Char)) : ℕ :=
  (declaredOrder? lines).getD 0

/-- What is checked of the lines of a document.  The order is on line zero, and
row `i` on line `i`, counted from one. -/
inductive Check where
  /-- There is a line. -/
  | lineAt (index : ℕ)
  /-- The first line is a count. -/
  | order
  /-- A word of a row is a number. -/
  | coefficient (word : List Char)
  /-- A row holds a number for each unknown and one more. -/
  | entryCount (row : ℕ)
  /-- The line behind the rows is a number. -/
  | tolerance
  /-- There is an equation. -/
  | equations
  /-- All numbers of the rows are finite. -/
  | finite
  deriving DecidableEq

namespace Check

def holds (lines : List (List Char)) : Check → Bool
  | lineAt index => decide (index < lines.length)
  | order => (declaredOrder? lines).isSome
  | coefficient word => (Decimal.number? word).isSome
  | entryCount row =>
    (Text.words (lines.getD row [])).length == orderOf lines + 1
  | tolerance => (Decimal.number? (lines.getD (orderOf lines + 1) [])).isSome
  | equations => orderOf lines != 0
  | finite =>
    (List.range' 1 (orderOf lines)).all fun row =>
      (Text.words (lines.getD row [])).all fun word =>
        (Decimal.number? word).any Scalar.isFinite

/-- The kind of the error when a check fails. -/
def kind : Check → ErrorKind
  | lineAt _ | equations => .insufficientData
  | order | coefficient _ | entryCount _ | tolerance | finite =>
    .invalidParameter

/-- The error when a check fails. -/
def error (lines : List (List Char)) : Check → EngineError Float
  | lineAt index =>
    .insufficientData <|
      if index = 0 then .missingOrder
      else if index ≤ orderOf lines then .missingRow index (orderOf lines)
      else .missingTolerance
  | order => .invalidParameter (.orderText (String.ofList (lines.getD 0 [])))
  | coefficient word =>
    .invalidParameter (.coefficientText (String.ofList word))
  | entryCount row =>
    .invalidParameter
      (.rowEntries row (orderOf lines) (Text.words (lines.getD row [])).length)
  | tolerance =>
    .invalidParameter
      (.toleranceText (String.ofList (lines.getD (orderOf lines + 1) [])))
  | equations => .insufficientData .noEquations
  | finite => .invalidParameter .coefficientNotFinite

theorem kind_error (lines : List (List Char)) (c : Check) :
    (c.error lines).kind = c.kind := by
  cases c <;> rfl

end Check

/-- The checks of a row. -/
def rowChecks (lines : List (List Char)) (row : ℕ) : List Check :=
  .lineAt row ::
    ((Text.words (lines.getD row [])).map Check.coefficient ++
      [.entryCount row])

/-- All checks of a document: its lines from the first to the last, and then the
system they describe. -/
def checks (lines : List (List Char)) : List Check :=
  .lineAt 0 :: .order ::
    ((List.range' 1 (orderOf lines)).flatMap (rowChecks lines) ++
      ([.lineAt (orderOf lines + 1), .tolerance] ++ [.equations, .finite]))

/-- The first check among some that fails. -/
def firstFailure (lines : List (List Char)) (cs : List Check) : Option Check :=
  cs.find? fun c => !c.holds lines

/-- A computation that fails with the error of the first check that fails, and
succeeds if none does. -/
def DecidedBy {β : Type} (lines : List (List Char)) (cs : List Check)
    (outcome : Except (EngineError Float) β) : Prop :=
  match firstFailure lines cs with
  | some c => outcome = .error (c.error lines)
  | none => ∃ b, outcome = .ok b

section

variable {β γ : Type} {lines : List (List Char)} {cs ds : List Check}
  {outcome : Except (EngineError Float) β}

theorem decidedBy_nil {b : β} (hok : outcome = .ok b) :
    DecidedBy lines [] outcome :=
  ⟨b, hok⟩

/-- The first check decides if it fails, and the others do if it holds. -/
theorem decidedBy_cons
    {c : Check}
    (hfails : c.holds lines = false → outcome = .error (c.error lines))
    (hholds : c.holds lines = true → DecidedBy lines cs outcome) :
    DecidedBy lines (c :: cs) outcome := by
  rw [DecidedBy, firstFailure, List.find?_cons]
  cases hc : c.holds lines with
  | false => exact hfails hc
  | true => exact hholds hc

/-- Checks of one computation come before those of the next. -/
theorem DecidedBy.bind
    (h : DecidedBy lines cs outcome) {next : β → Except (EngineError Float) γ}
    (hnext : ∀ b, outcome = .ok b → DecidedBy lines ds (next b)) :
    DecidedBy lines (cs ++ ds) (outcome >>= next) := by
  rw [DecidedBy] at h
  rw [DecidedBy, firstFailure, List.find?_append, ← firstFailure,
    ← firstFailure]
  cases hfirst : firstFailure lines cs with
  | some c =>
      rw [hfirst] at h
      rw [h]
      rfl
  | none =>
      rw [hfirst] at h
      obtain ⟨b, hb⟩ := h
      rw [hb]
      exact hnext b hb

theorem DecidedBy.map
    (h : DecidedBy lines cs outcome) (f : β → γ) :
    DecidedBy lines cs (f <$> outcome) := by
  rw [DecidedBy] at h ⊢
  split at h
  · rw [h]
    rfl
  · obtain ⟨b, rfl⟩ := h
    exact ⟨f b, rfl⟩

theorem DecidedBy.eq_error
    (h : DecidedBy lines cs outcome) {c : Check}
    (hc : firstFailure lines cs = some c) :
    outcome = .error (c.error lines) := by
  rwa [DecidedBy, hc] at h

theorem DecidedBy.exists_eq_ok_iff (h : DecidedBy lines cs outcome) :
    (∃ b, outcome = .ok b) ↔ ∀ c ∈ cs, c.holds lines = true := by
  have hnone : firstFailure lines cs = none ↔
      ∀ c ∈ cs, c.holds lines = true := by
    rw [firstFailure, List.find?_eq_none]
    simp
  rw [← hnone]
  cases hfirst : firstFailure lines cs with
  | some c => simp [h.eq_error hfirst]
  | none =>
      rw [DecidedBy, hfirst] at h
      simp [h]

end

end LinearSystem
end NumericalMethods
