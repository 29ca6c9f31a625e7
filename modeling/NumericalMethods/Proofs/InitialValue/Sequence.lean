import Mathlib.Tactic.IntervalCases
import NumericalMethods.InitialValue.Milne
import NumericalMethods.Proofs.Exact.Basic
import NumericalMethods.Proofs.InitialValue.Corrector

/-!
# Runs along a known sequence

Over exact scalars no ordinate is refused, so a method that leads from each
term of a sequence to the next leaves the whole sequence on its grid, at any
number of steps.  For the method of Milne the first three terms come from the
start-up, and every other one is what the corrector settles at from the four
terms before it.
-/

namespace NumericalMethods
namespace InitialValue

variable {K : Type} [Field K] [LinearOrder K] [ExactArithmetic K]

@[simp]
theorem node_zero (x0 h : K) : node x0 h 0 = x0 := by
  simp [node]

theorem node_add (x0 h : K) (i k : ℕ) :
    node x0 h (i + k) = node x0 h i + k * h := by
  simp only [node, Scalar.ofNat_eq_natCast]
  push_cast
  ring

/-- The points of a sequence of ordinates at `n` steps. -/
def table (x0 h : K) (y : ℕ → K) (n : ℕ) : List (K × K) :=
  (List.range (n + 1)).map fun i => (node x0 h i, y i)

@[simp]
theorem length_table (x0 h : K) (y : ℕ → K) (n : ℕ) :
    (table x0 h y n).length = n + 1 := by
  simp [table]

theorem table_eq_cons (x0 h : K) (y : ℕ → K) (n : ℕ) :
    table x0 h y n =
      (x0, y 0) :: (List.range n).map fun i =>
        (node x0 h (i + 1), y (i + 1)) := by
  rw [table, List.range_succ_eq_map, List.map_cons, List.map_map, node_zero]
  rfl

theorem getElem?_table_of_le
    (x0 h : K) (y : ℕ → K) {n i : ℕ} (hi : i ≤ n) :
    (table x0 h y n)[i]? = some (node x0 h i, y i) := by
  have hlt : i < n + 1 := Nat.lt_succ_of_le hi
  simp [table, hlt]

theorem getLast?_table (x0 h : K) (y : ℕ → K) (n : ℕ) :
    (table x0 h y n).getLast? = some (node x0 h n, y n) := by
  rw [List.getLast?_eq_getElem?, length_table, Nat.add_sub_cancel]
  exact getElem?_table_of_le x0 h y le_rfl

/-! ## One-step methods -/

/-- Where a one-step method stands at a node. -/
def positionAt (y : ℕ → K) (i : ℕ) : Position K :=
  ⟨i, y i⟩

theorem march_eq_table
    {step : K → K → K} {x0 h : K} {y : ℕ → K}
    (hstep : ∀ i, step (node x0 h i) (y i) = y (i + 1))
    (method : OdeMethod) (n : ℕ) :
    march method step x0 (y 0) h n = .ok (table x0 h y n) := by
  have hround : ∀ i, advance method step x0 h (positionAt y i) =
      .step (node x0 h (i + 1), y (i + 1)) (positionAt y (i + 1)) := by
    intro i
    simp [advance, positionAt, hstep]
  have hstart : (⟨0, y 0⟩ : Position K) = positionAt y 0 := rfl
  rw [march, hstart, iterate_eq_ok_of_forall_step hround, table_eq_cons]
  rfl

/-! ## The method of Milne -/

section Milne

variable (f : OdeFunction K) (x0 h : K) (y : ℕ → K)

/-- The ordinate and the slope of the sequence at a node. -/
def slopeAt (i : ℕ) : Slope K :=
  ⟨y i, f.rhs (node x0 h i) (y i)⟩

/-- What is known of the sequence up to a node. -/
def historyAt (i : ℕ) : History K :=
  ⟨i, slopeAt f x0 h y i, (List.range i).reverse.map (slopeAt f x0 h y)⟩

theorem push_historyAt (i : ℕ) :
    (historyAt f x0 h y i).push (slopeAt f x0 h y (i + 1)) =
      historyAt f x0 h y (i + 1) := by
  simp [historyAt, History.push, List.range_succ]

variable {f x0 h y} {cap m n : ℕ} {tolerance : K}

theorem nextOrdinate_historyAt_of_lt
    {i : ℕ} (hi : i < 3) :
    nextOrdinate f cap tolerance x0 h (historyAt f x0 h y i) =
      .ok (rungeKuttaStep f.rhs h (node x0 h i) (y i)) := by
  interval_cases i
  · rfl
  · rfl
  · rfl

theorem nextOrdinate_historyAt_add
    (i : ℕ) :
    nextOrdinate f cap tolerance x0 h (historyAt f x0 h y (i + 3)) =
      settle (fun z => corrector h (y (i + 2)) (slopeAt f x0 h y (i + 2)).slope
          (slopeAt f x0 h y (i + 3)).slope (f.rhs (node x0 h (i + 4)) z))
            cap tolerance
        (predictor h (y i) (slopeAt f x0 h y (i + 1)).slope
          (slopeAt f x0 h y (i + 2)).slope
          (slopeAt f x0 h y (i + 3)).slope) (node x0 h (i + 4)) := by
  have hearlier : (historyAt f x0 h y (i + 3)).earlier =
      slopeAt f x0 h y (i + 2) :: slopeAt f x0 h y (i + 1) ::
        slopeAt f x0 h y i ::
        (List.range i).reverse.map (slopeAt f x0 h y) := by
    simp [historyAt, List.range_succ]
  rw [nextOrdinate, hearlier]
  rfl

/-- The method leads along a sequence as long as it leads from each term to
the next. -/
theorem steps_milneRound
    (hnext : ∀ i < m, nextOrdinate f cap tolerance x0 h (historyAt f x0 h y i) =
      .ok (y (i + 1))) :
    Steps (milneRound f cap tolerance x0 h) (historyAt f x0 h y 0)
      ((List.range m).map fun i => (node x0 h (i + 1), y (i + 1)))
      (historyAt f x0 h y m) := by
  induction m with
  | zero => exact .refl
  | succ m ih =>
      rw [List.range_succ, List.map_append, List.map_singleton]
      refine (ih fun i hi => hnext i (hi.trans m.lt_succ_self)).snoc ?_
      rw [milneRound, hnext m m.lt_succ_self, ← push_historyAt]
      rfl

theorem milnePoints_eq_collect :
    milnePoints f cap x0 (y 0) h n tolerance =
      collect (x0, y 0)
        (iterate (milneRound f cap tolerance x0 h) n
          (historyAt f x0 h y 0)) := by
  have hstart : (⟨0, ⟨y 0, f.rhs x0 (y 0)⟩, []⟩ : History K) =
      historyAt f x0 h y 0 := by
    simp [historyAt, slopeAt]
  rw [milnePoints, hstart]

theorem milnePoints_eq_table_of_lt
    (hnext : ∀ i < m, nextOrdinate f cap tolerance x0 h (historyAt f x0 h y i) =
      .ok (y (i + 1))) :
    milnePoints f cap x0 (y 0) h m tolerance = .ok (table x0 h y m) := by
  have hrun := iterate_eq_ok_of_steps (steps_milneRound hnext)
  rw [List.length_map, List.length_range] at hrun
  rw [milnePoints_eq_collect, hrun, table_eq_cons]
  rfl

theorem milnePoints_eq_table
    (hnext : ∀ i, nextOrdinate f cap tolerance x0 h (historyAt f x0 h y i) =
      .ok (y (i + 1)))
    (n : ℕ) :
    milnePoints f cap x0 (y 0) h n tolerance = .ok (table x0 h y n) :=
  milnePoints_eq_table_of_lt fun i _ => hnext i

end Milne

end InitialValue
end NumericalMethods
