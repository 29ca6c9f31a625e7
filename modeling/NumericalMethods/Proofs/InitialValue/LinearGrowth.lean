import NumericalMethods.Proofs.Exact.Rational
import NumericalMethods.Proofs.InitialValue.Sequence

/-!
# Growth at a constant rate

Where the slope is a constant multiple of the ordinate, a one-step method
multiplies the ordinate by the same factor in every step.  The factor is the
Taylor polynomial of the exponential function of `z`, the rate times the step,
up to the order of the method.  The method of Milne starts in this way with the
factor of the method of Runge and Kutta, whatever its corrector makes of the
points behind.
-/

namespace NumericalMethods
namespace InitialValue

variable {K : Type} [Field K] [LinearOrder K] [ExactArithmetic K]

/-! ## The start-up of the method of Milne -/

section StartUp

variable {f : OdeFunction K} {x0 h : K} {y : ℕ → K} {cap m n : ℕ}
  {tolerance : K}

/-- The points of a solution, or of the partial trace of an error. -/
def keptPoints {α : Type} : Except (EngineError α) (List (α × α)) → List (α × α)
  | .ok points => points
  | .error e =>
    match e.partialTrace? with
    | some (.points made) => made
    | _ => []

theorem keptPoints_collect
    {α σ : Type} (start : α × α)
    (outcome : Except (Breakdown α × List (α × α)) (Run (α × α) σ)) :
    keptPoints (collect start outcome) = start :: completedEntries outcome := by
  cases outcome with
  | ok run => rfl
  | error stopped => rfl

/-- More steps leave these points at the front, even if they break down. -/
theorem table_prefix_keptPoints
    (hnext : ∀ i < m, nextOrdinate f cap tolerance x0 h (historyAt f x0 h y i) =
      .ok (y (i + 1)))
    (hm : m ≤ n) :
    table x0 h y m <+:
      keptPoints (milnePoints f cap x0 (y 0) h n tolerance) := by
  have hfirst := milnePoints_eq_table_of_lt hnext
  have hkept : keptPoints (milnePoints f cap x0 (y 0) h m tolerance) =
      table x0 h y m := by
    rw [hfirst]
    rfl
  rw [← hkept, milnePoints_eq_collect, milnePoints_eq_collect,
    keptPoints_collect, keptPoints_collect]
  exact (List.prefix_cons_inj _).mpr (completedEntries_prefix_of_le hm)

end StartUp

/-! ## Factors -/

section Factors

variable [IsStrictOrderedRing K] {g : OdeFunction K} {k : K}

/-- The ordinates of growth by a factor. -/
def growing (y0 factor : K) (i : ℕ) : K :=
  y0 * factor ^ i

omit [LinearOrder K] [ExactArithmetic K] [IsStrictOrderedRing K] in
theorem growing_zero (y0 factor : K) : growing y0 factor 0 = y0 := by
  rw [growing, pow_zero, mul_one]

omit [LinearOrder K] [ExactArithmetic K] [IsStrictOrderedRing K] in
theorem growing_succ (y0 factor : K) (i : ℕ) :
    growing y0 factor (i + 1) = growing y0 factor i * factor := by
  rw [growing, growing, pow_succ, mul_assoc]

omit [IsStrictOrderedRing K] in
/-- A method that multiplies the ordinate in every step leaves a geometric
sequence. -/
theorem march_eq_table_growing
    {step : K → K → K} {factor : K} (hstep : ∀ x y, step x y = y * factor)
    (method : OdeMethod) (x0 y0 h : K) (n : ℕ) :
    march method step x0 y0 h n = .ok (table x0 h (growing y0 factor) n) := by
  have hnext : ∀ i, step (node x0 h i) (growing y0 factor i) =
      growing y0 factor (i + 1) := by
    intro i
    rw [hstep, growing_succ]
  simpa only [growing_zero] using march_eq_table hnext method n

variable (hg : ∀ x y, g.rhs x y = k * y)
include hg

omit [IsStrictOrderedRing K] in
theorem eulerStep_eq_mul (h x y : K) :
    eulerStep g.rhs h x y = y * (1 + k * h) := by
  rw [eulerStep, hg]
  ring

theorem midpointStep_eq_mul (h x y : K) :
    midpointStep g.rhs h x y = y * (1 + k * h + (k * h) ^ 2 / 2) := by
  have htwo : (2.0 : K) = 2 := by norm_num
  simp only [midpointStep, hg, htwo]
  ring

/-- Each of the four slopes takes up the one before, and adds a power of `z`. -/
theorem rungeKuttaStep_eq_mul (h x y : K) :
    rungeKuttaStep g.rhs h x y =
      y * (1 + k * h + (k * h) ^ 2 / 2 + (k * h) ^ 3 / 6 +
        (k * h) ^ 4 / 24) := by
  have htwo : (2.0 : K) = 2 := by norm_num
  have hsix : (6.0 : K) = 6 := by norm_num
  simp only [rungeKuttaStep, hg, htwo, hsix]
  field_simp
  ring

theorem nextOrdinate_growing {i : ℕ} (hi : i < 3) (cap : ℕ)
    (tolerance x0 y0 h : K) :
    nextOrdinate g cap tolerance x0 h
        (historyAt g x0 h (growing y0
          (1 + k * h + (k * h) ^ 2 / 2 + (k * h) ^ 3 / 6 + (k * h) ^ 4 / 24))
            i) =
      .ok (growing y0
        (1 + k * h + (k * h) ^ 2 / 2 + (k * h) ^ 3 / 6 + (k * h) ^ 4 / 24)
        (i + 1)) := by
  rw [nextOrdinate_historyAt_of_lt hi, rungeKuttaStep_eq_mul hg, growing_succ]

end Factors

/-- For growth at the rate `k` every step multiplies the ordinate by the Taylor
polynomial of the exponential function at `k * h`: of degree one for the method
of Euler, of degree two for the extended one, and of degree four for the
start-up of the method of Milne.  The points of that start-up are there at any
number of steps, and whether or not the corrector settles. -/
theorem points_of_linearGrowth
    [IsStrictOrderedRing K] {g : OdeFunction K} {k : K}
    (hg : ∀ x y, g.rhs x y = k * y) (x0 y0 h : K) (n : ℕ) :
    let z := k * h
    eulerPoints g x0 y0 h n = .ok (table x0 h (fun i => y0 * (1 + z) ^ i) n) ∧
    extendedEulerPoints g x0 y0 h n =
      .ok (table x0 h (fun i => y0 * (1 + z + z ^ 2 / 2) ^ i) n) ∧
    (∀ cap tolerance, n ≤ 3 → milnePoints g cap x0 y0 h n tolerance =
      .ok (table x0 h
        (fun i => y0 * (1 + z + z ^ 2 / 2 + z ^ 3 / 6 + z ^ 4 / 24) ^ i) n)) ∧
    ∀ cap tolerance,
      table x0 h
        (fun i => y0 * (1 + z + z ^ 2 / 2 + z ^ 3 / 6 + z ^ 4 / 24) ^ i)
        (min n 3) <+:
        keptPoints (milnePoints g cap x0 y0 h n tolerance) := by
  intro z
  refine ⟨?_, ?_, ?_, ?_⟩
  · exact march_eq_table_growing (eulerStep_eq_mul hg h) .euler x0 y0 h n
  · exact march_eq_table_growing (midpointStep_eq_mul hg h)
      .extendedEuler x0 y0 h n
  · intro cap tolerance hn
    have hpoints := milnePoints_eq_table_of_lt (m := n) fun i hi =>
      nextOrdinate_growing hg (lt_of_lt_of_le hi hn) cap tolerance x0 y0 h
    rw [growing_zero] at hpoints
    exact hpoints
  · intro cap tolerance
    have hpoints := table_prefix_keptPoints (m := min n 3) (n := n) (fun i hi =>
      nextOrdinate_growing hg (lt_of_lt_of_le hi (min_le_right n 3)) cap
        tolerance x0 y0 h)
      (min_le_left n 3)
    rw [growing_zero] at hpoints
    exact hpoints

/-- Decay at the rate two. -/
def decay : OdeFunction ℚ where
  rhs _ y := -2 * y

theorem points_of_linearGrowth_decay :
    eulerPoints decay 0 1 (1 / 2) 2 = .ok [(0, 1), (1 / 2, 0), (1, 0)] ∧
    extendedEulerPoints decay 0 1 (1 / 2) 2 =
      .ok [(0, 1), (1 / 2, 1 / 2), (1, 1 / 4)] ∧
    (∀ cap tolerance, milnePoints decay cap 0 1 (1 / 2) 2 tolerance =
      .ok [(0, 1), (1 / 2, 3 / 8), (1, 9 / 64)]) ∧
    ∀ cap tolerance,
      [(0, 1), (1 / 2, 3 / 8), (1, 9 / 64), (3 / 2, 27 / 512)] <+:
      keptPoints (milnePoints decay cap 0 1 (1 / 2) 10 tolerance) := by
  have hdecay : ∀ x y, decay.rhs x y = -2 * y := fun _ _ => rfl
  obtain ⟨heuler, hextended, hstart, -⟩ :=
    points_of_linearGrowth hdecay 0 1 (1 / 2) 2
  obtain ⟨-, -, -, hfront⟩ := points_of_linearGrowth hdecay 0 1 (1 / 2) 10
  refine ⟨?_, ?_, ?_, ?_⟩
  · rw [heuler]
    norm_num [table, List.range_succ, node]
  · rw [hextended]
    norm_num [table, List.range_succ, node]
  · intro cap tolerance
    rw [hstart cap tolerance (by decide)]
    norm_num [table, List.range_succ, node]
  · intro cap tolerance
    have hpoints := hfront cap tolerance
    norm_num [table, List.range_succ, node] at hpoints
    exact hpoints

end InitialValue
end NumericalMethods
