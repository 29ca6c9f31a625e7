import Mathlib.Algebra.Group.Nat.Defs
import NumericalMethods.Proofs.Binary64.Scaling
import NumericalMethods.Proofs.Binary64.Undefined
import NumericalMethods.Proofs.InitialValue.Grid
import NumericalMethods.Proofs.InitialValue.Refinement

/-!
# The last node two grids share

The Runge estimate compares a solution with one computed at half the step, at
the last node of the coarse grid.  It takes for granted that this node is also
one of the fine grid.  The two grids count their steps independently, each with
the same allowance for rounding, so that can fail; where it fails for lack of a
node, the estimate is undefined.  The nodes themselves agree unless the step is
too small to be halved.
-/

namespace NumericalMethods
namespace InitialValue

section

variable {α : Type} [Scalar α]

/-- Half of the step leads to the end of the coarse grid in twice as many
steps. -/
def HalvesGrid (p : InitialValueProblem α) (h : α) : Prop :=
  2 * gridSize p.x0 p.xn h ≤ gridSize p.x0 p.xn (h / 2.0) ∧
    (gridSize p.x0 p.xn h ≠ 0 →
      node p.x0 (h / 2.0) (2 * gridSize p.x0 p.xn h) =
        node p.x0 h (gridSize p.x0 p.xn h))

/-- The coarse solution ends with the ordinate `y`, and the fine one has the
ordinate `y'` at the same abscissa, at twice the index. -/
def CommonEnd (coarse fine : List (α × α)) (y y' : α) : Prop :=
  ∃ x, coarse.getLast? = some (x, y) ∧
    fine[2 * (coarse.length - 1)]? = some (x, y')

theorem rungeError_of_commonEnd
    {method : OdeMethod} {coarse fine : List (α × α)} {y y' : α}
    (hend : CommonEnd coarse fine y y') :
    rungeError method coarse fine =
      Scalar.abs (y - y') / Scalar.rungeDivisor method.order := by
  obtain ⟨x, hcoarse, hfine⟩ := hend
  simp [rungeError, hcoarse, hfine]

theorem rungeError_of_length_le
    {method : OdeMethod} {coarse fine : List (α × α)}
    (hfine : fine.length ≤ 2 * (coarse.length - 1)) :
    rungeError method coarse fine =
      Scalar.abs
        ((coarse.getLast?.map Prod.snd).getD Scalar.undefined -
          Scalar.undefined) /
        Scalar.rungeDivisor method.order := by
  simp [rungeError, List.getElem?_eq_none hfine]

omit [Scalar α] in
theorem exists_commonEnd_iff_getElem?_eq
    {coarse fine : List (α × α)} {xs xs' : List α} {n : ℕ}
    (hcoarse : coarse.map Prod.fst = xs) (hfine : fine.map Prod.fst = xs')
    (hlength : coarse.length = n + 1) :
    (∃ y y', CommonEnd coarse fine y y') ↔ xs[n]? = xs'[2 * n]? := by
  have hlast : coarse.getLast? = coarse[n]? := by
    rw [List.getLast?_eq_getElem?, hlength, Nat.add_sub_cancel]
  have hn : n < coarse.length := by omega
  obtain ⟨⟨x, y⟩, hxy⟩ : ∃ point, coarse[n]? = some point :=
    ⟨_, List.getElem?_eq_getElem hn⟩
  have hx : xs[n]? = some x := by
    rw [← hcoarse, List.getElem?_map, hxy, Option.map_some]
  have hx' : xs'[2 * n]? = fine[2 * n]?.map Prod.fst := by
    rw [← hfine, List.getElem?_map]
  simp only [CommonEnd, hlast, hxy, hx, hx', hlength, Nat.add_sub_cancel]
  constructor
  · rintro ⟨_, y', x', hxy', hfineEnd⟩
    rw [hfineEnd, Option.map_some]
    simpa using congrArg (Option.map Prod.fst) hxy'
  · intro hfst
    cases hpoint : fine[2 * n]? with
    | none => simp [hpoint] at hfst
    | some point =>
        rw [hpoint, Option.map_some, Option.some.injEq] at hfst
        exact ⟨y, point.2, x, rfl, by rw [hfst]⟩

/-- The solutions with a step and with half of it share the end of the coarse
grid exactly when the fine grid has that node. -/
theorem exists_commonEnd_iff_halvesGrid
    {settings : Settings} {method : OdeMethod} {f : OdeFunction α}
    {p : InitialValueProblem α} {h : α} {coarse fine : List (α × α)}
    (hcoarse : run settings method f p h = .ok coarse)
    (hfine : run settings method f p (h / 2.0) = .ok fine) :
    (∃ y y', CommonEnd coarse fine y y') ↔ HalvesGrid p h := by
  rw [exists_commonEnd_iff_getElem?_eq (map_fst_run hcoarse) (map_fst_run hfine)
    (length_run hcoarse), HalvesGrid]
  generalize gridSize p.x0 p.xn h = n
  generalize gridSize p.x0 p.xn (h / 2.0) = n'
  cases n with
  | zero => simp [abscissae]
  | succ k =>
      rw [getElem?_abscissae_of_lt (Nat.lt_succ_self k)]
      have hdouble : 2 * (k + 1) = (2 * k + 1) + 1 := by omega
      by_cases hn' : 2 * (k + 1) ≤ n'
      · rw [hdouble, getElem?_abscissae_of_lt (by omega)]
        constructor
        · intro hnode
          exact ⟨by omega, fun _ => (Option.some.inj hnode).symm⟩
        · intro hgrid
          exact congrArg some (hgrid.2 (Nat.succ_ne_zero k)).symm
      · rw [List.getElem?_eq_none (by rw [length_abscissae]; omega)]
        simp [hn']

end

/-! ## Binary numbers -/

theorem rungeDivisor_order (method : OdeMethod) :
    (Scalar.rungeDivisor method.order : Float) = Float.ofNat
      (2 ^ method.order - 1) := by
  cases method <;> decide +kernel

theorem gridSize_lt (x0 xn h : Float) : gridSize x0 xn h < 2 ^ 64 :=
  UInt64.toNat_lt _

/-- A grid of half the step has the nodes of the whole step, at twice the
index. -/
theorem node_half
    {h : Float} (hstep : Binary64.leastHalvable ≤ h)
    (hfinite : h.isFinite = true) {n : ℕ} (hpositive : 0 < n) (hn : n < 2 ^ 64)
    (x0 : Float) :
    node x0 (h / 2.0) (2 * n) = node x0 h n :=
  congrArg (x0 + ·) (Binary64.ofNat_double_mul_half hstep hfinite hpositive hn)

/-- Only the number of steps can keep half of a step from leading to the end of
the coarse grid. -/
theorem halvesGrid_iff
    {p : InitialValueProblem Float} {h : Float}
    (hstep : Binary64.leastHalvable ≤ h) (hfinite : h.isFinite = true) :
    HalvesGrid p h ↔ 2 * gridSize p.x0 p.xn h ≤ gridSize p.x0 p.xn (h / 2.0) :=
  and_iff_left fun hpositive =>
    node_half hstep hfinite (Nat.pos_of_ne_zero hpositive)
      (gridSize_lt p.x0 p.xn h) p.x0

/-- Without a node at the end of the coarse grid the estimate is undefined. -/
theorem isNaN_rungeError_of_length_le
    {method : OdeMethod} {coarse fine : List (Float × Float)}
    (hfine : fine.length ≤ 2 * (coarse.length - 1)) :
    (rungeError method coarse fine).isNaN = true := by
  rw [rungeError_of_length_le hfine]
  exact Binary64.isNaN_div_of_left
    (Binary64.isNaN_abs (Binary64.isNaN_sub_of_right Binary64.isNaN_undefined))

/-- The solutions with a step and with half of it have the end of the coarse
grid in common exactly when the fine grid has that node, and then the estimate
is their scaled difference there.  A fine grid with less than twice as many
steps leaves it undefined, and for a step that can be halved without loss
nothing else does.  A trace with that step reports this estimate. -/
theorem rungeError_of_run
    {settings : Settings} {method : OdeMethod} {f : OdeFunction Float}
    {p : InitialValueProblem Float} {h : Float}
    {coarse fine : List (Float × Float)}
    (hcoarse : run settings method f p h = .ok coarse)
    (hfine : run settings method f p (h / 2.0) = .ok fine) :
    ((∃ y y', CommonEnd coarse fine y y') ↔ HalvesGrid p h) ∧
    (∀ y y', CommonEnd coarse fine y y' →
      rungeError method coarse fine =
        (y - y').abs / Float.ofNat (2 ^ method.order - 1)) ∧
    (gridSize p.x0 p.xn (h / 2.0) < 2 * gridSize p.x0 p.xn h →
      (rungeError method coarse fine).isNaN = true) ∧
    (Binary64.leastHalvable ≤ h → h.isFinite = true →
      (HalvesGrid p h ↔ 2 * gridSize p.x0 p.xn h ≤
        gridSize p.x0 p.xn (h / 2.0))) ∧
    ∀ t, trace settings method f p = .ok t → t.step = h →
      t.points = coarse ∧ t.rungeError = rungeError method coarse fine := by
  refine ⟨exists_commonEnd_iff_halvesGrid hcoarse hfine, ?_, ?_,
    halvesGrid_iff, ?_⟩
  · intro y y' hend
    rw [rungeError_of_commonEnd hend, rungeDivisor_order]
    rfl
  · intro hshort
    refine isNaN_rungeError_of_length_le ?_
    rw [length_run hfine, length_run hcoarse]
    omega
  · rintro t ht rfl
    obtain ⟨hpoints, finer, hfiner, herror⟩ := exists_fine_of_trace_eq_ok ht
    obtain rfl : t.points = coarse := Except.ok.inj (hpoints.symm.trans hcoarse)
    obtain rfl : finer = fine := Except.ok.inj (hfiner.symm.trans hfine)
    exact ⟨rfl, herror⟩

/-- Values that never change. -/
def constant : OdeFunction Float where
  rhs := fun _ _ => 0

/-- An interval that is one step long but for less than a billionth of it. -/
def almostOneStep : InitialValueProblem Float :=
  ⟨0, 1, 0.9999999993, 1, 0.01⟩

/-- Both runs succeed, the grid of half the step has one step only, and the
estimate is undefined. -/
theorem rungeError_of_run_almostOneStep :
    almostOneStep.validate = .ok () ∧
    run ⟨100, false, 10⟩ .euler constant almostOneStep 1 =
      .ok [(0, 1), (1, 1)] ∧
    run ⟨100, false, 10⟩ .euler constant almostOneStep (1 / 2.0) =
      .ok [(0, 1), (0.5, 1)] ∧
    ¬ HalvesGrid almostOneStep 1 ∧
    (rungeError .euler [(0, 1), (1, 1)] [(0, 1), (0.5, 1)] : Float).isNaN =
      true := by
  have hcoarse : run ⟨100, false, 10⟩ .euler constant almostOneStep 1 =
      .ok [(0, 1), (1, 1)] := by decide +kernel
  have hfine : run ⟨100, false, 10⟩ .euler constant almostOneStep (1 / 2.0) =
      .ok [(0, 1), (0.5, 1)] := by decide +kernel
  have hsizes : gridSize almostOneStep.x0 almostOneStep.xn (1 / 2.0) <
      2 * gridSize almostOneStep.x0 almostOneStep.xn 1 := by decide +kernel
  obtain ⟨-, -, hundefined, hcount, -⟩ := rungeError_of_run hcoarse hfine
  have hhalvable := hcount (by decide +kernel) (by decide +kernel)
  exact ⟨by decide +kernel, hcoarse, hfine,
    fun hgrid => Nat.not_le_of_lt hsizes (hhalvable.mp hgrid),
      hundefined hsizes⟩

end InitialValue
end NumericalMethods
