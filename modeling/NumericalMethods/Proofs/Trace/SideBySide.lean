import NumericalMethods.InitialValue
import NumericalMethods.Proofs.InitialValue.Grid
import NumericalMethods.Proofs.InitialValue.Refinement
import NumericalMethods.Registry.Ode
import NumericalMethods.Trace.Table

/-!
# Series side by side

A table of series joins them by index.  Its row `i` holds the ordinates of the
`i`-th points, of the series that are long enough, behind one abscissa for all
of them, that of the first.  So a row is right if and only if the abscissae of
these points print alike.  On parts of one grid they do, and with them in the
solutions of a problem by methods that do not halve their steps.  A method
that halves its step may put its own abscissae in front of the ordinates of
the others.
-/

namespace NumericalMethods

/-! ## Text with a number of places -/

namespace Decimal

theorem le_length_padded (width n : ℕ) : width ≤ (padded width n).length := by
  simp only [padded, List.length_append, List.length_replicate]
  omega

theorem fixedMagnitude_ne_empty (d : Dyadic) (places : ℕ) :
    fixedMagnitude d places ≠ "" := by
  have hlength :=
    le_length_padded (places + 1) (d.scaled (-places)).roundHalfEven
  intro hempty
  have hchars := congrArg String.toList hempty
  simp only [fixedMagnitude, String.toList_ofList, String.toList_empty,
    List.append_eq_nil_iff, List.take_eq_nil_iff] at hchars
  rcases hchars.1 with hwhole | hdigits
  · omega
  · rw [hdigits, List.length_nil] at hlength
    omega

/-- Every number has a text. -/
theorem fixed_ne_empty (places : ℕ) (x : Float) (plus : Bool) :
    fixed places x plus ≠ "" := by
  simp only [fixed]
  split
  · decide
  · simp
  · simp [fixedMagnitude_ne_empty]
  · simp [fixedMagnitude_ne_empty]

end Decimal

namespace Table

open Decimal (fixed)

/-! ## Rows -/

/-- The points whose ordinates are in row `i`, from the left to the right. -/
def pointsAt (series : List Series) (i : ℕ) : List (Float × Float) :=
  series.filterMap fun s => s.points[i]?

/-- The cells behind the first that are not empty are ordinates of the series,
each at index `i` of its own, and the first cell is the abscissa of all these
points. -/
def IsPaired (series : List Series) (i : ℕ) (row : List String) : Prop :=
  ∀ k cell, row[k + 1]? = some cell → cell ≠ "" →
    ∃ s point, series[k]? = some s ∧ s.points[i]? = some point ∧
      cell = traceCell point.2 ∧ row.head? = some (fixed 6 point.1)

/-- A row joins the series at index `i`: in front of the ordinates there is the
abscissa of the first point, and nothing stands for a series that has ended. -/
structure Joins (series : List Series) (i : ℕ) (row : List String) : Prop where
  length_eq : row.length = series.length + 1
  abscissa_eq : ∃ first, (pointsAt series i).head? = some first ∧
    row.head? = some (fixed 6 first.1)
  ordinate_eq : ∀ k s, series[k]? = some s → ∃ cell, row[k + 1]? = some cell ∧
    (cell ≠ "" ↔ i < s.points.length) ∧
    ∀ point, s.points[i]? = some point → cell = traceCell point.2

/-- All rows behind the titles are paired. -/
def AllPaired (abscissa : String) (series : List Series) : Prop :=
  ∀ i row, (seriesRows abscissa series)[i + 1]? = some row →
    IsPaired series i row

variable {series : List Series} {s : Series} {i : ℕ} {row : List String}

theorem mem_pointsAt {point : Float × Float} :
    point ∈ pointsAt series i ↔ ∃ s ∈ series, s.points[i]? = some point := by
  simp [pointsAt]

theorem rowAbscissa_eq_of_head? {first : Float × Float}
    (hfirst : (pointsAt series i).head? = some first) :
    rowAbscissa series i = first.1 := by
  rw [pointsAt, List.head?_filterMap] at hfirst
  simp [rowAbscissa, hfirst]

theorem ordinateCell_eq_of_getElem? {point : Float × Float}
    (hpoint : s.points[i]? = some point) :
    ordinateCell s i = traceCell point.2 := by
  simp [ordinateCell, hpoint]

theorem ordinateCell_ne_empty_iff : ordinateCell s i ≠ "" ↔
    i < s.points.length := by
  constructor
  · intro hcell
    by_contra hge
    exact hcell
      (by simp [ordinateCell, List.getElem?_eq_none (Nat.le_of_not_lt hge)])
  · intro hlt
    rw [ordinateCell_eq_of_getElem? (List.getElem?_eq_getElem hlt)]
    exact Decimal.fixed_ne_empty _ _ _

@[simp]
theorem head?_seriesRow (series : List Series) (i : ℕ) :
    (seriesRow series i).head? = some (fixed 6 (rowAbscissa series i)) :=
  rfl

@[simp]
theorem getElem?_seriesRow_succ (series : List Series) (i k : ℕ) :
    (seriesRow series i)[k + 1]? = series[k]?.map fun s =>
      ordinateCell s i := by
  simp [seriesRow]

theorem lt_foldl_max_length_iff (series : List Series) (n : ℕ) :
    i < series.foldl (fun n s => max n s.points.length) n ↔
      i < n ∨ ∃ s ∈ series, i < s.points.length := by
  induction series generalizing n with
  | nil => simp
  | cons s rest ih =>
      rw [List.foldl_cons, ih]
      simp [or_assoc]

/-- A table has a row for every index of one of the series. -/
theorem getElem?_seriesRows_succ_eq_some_iff (abscissa : String) :
    (seriesRows abscissa series)[i + 1]? = some row ↔
      (∃ s ∈ series, i < s.points.length) ∧ row = seriesRow series i := by
  have hlength := lt_foldl_max_length_iff (i := i) series 0
  simp only [Nat.not_lt_zero, false_or] at hlength
  rw [← hlength, seriesRows, List.getElem?_cons_succ, List.getElem?_map,
    Option.map_eq_some_iff]
  constructor
  · rintro ⟨j, hj, rfl⟩
    obtain ⟨hlt, rfl⟩ := List.getElem?_eq_some_iff.mp hj
    simp only [List.length_range] at hlt
    simp [hlt]
  · rintro ⟨hlt, rfl⟩
    exact ⟨i, List.getElem?_range hlt, rfl⟩

theorem joins_seriesRow (hsome : ∃ s ∈ series, i < s.points.length) :
    Joins series i (seriesRow series i) where
  length_eq := by simp [seriesRow]
  abscissa_eq := by
    obtain ⟨s, hs, hlt⟩ := hsome
    have hmem := mem_pointsAt.mpr ⟨s, hs, List.getElem?_eq_getElem hlt⟩
    obtain ⟨first, hfirst⟩ := Option.isSome_iff_exists.mp
      (List.isSome_head?.mpr (List.ne_nil_of_mem hmem))
    exact ⟨first, hfirst, by
      rw [head?_seriesRow, rowAbscissa_eq_of_head? hfirst]⟩
  ordinate_eq := by
    intro k s hk
    exact ⟨ordinateCell s i, by simp [hk], ordinateCell_ne_empty_iff,
      fun point hpoint => ordinateCell_eq_of_getElem? hpoint⟩

/-! ## Pairing -/

theorem isPaired_seriesRow_iff :
    IsPaired series i (seriesRow series i) ↔
      ∀ point ∈ pointsAt series i,
        fixed 6 point.1 = fixed 6 (rowAbscissa series i) := by
  constructor
  · intro hpaired point hmem
    obtain ⟨s, hs, hpoint⟩ := mem_pointsAt.mp hmem
    obtain ⟨k, hk⟩ := List.mem_iff_getElem?.mp hs
    have hcell : ordinateCell s i ≠ "" :=
      ordinateCell_ne_empty_iff.mpr (List.getElem?_eq_some_iff.mp hpoint).1
    obtain ⟨s', point', hs', hpoint', -, hhead⟩ :=
      hpaired k _ (by simp [hk]) hcell
    obtain rfl : s = s' := Option.some.inj (hk.symm.trans hs')
    obtain rfl : point = point' := Option.some.inj (hpoint.symm.trans hpoint')
    exact (Option.some.inj hhead).symm
  · intro halike k cell hcell hne
    rw [getElem?_seriesRow_succ, Option.map_eq_some_iff] at hcell
    obtain ⟨s, hk, rfl⟩ := hcell
    have hpoint := List.getElem?_eq_getElem (ordinateCell_ne_empty_iff.mp hne)
    refine ⟨s, _, hk, hpoint, ordinateCell_eq_of_getElem? hpoint, ?_⟩
    rw [head?_seriesRow,
      halike _ (mem_pointsAt.mpr ⟨s, List.mem_of_getElem? hk, hpoint⟩)]

/-- The abscissa of the row itself is no condition: it is that of one of the
points. -/
theorem isPaired_seriesRow_iff_forall_alike :
    IsPaired series i (seriesRow series i) ↔
      ∀ p ∈ pointsAt series i, ∀ q ∈ pointsAt series i,
        fixed 6 p.1 = fixed 6 q.1 := by
  rw [isPaired_seriesRow_iff]
  constructor
  · intro halike p hp q hq
    rw [halike p hp, halike q hq]
  · intro halike p hp
    cases hfirst : (pointsAt series i).head? with
    | none =>
        rw [List.head?_eq_none_iff.mp hfirst] at hp
        cases hp
    | some first =>
        rw [rowAbscissa_eq_of_head? hfirst]
        exact halike p hp first (List.mem_of_head? hfirst)

theorem allPaired_iff {abscissa : String} :
    AllPaired abscissa series ↔
      ∀ i, ∀ p ∈ pointsAt series i, ∀ q ∈ pointsAt series i,
        fixed 6 p.1 = fixed 6 q.1 := by
  constructor
  · intro hpaired i p hp
    obtain ⟨s, hs, hpoint⟩ := mem_pointsAt.mp hp
    have hrow := (getElem?_seriesRows_succ_eq_some_iff abscissa).mpr
      ⟨⟨s, hs, (List.getElem?_eq_some_iff.mp hpoint).1⟩, rfl⟩
    exact isPaired_seriesRow_iff_forall_alike.mp (hpaired i _ hrow) p hp
  · intro halike i row hrow
    obtain ⟨-, rfl⟩ := (getElem?_seriesRows_succ_eq_some_iff abscissa).mp hrow
    exact isPaired_seriesRow_iff_forall_alike.mpr (halike i)

/-- Parts of one grid can be tabulated side by side. -/
theorem allPaired_of_isPrefix {abscissa : String} {grid : List Float}
    (hgrid : ∀ s ∈ series, s.points.map Prod.fst <+: grid) :
    AllPaired abscissa series := by
  have hnode : ∀ i, ∀ p ∈ pointsAt series i, grid[i]? = some p.1 := by
    intro i p hp
    obtain ⟨s, hs, hpoint⟩ := mem_pointsAt.mp hp
    obtain ⟨hlt, hget⟩ := List.getElem?_eq_some_iff.mp hpoint
    rw [List.prefix_iff_getElem?.mp (hgrid s hs) i (by simpa using hlt),
      List.getElem_map, hget]
  rw [allPaired_iff]
  intro i p hp q hq
  rw [Option.some.inj ((hnode i p hp).symm.trans (hnode i q hq))]

end Table

/-! ## The solutions of a problem -/

/-- The points of all methods, as they are tabulated. -/
def OdeSolution.series (s : OdeSolution Float) : List Table.Series :=
  OdeMethod.all.map fun method => ⟨method.name, (s.trace method).points⟩

namespace InitialValue

open Decimal (fixed)
open Table

section Solve

variable {α : Type} [Scalar α] {settings : Settings} {method : OdeMethod}
  {f : OdeFunction α}
  {p : InitialValueProblem α} {s : OdeSolution α}

theorem trace_of_solve_eq_ok (hs : solve settings f p = .ok s)
    (method : OdeMethod) :
    trace settings method f p = .ok (s.trace method) := by
  simp only [solve, bind_eq_ok_iff] at hs
  obtain ⟨_, -, _, -, euler, heuler, extendedEuler, hextendedEuler, milne,
      hmilne, hs⟩ := hs
  cases hs
  cases method with
  | euler => exact heuler
  | extendedEuler => exact hextendedEuler
  | milne => exact hmilne

/-- Each method leaves points on the grid of its own step. -/
theorem map_fst_points_of_solve_eq_ok (hs : solve settings f p = .ok s)
    (method : OdeMethod) :
    (s.trace method).points.map Prod.fst =
      abscissae p.x0 (s.trace method).step
        (gridSize p.x0 p.xn (s.trace method).step) :=
  map_fst_run (exists_fine_of_trace_eq_ok (trace_of_solve_eq_ok hs method)).1

theorem step_of_not_refines {t : OdeTrace α}
    (ht : trace settings method f p = .ok t)
    (hrefine : settings.refineStep = false) : t.step = p.step := by
  obtain ⟨k, found, hfinds, rfl⟩ := exists_finds_of_trace_eq_ok ht
  have hk : k = 0 := by simpa [stepSearch, hrefine] using hfinds.le_limit
  rw [hk] at hfinds
  exact hfinds.step_eq

end Solve

variable {settings : Settings} {f : OdeFunction Float}
  {p : InitialValueProblem Float} {s : OdeSolution Float} {i : ℕ}

theorem mem_pointsAt_series {point : Float × Float} :
    point ∈ pointsAt s.series i ↔
      ∃ method, (s.trace method).points[i]? = some point := by
  have hmem : ∀ method : OdeMethod, method ∈ OdeMethod.all := by
    intro method
    cases method <;> decide
  simp [mem_pointsAt, OdeSolution.series, hmem]

/-- The abscissae that share a row are the nodes with one number, each on the
grid of its own method. -/
theorem exists_mem_pointsAt_series_iff (hs : solve settings f p = .ok s)
    {x : Float} :
    (∃ point ∈ pointsAt s.series i, point.1 = x) ↔
      ∃ method, (abscissae p.x0 (s.trace method).step
        (gridSize p.x0 p.xn (s.trace method).step))[i]? = some x := by
  simp only [mem_pointsAt_series, ← map_fst_points_of_solve_eq_ok hs,
    List.getElem?_map, Option.map_eq_some_iff]
  constructor
  · rintro ⟨point, ⟨method, hpoint⟩, hx⟩
    exact ⟨method, point, hpoint, hx⟩
  · rintro ⟨method, point, hpoint, hx⟩
    exact ⟨point, ⟨method, hpoint⟩, hx⟩

/-- The start is common to all methods, so only the nodes behind it matter. -/
theorem allPaired_series_iff (hs : solve settings f p = .ok s)
    {abscissa : String} :
    AllPaired abscissa s.series ↔
      ∀ method other i, i < gridSize p.x0 p.xn (s.trace method).step →
        i < gridSize p.x0 p.xn (s.trace other).step →
        fixed 6 (node p.x0 (s.trace method).step (i + 1)) =
          fixed 6 (node p.x0 (s.trace other).step (i + 1)) := by
  rw [allPaired_iff]
  constructor
  · intro halike method other i hi hi'
    obtain ⟨q, hq, hnode⟩ :=
      (exists_mem_pointsAt_series_iff hs).mpr
        ⟨method, getElem?_abscissae_of_lt hi⟩
    obtain ⟨r, hr, hnode'⟩ :=
      (exists_mem_pointsAt_series_iff hs).mpr
        ⟨other, getElem?_abscissae_of_lt hi'⟩
    rw [← hnode, ← hnode']
    exact halike (i + 1) q hq r hr
  · intro halike i q hq r hr
    obtain ⟨method, hnode⟩ :=
      (exists_mem_pointsAt_series_iff hs).mp ⟨q, hq, rfl⟩
    obtain ⟨other, hnode'⟩ :=
      (exists_mem_pointsAt_series_iff hs).mp ⟨r, hr, rfl⟩
    cases i with
    | zero => rw [← Option.some.inj hnode, ← Option.some.inj hnode']
    | succ i =>
        have hlt := (List.getElem?_eq_some_iff.mp hnode).1
        have hlt' := (List.getElem?_eq_some_iff.mp hnode').1
        rw [length_abscissae, Nat.succ_lt_succ_iff] at hlt hlt'
        rw [getElem?_abscissae_of_lt hlt] at hnode
        rw [getElem?_abscissae_of_lt hlt'] at hnode'
        rw [← Option.some.inj hnode, ← Option.some.inj hnode']
        exact halike method other i hlt hlt'

theorem allPaired_series_of_not_refines (hs : solve settings f p = .ok s)
    {abscissa : String} (hrefine : settings.refineStep = false) :
    AllPaired abscissa s.series := by
  have hgrid : ∀ series ∈ s.series,
      series.points.map Prod.fst <+:
        abscissae p.x0 p.step (gridSize p.x0 p.xn p.step) := by
    intro series hseries
    obtain ⟨method, -, rfl⟩ := List.mem_map.mp hseries
    have hstep := step_of_not_refines (trace_of_solve_eq_ok hs method) hrefine
    rw [map_fst_points_of_solve_eq_ok hs, hstep]
  exact allPaired_of_isPrefix hgrid

end InitialValue

namespace Table

open Decimal (fixed)
open InitialValue (solve gridSize node)

/-- A table of series has a row for every index of one of the series, with the
abscissa of the first point at that index and the ordinates of all of them.  The
row is paired if and only if the abscissae of these points print alike.  So all
rows are if the series are parts of one grid.  For the solutions of a problem
they are if and only if the nodes of the methods' own grids print alike, number
by number, and so they are where no step is halved. -/
theorem seriesRows_paired (abscissa : String) (series : List Series) :
    (∀ i, ((∃ row, (seriesRows abscissa series)[i + 1]? = some row) ↔
        ∃ s ∈ series, i < s.points.length) ∧
      ∀ row, (seriesRows abscissa series)[i + 1]? = some row →
        Joins series i row ∧
        (IsPaired series i row ↔
          ∀ q ∈ pointsAt series i, ∀ r ∈ pointsAt series i,
            fixed 6 q.1 = fixed 6 r.1)) ∧
    (∀ grid, (∀ s ∈ series, s.points.map Prod.fst <+: grid) →
      AllPaired abscissa series) ∧
    ∀ settings f p solution, solve settings f p = .ok solution →
      series = solution.series →
      (AllPaired abscissa series ↔
        ∀ method other i, i < gridSize p.x0 p.xn (solution.trace method).step →
          i < gridSize p.x0 p.xn (solution.trace other).step →
          fixed 6 (node p.x0 (solution.trace method).step (i + 1)) =
            fixed 6 (node p.x0 (solution.trace other).step (i + 1))) ∧
      (settings.refineStep = false → AllPaired abscissa series) := by
  refine ⟨fun i => ⟨?_, fun row hrow => ?_⟩,
    fun grid hgrid => allPaired_of_isPrefix hgrid, ?_⟩
  · simp [getElem?_seriesRows_succ_eq_some_iff]
  · obtain ⟨hsome, rfl⟩ :=
      (getElem?_seriesRows_succ_eq_some_iff abscissa).mp hrow
    exact ⟨joins_seriesRow hsome, isPaired_seriesRow_iff_forall_alike⟩
  · rintro settings f p solution hs rfl
    exact ⟨InitialValue.allPaired_series_iff hs,
      InitialValue.allPaired_series_of_not_refines hs⟩

open Registry.OdeEquation (quadraticSource)

/-- Where the first method halves its step and the others do not, their second
points are printed at half of their abscissa.  Without the halving, all rows are
right. -/
theorem seriesRows_paired_quadraticSource :
    (∃ solution,
      solve ⟨100, true, 10⟩ quadraticSource.function ⟨0, 1, 0.5, 0.5, 0.1⟩ =
        .ok solution ∧
      (seriesRows "x" solution.series)[2]? =
        some ["0.250000", "0.50000000", "0.53125000", "0.40885417"] ∧
      ¬ IsPaired solution.series 1
        ["0.250000", "0.50000000", "0.53125000", "0.40885417"] ∧
      ¬ AllPaired "x" solution.series) ∧
    ∃ solution,
      solve ⟨100, false, 10⟩ quadraticSource.function ⟨0, 1, 0.5, 0.5, 0.1⟩ =
        .ok solution ∧
      AllPaired "x" solution.series := by
  constructor
  · have hvalue : (solve ⟨100, true, 10⟩ quadraticSource.function
        ⟨0, 1, 0.5, 0.5, 0.1⟩).toOption.map
        (fun s => (s.euler.step, s.milne.step, (seriesRows "x" s.series)[2]?,
          pointsAt s.series 1)) =
        some (0.25, 0.5,
          some ["0.250000", "0.50000000", "0.53125000", "0.40885417"],
          [(0.25, 0.5), (0.5, 0.53125), (0.5, 0.40885416666666663)]) := by
            decide +kernel
    obtain ⟨s, hs, hend⟩ := exists_eq_ok_of_map_eq_some hvalue
    simp only [Prod.mk.injEq] at hend
    obtain ⟨heuler, hmilne, hrow, hpoints⟩ := hend
    obtain ⟨hrows, -, hsolutions⟩ := seriesRows_paired "x" s.series
    have hprinted : Decimal.fixed 6 0.25 ≠ Decimal.fixed 6 0.5 := by
      decide +kernel
    refine ⟨s, hs, hrow, ?_, ?_⟩
    · intro hpaired
      have halike := ((hrows 1).2 _ hrow).2.mp hpaired
      rw [hpoints] at halike
      exact hprinted (halike (0.25, 0.5) (by simp) (0.5, 0.53125) (by simp))
    · intro hall
      have halike := (hsolutions _ _ _ _ hs rfl).1.mp hall .euler .milne 0
      simp only [OdeSolution.trace, heuler, hmilne] at halike
      revert halike
      decide +kernel
  · have hvalue : (solve ⟨100, false, 10⟩ quadraticSource.function
        ⟨0, 1, 0.5, 0.5, 0.1⟩).toOption.map (fun _ => ()) =
          some () := by decide +kernel
    obtain ⟨s, hs, -⟩ := exists_eq_ok_of_map_eq_some hvalue
    obtain ⟨-, -, hsolutions⟩ := seriesRows_paired "x" s.series
    exact ⟨s, hs, (hsolutions _ _ _ _ hs rfl).2 rfl⟩

end Table
end NumericalMethods
