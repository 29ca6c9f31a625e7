import NumericalMethods.Proofs.Binary64.Largest
import NumericalMethods.Proofs.InitialValue.Prefix
import NumericalMethods.Proofs.InitialValue.Refinement

/-!
# The distance from an exact solution

A trace of an equation with a known solution reports the largest distance of
its points from that solution.  In binary numbers the known solution may be
undefined at a node, where zero is multiplied with infinity or two infinite
terms cancel, and the maximum passes over this node.  So the reported distance
bounds the distances at the nodes where the solution is defined, and at no
other ones.
-/

namespace NumericalMethods
namespace InitialValue

/-! ## The maximum over the points -/

section Maximum

variable {α : Type} [Scalar α] {exact : α → Option α} {point : α × α}
  {points : List (α × α)}
variable {e m : α}

/-- How far a point is from a solution, undefined where the solution is not
known. -/
def distance (exact : α → Option α) (point : α × α) : α :=
  Scalar.abs ((exact point.1).getD Scalar.undefined - point.2)

theorem distance_eq (he : exact point.1 = some e) :
    distance exact point = Scalar.abs (e - point.2) := by
  rw [distance, he, Option.getD_some]

theorem foldlM_larger_eq_some_iff (start : α) :
    points.foldlM (fun largest point => (exact point.1).map fun e =>
        Scalar.larger largest (Scalar.abs (e - point.2))) start = some m ↔
      (∀ point ∈ points, ∃ e, exact point.1 = some e) ∧
        points.foldl (fun q point => Scalar.larger q (distance exact point))
          start = m := by
  induction points generalizing start with
  | nil => simp
  | cons point points ih =>
      cases he : exact point.1 with
      | none => simp [he]
      | some e => simp [he, ih, distance_eq he]

/-- There is a largest distance if the solution is known at all points. -/
theorem maxAbsError_eq_some_iff :
    maxAbsError exact points = some m ↔
      (∀ point ∈ points, ∃ e, exact point.1 = some e) ∧
        points.foldl (fun q point => Scalar.larger q (distance exact point)) 0 =
          m :=
  foldlM_larger_eq_some_iff 0

end Maximum

section Bound

variable {exact : Float → Option Float} {point : Float × Float}
  {points : List (Float × Float)}
variable {m : Float}

theorem isNaN_maxAbsError (hm : maxAbsError exact points = some m) :
    m.isNaN = false := by
  obtain ⟨-, rfl⟩ := maxAbsError_eq_some_iff.mp hm
  exact Binary64.isNaN_foldl_larger rfl (distance exact) points

/-- The largest distance bounds every distance that is defined. -/
theorem distance_le_maxAbsError_iff (hm : maxAbsError exact points = some m)
    (hpoint : point ∈ points) :
    distance exact point ≤ m ↔ (distance exact point).isNaN = false := by
  refine ⟨fun hle => (Binary64.isNaN_of_le hle).1, fun hdefined => ?_⟩
  obtain ⟨-, rfl⟩ := maxAbsError_eq_some_iff.mp hm
  exact (Binary64.le_foldl_larger_iff rfl (distance exact) points).mpr
    (.inr ⟨point, hpoint, Binary64.le_self_iff.mpr hdefined⟩)

theorem maxAbsError_eq_zero_or_exists (hm : maxAbsError exact points = some m) :
    m = 0 ∨ ∃ point ∈ points, m = distance exact point := by
  obtain ⟨-, rfl⟩ := maxAbsError_eq_some_iff.mp hm
  exact Binary64.foldl_larger_eq_or_exists 0 (distance exact) points

end Bound

/-! ## Traces -/

section Trace

variable {α : Type} [Scalar α] {settings : Settings} {method : OdeMethod}

theorem isFinite_of_run_eq_ok {f : OdeFunction α}
    {p : InitialValueProblem α} {h : α} {points : List (α × α)}
    (hy0 : Scalar.isFinite p.y0 = true)
    (hrun : run settings method f p h = .ok points) :
    ∀ point ∈ points, Scalar.isFinite point.2 = true := by
  have hstorable : Storable (gridSize p.x0 p.xn h) := by
    simp only [run, solutionPoints, reserve_bind_eq_ok_iff] at hrun
    exact hrun.1
  obtain ⟨computed, hcomputed, hsolution⟩ :=
    exists_continues settings method f p.x0 h p.tolerance hy0
  rw [run, hsolution _ hstorable, liftError_eq_ok_iff] at hrun
  exact hcomputed.isFinite hrun

/-- A trace reports a distance if the constant is known and the solution is
known at all of its points.  The distance is zero or that of one of the points.
It bounds the distance of every point where the known solution less the ordinate
is defined, and of no other one; if the problem starts from a finite ordinate,
these are the points where the solution itself is defined. -/
theorem maxAbsError_of_trace {f : OdeFunction Float}
    {p : InitialValueProblem Float} {t : OdeTrace Float}
    (ht : trace settings method f p = .ok t) :
    (∀ c, f.integrationConstant p.x0 p.y0 = some c →
      (∀ point ∈ t.points, ∃ e, f.exactSolution point.1 c = some e) →
      ∃ m, t.maxAbsError = some m) ∧
    ∀ m, t.maxAbsError = some m →
      ∃ c, f.integrationConstant p.x0 p.y0 = some c ∧ m.isNaN = false ∧
        (∀ point ∈ t.points, ∃ e, f.exactSolution point.1 c = some e ∧
          ((e - point.2).abs ≤ m ↔ (e - point.2).isNaN = false) ∧
          (p.y0.isFinite = true → (e - point.2).isNaN = e.isNaN)) ∧
        (m = 0 ∨ ∃ point ∈ t.points, ∃ e, f.exactSolution point.1 c = some e ∧
          m = (e - point.2).abs) := by
  obtain ⟨k, found, hfinds, rfl⟩ := exists_finds_of_trace_eq_ok ht
  constructor
  · intro c hc hknown
    obtain ⟨m, hm⟩ : ∃ m,
        maxAbsError (fun x => f.exactSolution x c) found.points = some m :=
      ⟨_, maxAbsError_eq_some_iff.mpr ⟨hknown, rfl⟩⟩
    exact ⟨m, Option.bind_eq_some_iff.mpr ⟨c, hc, hm⟩⟩
  · intro m hreported
    obtain ⟨c, hc, hm⟩ := Option.bind_eq_some_iff.mp hreported
    have hknown := (maxAbsError_eq_some_iff.mp hm).1
    refine ⟨c, hc, isNaN_maxAbsError hm, ?_, ?_⟩
    · intro point hpoint
      obtain ⟨e, he⟩ := hknown point hpoint
      refine ⟨e, he, ?_, ?_⟩
      · have hbound := distance_le_maxAbsError_iff hm hpoint
        have habs : (Scalar.abs (e - point.2)).isNaN = (e - point.2).isNaN :=
          Binary64.isNaN_abs_eq _
        rwa [distance_eq he, habs] at hbound
      · intro hy0
        exact Binary64.isNaN_sub_eq
          (isFinite_of_run_eq_ok hy0 hfinds.points_eq point hpoint)
    · refine (maxAbsError_eq_zero_or_exists hm).imp_right ?_
      rintro ⟨point, hpoint, heq⟩
      obtain ⟨e, he⟩ := hknown point hpoint
      rw [distance_eq he] at heq
      exact ⟨point, hpoint, e, he, heq⟩

end Trace

/-- Hyperbolas around the axes, undefined at zero on the axis itself. -/
def hyperbola : OdeFunction Float where
  rhs x y := -y / x
  integrationConstant x y := some (x * y)
  exactSolution x c := some (c / x)

/-- Along the axis the reported distance is zero, but it bounds nothing at zero,
where the solution is undefined. -/
theorem maxAbsError_of_trace_hyperbola :
    ∃ t c, trace ⟨100, false, 10⟩ .euler hyperbola ⟨-1, 0, 0, 0.5, 1⟩ = .ok t ∧
      t.maxAbsError = some 0 ∧ hyperbola.integrationConstant (-1) 0 = some c ∧
      ∃ point ∈ t.points, ∃ e, hyperbola.exactSolution point.1 c = some e ∧
        ¬ (e - point.2).abs ≤ 0 := by
  have hvalue :
      (trace ⟨100, false, 10⟩ .euler hyperbola ⟨-1, 0, 0, 0.5, 1⟩).toOption.map
      (fun t => (t.points, t.maxAbsError)) =
        some ([(-1, 0), (-0.5, 0), (0, 0)], some 0) := by decide +kernel
  obtain ⟨t, ht, hend⟩ := exists_eq_ok_of_map_eq_some hvalue
  obtain ⟨hpoints, hm⟩ : t.points = [(-1, 0), (-0.5, 0), (0, 0)] ∧
      t.maxAbsError = some 0 :=
    Prod.ext_iff.mp hend
  obtain ⟨c, hc, -, hbounds, -⟩ := (maxAbsError_of_trace ht).2 0 hm
  have hmem : (0, 0) ∈ t.points := by simp [hpoints]
  obtain ⟨e, he, hiff, -⟩ := hbounds (0, 0) hmem
  refine ⟨t, c, ht, hm, hc, (0, 0), hmem, e, he, ?_⟩
  rw [hiff]
  obtain rfl : -1 * 0 = c := Option.some.inj hc
  obtain rfl : -1 * 0 / 0 = e := Option.some.inj he
  decide +kernel

end InitialValue
end NumericalMethods
