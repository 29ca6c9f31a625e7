import NumericalMethods.Proofs.Exact.Rational
import NumericalMethods.Proofs.SearchSteps

/-!
# Tangents of a convex function

The graph of a convex function lies above its tangents.  So where the function
rises and is not negative, a tangent meets zero between the root and the point
it touches, and the function is not negative there either.  A search along
tangents from the upper end of a bracket, where it starts if the function curves
upwards, comes down to the root without crossing it and never gets stuck.
-/

namespace NumericalMethods
namespace RootFinding

variable {K : Type} [Field K] [LinearOrder K] [IsStrictOrderedRing K]
  {f : ScalarFunction K} {a b r x floor : K}

/-- The slopes on an interval are at least `floor`, and the graph is above the
tangents. -/
structure RisesConvexly (f : ScalarFunction K) (floor a b : K) : Prop where
  steep : ∀ u ∈ Set.Icc a b, ∃ slope, f.derivative u = some slope ∧
  floor ≤ slope
  above : ∀ u ∈ Set.Icc a b, ∀ v ∈ Set.Icc a b, ∀ slope,
  f.derivative u = some slope →
    f.evaluate u + slope * (v - u) ≤ f.evaluate v

omit [IsStrictOrderedRing K] in
theorem RisesConvexly.floor_le
    (hf : RisesConvexly f floor a b) (hx : x ∈ Set.Icc a b) {slope : K}
    (hslope : f.derivative x = some slope) :
    floor ≤ slope := by
  obtain ⟨d, hd, hfloor⟩ := hf.steep x hx
  rw [hslope, Option.some.injEq] at hd
  rwa [hd]

/-- Not beyond the root, and the function is not negative. -/
structure AboveRoot (f : ScalarFunction K) (r b x : K) : Prop where
  root_le : r ≤ x
  le_end : x ≤ b
  nonneg : 0 ≤ f.evaluate x

/-- A step down along a tangent, which does not pass the root. -/
structure StepsDown (f : ScalarFunction K) (r b : K)
    (e : NewtonStep K) : Prop where
  root_le_next : r ≤ e.next
  next_le : e.next ≤ e.x
  le_end : e.x ≤ b
  nonneg : 0 ≤ f.evaluate e.x

/-! ## One tangent -/

/-- The zero of a tangent lies between the root and the point of contact.  The
tangent is below the graph at the root, so it is not positive there. -/
theorem aboveRoot_tangentZero
    (hf : RisesConvexly f floor a b) (hfloor : 0 < floor) (hr : r ∈ Set.Icc a b)
    (hroot : f.evaluate r = 0) (hx : AboveRoot f r b x) {slope : K}
    (hslope : f.derivative x = some slope) :
    AboveRoot f r x (x - f.evaluate x / slope) := by
  have hxIcc : x ∈ Set.Icc a b := ⟨hr.1.trans hx.root_le, hx.le_end⟩
  have hpositive : 0 < slope := hfloor.trans_le (hf.floor_le hxIcc hslope)
  have hle : x - f.evaluate x / slope ≤ x :=
    sub_le_self x (div_nonneg hx.nonneg hpositive.le)
  have hrootLe : r ≤ x - f.evaluate x / slope := by
    have habove := hf.above x hxIcc r hr slope hslope
    rw [hroot] at habove
    rw [le_sub_comm, div_le_iff₀ hpositive]
    linarith
  have hzero : f.evaluate x + slope * (x - f.evaluate x / slope - x) = 0 := by
    field_simp
    ring
  refine ⟨hrootLe, hle, ?_⟩
  rw [← hzero]
  exact hf.above x hxIcc _ ⟨hr.1.trans hrootLe, hle.trans hx.le_end⟩
    slope hslope

variable [ExactArithmetic K] {settings : RootSettings K}

section Search

variable (hf : RisesConvexly f settings.derivativeFloor a b)
  (hfloor : 0 < settings.derivativeFloor) (hr : r ∈ Set.Icc a b)
  (hroot : f.evaluate r = 0)

include hf hfloor hr hroot

theorem stepsDown_of_followsTangent
    {e : NewtonStep K} {next : K} (hx : AboveRoot f r b x)
    (hstep : FollowsTangent settings f x e next) :
    StepsDown f r b e ∧ AboveRoot f r b next := by
  have hzero := aboveRoot_tangentZero hf hfloor hr hroot hx hstep.slope_eq
  have hnext : e.next = x - f.evaluate x / e.slope := by
    rw [hstep.next_eq, hstep.fx_eq, hstep.x_eq]
  rw [← hnext] at hzero
  rw [hstep.arrives]
  refine ⟨⟨hzero.root_le, ?_, ?_, ?_⟩,
    ⟨hzero.root_le, hzero.le_end.trans hx.le_end, hzero.nonneg⟩⟩
  · rw [hstep.x_eq]
    exact hzero.le_end
  · rw [hstep.x_eq]
    exact hx.le_end
  · rw [hstep.x_eq]
    exact hx.nonneg

/-- Above the root there is a tangent to follow. -/
theorem exists_followsTangent
    (ha : |a| ≤ settings.divergenceBound) (hb : |b| ≤ settings.divergenceBound)
    (hx : AboveRoot f r b x) :
    ∃ e next, FollowsTangent settings f x e next := by
  obtain ⟨slope, hslope, hsteep⟩ :=
    hf.steep x ⟨hr.1.trans hx.root_le, hx.le_end⟩
  have hzero := aboveRoot_tangentZero hf hfloor hr hroot hx hslope
  have hbounded : |x - f.evaluate x / slope| ≤ settings.divergenceBound :=
    (abs_le_max_abs_abs (hr.1.trans hzero.root_le)
      (hzero.le_end.trans hx.le_end)).trans (max_le ha hb)
  let next := x - f.evaluate x / slope
  refine ⟨⟨x, f.evaluate x, slope, next, |next - x|⟩, next, rfl, rfl, hslope,
    ?_, rfl, rfl, ?_, rfl⟩
  · exact hsteep.trans (le_abs_self slope)
  · exact ⟨rfl, not_lt.mpr hbounded⟩

/-! ## The whole search -/

/-- Along a path of tangents nothing but steps down is made. -/
theorem stepsDown_of_path
    {start stop : K} {made : List (NewtonStep K)}
    (hstart : AboveRoot f r b start)
    (hpath : Path (FollowsTangent settings f) start made stop) :
    (∀ e ∈ made, StepsDown f r b e) ∧ AboveRoot f r b stop := by
  induction hpath with
  | refl => exact ⟨by simp, hstart⟩
  | snoc _ hstep ih =>
      obtain ⟨hmade, hpoint⟩ := ih
      obtain ⟨hentry, hnext⟩ :=
        stepsDown_of_followsTangent hf hfloor hr hroot hpoint hstep
      refine ⟨?_, hnext⟩
      intro e he
      rcases List.mem_append.mp he with he | he
      · exact hmade e he
      · rwa [List.mem_singleton.mp he]

end Search

/-- The upper end of a bracket is the start if the function curves upwards. -/
theorem tangentStart_eq_upper
    (hfa : f.evaluate a ≤ 0) (hfb : 0 < f.evaluate b)
    (ha : ∀ d, f.secondDerivative a = some d → 0 ≤ d)
    (hb : ∃ d, f.secondDerivative b = some d ∧ 0 < d) :
    tangentStart f (.bracket a b) = b := by
  have hlower : curvesAway f a = false := by
    rw [curvesAway]
    cases hd : f.secondDerivative a with
    | none => rfl
    | some d =>
        exact decide_eq_false
          (not_lt.mpr (mul_nonpos_of_nonpos_of_nonneg hfa (ha d hd)))
  have hupper : curvesAway f b = true := by
    obtain ⟨d, hd, hpositive⟩ := hb
    rw [curvesAway, hd]
    exact decide_eq_true (mul_pos hfb hpositive)
  simp [tangentStart, hlower, hupper]

/-- In a bracket on which the function rises convexly through a root, the search
along tangents starts at the upper end and answers.  Every step goes down and
does not pass the root. -/
theorem newton_of_risesConvexly
    (settings : RootSettings K)
    (hf : RisesConvexly f settings.derivativeFloor a b)
    (hfloor : 0 < settings.derivativeFloor)
    (ha : |a| ≤ settings.divergenceBound) (hb : |b| ≤ settings.divergenceBound)
    (hr : r ∈ Set.Icc a b) (hroot : f.evaluate r = 0) (hfa : f.evaluate a ≤ 0)
    (hfb : 0 < f.evaluate b)
    (hcurveA : ∀ d, f.secondDerivative a = some d → 0 ≤ d)
    (hcurveB : ∃ d, f.secondDerivative b = some d ∧ 0 < d) (tolerance : K) :
    tangentStart f (.bracket a b) = b ∧
    ∃ result made, newton settings f (.bracket a b) tolerance = .ok result ∧
      result.steps = Step.number (made.map .newton) ∧
      Path (FollowsTangent settings f) b made result.value ∧
      (∀ e ∈ made, r ≤ e.next ∧ e.next ≤ e.x ∧ e.x ≤ b ∧ 0 ≤ f.evaluate e.x) ∧
      r ≤ result.value ∧ result.value ≤ b := by
  have hupper := tangentStart_eq_upper hfa hfb hcurveA hcurveB
  have hstart : AboveRoot f r b b := ⟨hr.2, le_rfl, hfb.le⟩
  have hdown : ∀ {made : List (NewtonStep K)} {stop : K},
      Path (FollowsTangent settings f) b made stop →
        (∀ e ∈ made, StepsDown f r b e) ∧ AboveRoot f r b stop :=
    fun hpath => stepsDown_of_path hf hfloor hr hroot hstart hpath
  obtain ⟨slope, hslope, -⟩ := hf.steep b ⟨hr.1.trans hr.2, le_rfl⟩
  rw [← hupper] at hslope
  have hnext : ∀ made stop,
      Path (FollowsTangent settings f) (tangentStart f (.bracket a b)) made
      stop → ∃ e next, FollowsTangent settings f stop e next := by
    intro made stop hpath
    rw [hupper] at hpath
    exact exists_followsTangent hf hfloor hr hroot ha hb (hdown hpath).2
  obtain ⟨result, made, hresult, hsteps, hpath⟩ :=
    exists_newton_eq_ok settings f (.bracket a b) tolerance hslope hnext
  rw [hupper] at hpath
  obtain ⟨hmade, hvalue⟩ := hdown hpath
  refine ⟨hupper, result, made, hresult, hsteps, hpath, ?_, hvalue.root_le,
    hvalue.le_end⟩
  intro e he
  exact ⟨(hmade e he).root_le_next, (hmade e he).next_le, (hmade e he).le_end,
    (hmade e he).nonneg⟩

/-- A parabola that rises through zero at one. -/
def squareLessOne : ScalarFunction ℚ where
  evaluate x := x * x - 1
  derivative x := some (2 * x)
  secondDerivative _ := some 2

/-- Two tangents of the parabola lead from two down to the root and stay
above it. -/
theorem newton_of_risesConvexly_squareLessOne :
    ∃ (result : SolveResult ℚ) (made : List (NewtonStep ℚ)),
      newton ⟨2, 1, 0, 4⟩ squareLessOne (.bracket (1 / 2) 2) (1 / 100) =
        .ok result ∧
      made = [⟨2, 3, 4, 5 / 4, 3 / 4⟩,
        ⟨5 / 4, 9 / 16, 5 / 2, 41 / 40, 9 / 40⟩] ∧
      result.steps = Step.number (made.map .newton) ∧
      (∀ e ∈ made, 1 ≤ e.next ∧ e.next ≤ e.x ∧ e.x ≤ 2 ∧
        0 ≤ squareLessOne.evaluate e.x) ∧
      1 ≤ result.value ∧ result.value ≤ 2 := by
  have hrises : RisesConvexly squareLessOne 1 (1 / 2) 2 := by
    constructor
    · intro u hu
      refine ⟨2 * u, rfl, ?_⟩
      linarith [hu.1]
    · rintro u - v - slope hslope
      obtain rfl : 2 * u = slope := Option.some.inj hslope
      simp only [squareLessOne]
      linarith [mul_self_nonneg (v - u)]
  obtain ⟨-, result, made, hresult, hsteps, -, hmade, hvalue⟩ :=
    newton_of_risesConvexly ⟨2, 1, 0, 4⟩ hrises one_pos (by decide +kernel)
      (by decide +kernel) (r := 1) (Set.mem_Icc.mpr ⟨by norm_num, one_le_two⟩)
      (by decide +kernel) (by decide +kernel) (by decide +kernel)
      (fun d hd => Option.some.inj hd ▸ zero_le_two) ⟨2, rfl, two_pos⟩ (1 / 100)
  have hrun :
      (newton ⟨2, 1, 0, 4⟩ squareLessOne (.bracket (1 / 2) 2)
        (1 / 100)).toOption.map
      (fun r => r.steps.map Step.data) = some [.newton ⟨2, 3, 4, 5 / 4, 3 / 4⟩,
        .newton ⟨5 / 4, 9 / 16, 5 / 2, 41 / 40, 9 / 40⟩] := by
    decide +kernel
  rw [hresult] at hrun
  have hdata : result.steps.map Step.data = _ := Option.some.inj hrun
  rw [hsteps, Step.map_data_number] at hdata
  have hinjective : Function.Injective
      (StepData.newton : NewtonStep ℚ → StepData ℚ) :=
    fun _ _ => StepData.newton.inj
  exact ⟨result, made, hresult, List.map_injective_iff.mpr hinjective hdata,
    hsteps, hmade, hvalue⟩

end RootFinding
end NumericalMethods
