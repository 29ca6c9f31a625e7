import NumericalMethods.Proofs.Binary64.Largest
import NumericalMethods.Proofs.Failure
import NumericalMethods.Proofs.RootFinding.Relaxation

/-!
# The warning of a missing contraction

Simple iteration warns if the slope `1 + λ d` of its iteration function is seen
to have magnitude one or more at an end of the start, `d` being the derivative
there.  In binary numbers a slope that is undefined is not seen, as the larger
of two numbers is the defined one.  So where no warning is given the iteration
function contracts at all ends exactly if the derivatives there are finite and
the one at the start is not zero.
-/

namespace NumericalMethods
namespace RootFinding

open Binary64

/-! ## The largest slope -/

section Contraction

variable {lambda slope d : Float} {slopes : List Float}

/-- The slope of the iteration function where the derivative is `d`. -/
def relaxedSlope (lambda d : Float) : Float :=
  (1 + lambda * d).abs

theorem one_le_contraction_iff (lambda : Float) (slopes : List Float) :
    1 ≤ contraction lambda slopes ↔
      ∃ d ∈ slopes, 1 ≤ relaxedSlope lambda d := by
  have hzero : ¬ (1 : Float) ≤ 0 := by decide
  have hfold : 1 ≤ contraction lambda slopes ↔
      (1 : Float) ≤ 0 ∨ ∃ d ∈ slopes, 1 ≤ relaxedSlope lambda d :=
    le_foldl_larger_iff rfl (relaxedSlope lambda) slopes
  rw [hfold, or_iff_right hzero]

/-- A slope below one is seen only where the factor and the derivative are
finite. -/
theorem isFinite_of_relaxedSlope_lt (h : relaxedSlope lambda d < 1) :
    lambda.isFinite = true ∧ d.isFinite = true :=
  isFinite_of_isFinite_mul (isFinite_of_isFinite_add (isFinite_of_abs_lt h)).2

/-- With an infinite factor the slope is infinite where the derivative is
not zero. -/
theorem one_le_relaxedSlope_of_infinite
    (hlambda : ∃ s, lambda.toModel.unpack = .infinity s)
    (hd : d.isFinite = true) (hne : value d ≠ 0) :
    1 ≤ relaxedSlope lambda d := by
  obtain ⟨s, hs⟩ := hlambda
  obtain ⟨t, ht⟩ := exists_unpack_mul_of_infinite hs hd hne
  have hsum : (1 + lambda * d).toModel.unpack = .infinity t :=
    (unpack_add_of_infinite ht (.inl rfl)).2
  rw [relaxedSlope, abs_of_infinite hsum]
  exact le_of_lt (lt_infinity rfl)

theorem isNaN_relaxedSlope (hlambda : lambda.isFinite = true)
    (hd : d.isFinite = true) :
    (relaxedSlope lambda d).isNaN = false := by
  have hsum : (1 + lambda * d).isNaN = false := by
    rcases isFinite_or_unpack_eq
      (isNaN_mul_of_isFinite hlambda hd) with hfinite | ⟨t, ht⟩
    · exact isNaN_add_of_isFinite rfl hfinite
    · exact isNaN_of_infinite (unpack_add_of_infinite ht (.inl rfl)).2
  rw [relaxedSlope, isNaN_abs_eq]
  exact hsum

/-- Where no slope of one or more is seen, all slopes are below one
exactly if the derivatives are finite and the one whose reciprocal was
taken is not zero. -/
theorem forall_relaxedSlope_lt_iff (hslope : slope ∈ slopes)
    (hunseen : ∀ d ∈ slopes, ¬ 1 ≤ relaxedSlope (-1 / slope) d) :
    (∀ d ∈ slopes, relaxedSlope (-1 / slope) d < 1) ↔
      (∀ d ∈ slopes, d.isFinite = true) ∧ (slope == 0) = false := by
  constructor
  · intro hbelow
    refine ⟨fun d hd => (isFinite_of_relaxedSlope_lt (hbelow d hd)).2, ?_⟩
    have hlambda := (isFinite_of_relaxedSlope_lt (hbelow slope hslope)).1
    rw [Bool.eq_false_iff]
    intro hzero
    rw [isFinite_div_of_zero hzero] at hlambda
    cases hlambda
  · rintro ⟨hfinite, hzero⟩ d hd
    have hslope' := hfinite slope hslope
    have hne : value slope ≠ 0 := by
      intro hvalue
      rw [(beq_iff_value_eq hslope' rfl).mpr (hvalue.trans value_zero.symm)]
        at hzero
      cases hzero
    have hlambda : (-1 / slope).isFinite = true := by
      have hdefined : (-1 / slope).isNaN = false :=
        isNaN_div_of_isFinite rfl hslope' hne
      refine (isFinite_or_unpack_eq hdefined).resolve_right ?_
      intro hinfinite
      exact hunseen slope hslope
        (one_le_relaxedSlope_of_infinite hinfinite hslope' hne)
    by_contra hlt
    have hdefined := isNaN_relaxedSlope hlambda (hfinite d hd)
    exact hunseen d hd ((not_lt_iff_le rfl hdefined).mp hlt)

end Contraction

/-! ## The start -/

/-- The points at which the iteration function is looked at. -/
def endPoints {α : Type} : RootStart α → List α
  | .bracket a b => [a, b]
  | .estimate x => [x]

section Start

variable {α : Type} [Scalar α] {f : ScalarFunction α} {start : RootStart α}
  {s : SlopedStart α}

omit [Scalar α] in
theorem slopeAt_eq_ok_iff {x d : α} : slopeAt f x = .ok d ↔
    f.derivative x = some d := by
  rw [slopeAt]
  cases f.derivative x with
  | none => simp
  | some d' => simp

theorem startsAt_of_slopedStart_eq_ok (h : slopedStart f start = .ok s) :
    StartsAt f start s.x s.slope ∧ s.slope ∈ s.slopes ∧
      (endPoints start).map f.derivative = s.slopes.map some := by
  cases start with
  | estimate x =>
      obtain ⟨d, hd, hs⟩ := bind_eq_ok_iff.mp h
      rw [slopeAt_eq_ok_iff] at hd
      obtain rfl : ⟨x, d, [d]⟩ = s := Except.ok.inj hs
      exact ⟨.estimate hd, by simp, by simp [endPoints, hd]⟩
  | bracket a b =>
      obtain ⟨da, hda, hrest⟩ := bind_eq_ok_iff.mp h
      obtain ⟨db, hdb, hs⟩ := bind_eq_ok_iff.mp hrest
      rw [slopeAt_eq_ok_iff] at hda hdb
      by_cases hsteep : Scalar.abs db ≤ Scalar.abs da
      · rw [if_pos hsteep] at hs
        obtain rfl : ⟨a, da, [da, db]⟩ = s := Except.ok.inj hs
        exact ⟨.first hda hdb hsteep, by simp, by simp [endPoints, hda, hdb]⟩
      · rw [if_neg hsteep] at hs
        obtain rfl : ⟨b, db, [da, db]⟩ = s := Except.ok.inj hs
        exact ⟨.second hda hdb hsteep, by simp, by simp [endPoints, hda, hdb]⟩

omit [Scalar α] in
/-- What holds of the derivatives at the ends holds of the slopes of the
start. -/
theorem forall_endPoints_iff {slopes : List α}
    (h : (endPoints start).map f.derivative = slopes.map some) (P : α → Prop) :
    (∀ e ∈ endPoints start, ∃ d, f.derivative e = some d ∧ P d) ↔
      ∀ d ∈ slopes, P d := by
  have hmap :
        (∀ o ∈ (endPoints start).map f.derivative, ∃ d, o = some d ∧ P d) ↔
      ∀ o ∈ slopes.map some, ∃ d, o = some d ∧ P d := by rw [h]
  simpa using hmap

omit [Scalar α] in
theorem exists_endPoints_iff {slopes : List α}
    (h : (endPoints start).map f.derivative = slopes.map some) (P : α → Prop) :
    (∃ e ∈ endPoints start, ∃ d, f.derivative e = some d ∧ P d) ↔
      ∃ d ∈ slopes, P d := by
  constructor
  · rintro ⟨e, he, d, hd, hP⟩
    have hmem : some d ∈ slopes.map some := h ▸ hd ▸ List.mem_map_of_mem he
    exact ⟨d, (List.mem_map_of_injective (Option.some_injective α)).mp hmem, hP⟩
  · rintro ⟨d, hd, hP⟩
    have hmem : some d ∈ (endPoints start).map f.derivative :=
      h ▸ List.mem_map_of_mem hd
    obtain ⟨e, he, hde⟩ := List.mem_map.mp hmem
    exact ⟨e, he, d, hde, hP⟩

end Start

/-! ## The warning -/

section Warning

variable {settings : RootSettings Float} {f : ScalarFunction Float}
  {start : RootStart Float}
  {tolerance : Float} {r : SolveResult Float}

theorem hasWarning_contractionNotGuaranteed_iff
    (settings : RootSettings Float) (f : ScalarFunction Float) (q : Float)
    (run : Run (SimpleIterationStep Float) (Iterate Float)) :
    (searchResult .simpleIteration f Iterate.x Iterate.moved .simpleIteration
      (if 1 ≤ q then [.contractionNotGuaranteed q] else []) settings
        run).hasWarning
        .contractionNotGuaranteed = true ↔ 1 ≤ q := by
  have hcap : Warning.occurs (capWarning settings run.settled)
      .contractionNotGuaranteed =
      false := by
    rw [capWarning]
    split <;> rfl
  have hoccurs :=
    Warning.occurs_append (if 1 ≤ q then [.contractionNotGuaranteed q] else [])
    (capWarning settings run.settled) .contractionNotGuaranteed
  rw [hcap, Bool.or_false] at hoccurs
  rw [SolveResult.hasWarning, searchResult, result, hoccurs]
  by_cases hq : 1 ≤ q
  · rw [if_pos hq]
    exact iff_of_true rfl hq
  · rw [if_neg hq]
    exact iff_of_false Bool.false_ne_true hq

/-- A result of simple iteration warns exactly if the slope of the iteration
function is one or more in magnitude at an end of the start.  Where it does not
warn, the slopes at all ends are below one exactly if the derivatives there are
finite and the one at the first point is not zero, which a positive floor
excludes. -/
theorem contractionNotGuaranteed_iff
    (hr : simpleIteration settings f start tolerance = .ok r) :
    ∃ x slope run, StartsAt f start x slope ∧
      iterate (applyOnce settings f.evaluate (-1 / slope) tolerance)
        settings.maxIterations
        ⟨x, Scalar.infinity⟩ = .ok run ∧ r.value = run.state.x ∧
      (r.hasWarning .contractionNotGuaranteed = true ↔
        ∃ e ∈ endPoints start, ∃ d, f.derivative e = some d ∧
          1 ≤ relaxedSlope (-1 / slope) d) ∧
      (r.hasWarning .contractionNotGuaranteed = false →
        ((∀ e ∈ endPoints start, ∃ d, f.derivative e = some d ∧
            relaxedSlope (-1 / slope) d < 1) ↔
          (∀ e ∈ endPoints start, ∃ d, f.derivative e = some d ∧
            d.isFinite = true) ∧
            (slope == 0) = false)) ∧
      (0 < settings.derivativeFloor → (slope == 0) = false) := by
  obtain ⟨s, hs, hfloor⟩ := exists_slopedStart_of_simpleIteration_eq_ok hr
  obtain ⟨hstart, hslope, hslopes⟩ := startsAt_of_slopedStart_eq_ok hs
  rw [simpleIteration_eq, hs] at hr
  simp only [hfloor, if_false] at hr
  obtain ⟨run, hrun, rfl⟩ := ofIteration_eq_ok_iff.mp hr
  have hwarns := (hasWarning_contractionNotGuaranteed_iff settings f
    (contraction (-1 / s.slope) s.slopes) run).trans
      (one_le_contraction_iff (-1 / s.slope) s.slopes)
  refine ⟨s.x, s.slope, run, hstart, hrun, rfl, ?_, ?_, ?_⟩
  · rw [exists_endPoints_iff hslopes]
    exact hwarns
  · intro hsilent
    have hunseen : ∀ d ∈ s.slopes, ¬ 1 ≤ relaxedSlope (-1 / s.slope) d := by
      intro d hd hle
      rw [hwarns.mpr ⟨d, hd, hle⟩] at hsilent
      cases hsilent
    rw [forall_endPoints_iff hslopes, forall_endPoints_iff hslopes]
    exact forall_relaxedSlope_lt_iff hslope hunseen
  · intro hpositive
    rw [Bool.eq_false_iff]
    intro hzero
    have habs : Scalar.abs s.slope = 0 := abs_of_beq_zero hzero
    rw [habs] at hfloor
    exact hfloor hpositive

end Warning

/-- The square root of a number less one, which is infinitely steep at zero. -/
def rootLessOne : ScalarFunction Float where
  evaluate x := Scalar.sqrt x - 1
  derivative x := some (1 / (2 * Scalar.sqrt x))

/-- A search from zero stays there without a warning, although the iteration
function is not seen to contract. -/
theorem contractionNotGuaranteed_iff_rootLessOne :
    ∃ r slope,
      simpleIteration ⟨100, 1e-12, 1e-15, 1e12⟩ rootLessOne (.estimate 0) 0.5 =
        .ok r ∧
      r.warnings = [] ∧ r.value = 0 ∧
      StartsAt rootLessOne (.estimate 0) 0 slope ∧
      ¬ ∀ e ∈ endPoints (.estimate (0 : Float)), ∃ d,
      rootLessOne.derivative e = some d ∧
        relaxedSlope (-1 / slope) d < 1 := by
  have hvalue :
      (simpleIteration ⟨100, 1e-12, 1e-15, 1e12⟩ rootLessOne (.estimate 0)
      0.5).toOption.map (fun r => (r.warnings, r.value)) =
        some ([], 0) := by decide +kernel
  have hsteep : rootLessOne.derivative 0 = some Scalar.infinity := by
    decide +kernel
  obtain ⟨r, hr, hend⟩ := exists_eq_ok_of_map_eq_some hvalue
  obtain ⟨hwarnings, hzero⟩ : r.warnings = [] ∧ r.value = 0 :=
    Prod.ext_iff.mp hend
  have hsilent : r.hasWarning .contractionNotGuaranteed = false := by
    rw [SolveResult.hasWarning, hwarnings]
    rfl
  obtain ⟨x, slope, run, hstart, -, -, -, hiff, -⟩ :=
    contractionNotGuaranteed_iff hr
  obtain rfl : x = 0 := by
    cases hstart
    rfl
  refine ⟨r, slope, hr, hwarnings, hzero, hstart, ?_⟩
  intro hbelow
  obtain ⟨hfinite, -⟩ := (hiff hsilent).mp hbelow
  obtain ⟨d, hd, hfinite⟩ := hfinite 0 (by simp [endPoints])
  obtain rfl : Scalar.infinity = d := Option.some.inj (hsteep.symm.trans hd)
  cases hfinite

end RootFinding
end NumericalMethods
