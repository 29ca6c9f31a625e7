import NumericalMethods.Proofs.Binary64.Zero
import NumericalMethods.Proofs.Exact.Rational
import NumericalMethods.Proofs.LeastSquares.Basic
import NumericalMethods.Proofs.LeastSquares.NormalEquations

/-!
# Data with both zeros

The abscissae of a fit are counted as stored numbers, and the two zeros are
stored differently, although they are one value.  So data that have both zeros
among their abscissae pass for data with one value more.  For a line the
elimination still finds the normal equations singular.  For a parabola or a
cubic it does so in exact arithmetic, but rounding may leave a pivot and lead to
a fit that the data do not determine.
-/

namespace NumericalMethods
namespace LeastSquares

open Binary64

/-! ## Stored numbers and values -/

/-- How many values a list of numbers has. -/
def valueCount (xs : List Float) : ℕ :=
  (xs.map Binary64.value).toFinset.card

/-- Both zeros are in a list of numbers. -/
def HasBothZeros (xs : List Float) : Prop :=
  0 ∈ xs ∧ -0 ∈ xs

instance (xs : List Float) : Decidable (HasBothZeros xs) :=
  decidable_of_iff (0 ∈ xs.toFinset ∧ -0 ∈ xs.toFinset) (by simp [HasBothZeros])

section Count

variable {xs : List Float}

theorem distinctCount_eq_card_stored (xs : List Float) :
    distinctCount xs = xs.toFinset.card := by
  refine distinctCount_eq_card_toFinset (fun a b => ?_) xs
  have hidentical : Scalar.identical a b = (a.toBits == b.toBits) := rfl
  rw [hidentical, beq_iff_eq]
  exact ⟨eq_of_toBits_eq, congrArg Float.toBits⟩

theorem valueCount_eq_card_image (xs : List Float) :
    valueCount xs = (xs.toFinset.image Binary64.value).card := by
  rw [valueCount]
  congr 1
  ext v
  simp

/-- Numbers without both zeros are known by their values. -/
theorem injOn_value {stored : Finset Float}
    (hfinite : ∀ x ∈ stored, x.isFinite = true)
    (hnot : ¬ (0 ∈ stored ∧ -0 ∈ stored)) :
    Set.InjOn Binary64.value stored := by
  intro x hx y hy hxy
  rcases eq_or_isZero_of_value_eq (hfinite x hx) (hfinite y hy)
    hxy with heq | ⟨hzero, hzero'⟩
  · exact heq
  · rcases hzero.eq_or_eq with rfl | rfl <;>
      rcases hzero'.eq_or_eq with rfl | rfl
    · rfl
    · exact absurd ⟨hx, hy⟩ hnot
    · exact absurd ⟨hy, hx⟩ hnot
    · rfl

/-- Both zeros are counted where they have one value. -/
theorem distinctCount_eq_valueCount_add
    (hfinite : ∀ x ∈ xs, x.isFinite = true) :
    distinctCount xs = valueCount xs + if HasBothZeros xs then 1 else 0 := by
  have hstored : ∀ x ∈ xs.toFinset, x.isFinite = true := fun x hx =>
    hfinite x (List.mem_toFinset.mp hx)
  rw [distinctCount_eq_card_stored, valueCount_eq_card_image]
  by_cases hboth : HasBothZeros xs
  · obtain ⟨hzero, hneg⟩ := hboth
    rw [← List.mem_toFinset] at hzero hneg
    have hrest : (xs.toFinset.erase (-0)).image Binary64.value =
        xs.toFinset.image Binary64.value := by
      have hother : (0 : Float) ∈ xs.toFinset.erase (-0) :=
        Finset.mem_erase.mpr ⟨by decide, hzero⟩
      have hvalue : Binary64.value (-0) ∈
          (xs.toFinset.erase (-0)).image Binary64.value :=
        Finset.mem_image.mpr ⟨0, hother, rfl⟩
      rw [← Finset.insert_eq_of_mem hvalue, ← Finset.image_insert,
        Finset.insert_erase hneg]
    have hinj : Set.InjOn Binary64.value (xs.toFinset.erase (-0)) :=
      injOn_value (fun x hx => hstored x (Finset.mem_of_mem_erase hx))
        fun h => Finset.notMem_erase _ _ h.2
    rw [if_pos ⟨List.mem_toFinset.mp hzero, List.mem_toFinset.mp hneg⟩, ← hrest,
      Finset.card_image_of_injOn hinj, Finset.card_erase_add_one hneg]
  · have hinj : Set.InjOn Binary64.value xs.toFinset := by
      apply injOn_value hstored
      rwa [List.mem_toFinset, List.mem_toFinset]
    rw [if_neg hboth, Finset.card_image_of_injOn hinj, add_zero]

end Count

/-! ## Lines through one abscissa -/

section Line

variable {x y : List Float}

theorem isZero_moment (hx : ∀ v ∈ x, IsZero v) {exponent : ℕ}
    (hexponent : exponent ≠ 0) :
    IsZero (moment x exponent) := by
  apply isZero_sum
  intro v hv
  obtain ⟨w, hw, rfl⟩ := List.mem_map.mp hv
  exact (hx w hw).power hexponent

theorem isCount_moment_zero (hx : x ≠ []) :
    IsCount (moment x 0) ∧ 1 ≤ Binary64.value (moment x 0) := by
  have hones : (x.map fun v => Scalar.power v 0) =
      List.replicate x.length (1 : Float) := by
    rw [List.eq_replicate_iff]
    refine ⟨List.length_map _, fun v hv => ?_⟩
    obtain ⟨w, -, rfl⟩ := List.mem_map.mp hv
    rw [Scalar.power, Scalar.squaring]
    rfl
  have hlength : x.length = x.length - 1 + 1 := by
    have := List.length_pos_iff.mpr hx
    omega
  rw [moment, hones, hlength]
  exact isCount_foldl_add_one _ isZero_neg_zero.isCount

/-- A row whose diagonal entry is zero has no unknown. -/
theorem backSubstitute_eq_none {d : Float} (hd : IsZero d) (tail : List Float)
    (above : List Float) : Elimination.backSubstitute [above, d :: tail] =
      none := by
  have hbeq : (d == 0) = true := (beq_zero_iff hd.isFinite).mpr hd
  simp [Elimination.backSubstitute, hbeq]

/-- Elimination takes only zero from a zero that stands below a zero. -/
theorem backSubstitute_reduce_eq_none {a b c w w' : Float}
    (ha : a.isFinite = true) (hone : 1 ≤ Binary64.value a) (hb : IsZero b)
    (hc : IsZero c) :
    Elimination.backSubstitute
      (Elimination.reduce 2 [[a, b, w], [b, c, w']]).rows = none := by
  have hmagnitude : ¬ Scalar.abs a < Scalar.abs b := by
    have hvalue : Binary64.value b.abs = 0 := by
      rw [value_abs hb.isFinite, hb.value_eq, abs_zero]
    have hlt := lt_iff_value_lt (isFinite_abs ha) (isFinite_abs hb.isFinite)
    rw [hvalue, value_abs ha] at hlt
    exact fun h => absurd (hlt.mp h) (abs_nonneg _).not_gt
  have hindex : Elimination.pivotIndex (Scalar.abs a) [[b, c, w']] = 0 := by
    simp [Elimination.pivotIndex, Elimination.lead, hmagnitude]
  have hpivot : (a == 0) = false := by
    rw [Bool.eq_false_iff, Ne, beq_zero_iff ha]
    intro hzero
    rw [hzero.value_eq] at hone
    exact absurd hone one_pos.not_ge
  have hreciprocal : (1 / a).isFinite = true := by
    apply (rounds_div (x := 1) rfl ha (by linarith)).isFinite_of_abs_le
      (x := 1) rfl
    rw [value_one, abs_one, abs_of_nonneg (by positivity),
      div_le_one (by linarith)]
    exact hone
  have hbelow : Elimination.reducedRows [a, b, w] [[b, c, w']] =
      [[-b * (b * (1 / a)) + c, -w * (b * (1 / a)) + w']] := by
    simp [Elimination.reducedRows, Elimination.pivotRow, Elimination.otherRows,
      Elimination.eliminate, Elimination.lead, hindex, hpivot]
  have hzero : IsZero (-b * (b * (1 / a)) + c) :=
    (IsZero.mul_right (isFinite_neg hb.isFinite)
      (hb.mul_left hreciprocal)).add hc
  rw [Elimination.rows_reduce_cons, hbelow]
  exact backSubstitute_eq_none hzero _ _

theorem polynomialFit_one_eq_none (hx : ∀ v ∈ x, IsZero v) (hne : x ≠ []) :
    polynomialFit x y 1 = none := by
  obtain ⟨hcount, hone⟩ := isCount_moment_zero hne
  have hsolve : Elimination.solve? (normalEquations x y (1 + 1)) = none :=
    backSubstitute_reduce_eq_none hcount.isFinite hone
      (isZero_moment hx one_ne_zero) (isZero_moment hx two_ne_zero)
  rw [polynomialFit, hsolve]

end Line

/-! ## Fits of too few values -/

section Fit

variable {weakCorrelation : Float} {model : Model} {data : DataSet Float}

/-- A model without an obstacle has enough stored numbers. -/
theorem obstacle?_eq_none_iff :
    obstacle? model data = none ↔ model.parameters ≤ distinctCount data.x ∧
      (model = .logarithmic ∨ model = .power → ∀ v ∈ data.x, 0 < v) ∧
      (model = .exponential ∨ model = .power → ∀ v ∈ data.y, 0 < v) := by
  by_cases hfew : distinctCount data.x < model.parameters
  · simp [obstacle?, hfew]
  · simp only [obstacle?, if_neg hfew]
    cases model <;> simp [Nat.not_lt.mp hfew, -not_lt]

/-- All abscissae are zeros if both zeros are among them, and nothing else. -/
theorem isZero_of_valueCount_eq_one
    (hfinite : ∀ x ∈ data.x, x.isFinite = true) (hboth : HasBothZeros data.x)
    (hcount : valueCount data.x = 1) : ∀ x ∈ data.x, IsZero x := by
  obtain ⟨v, hv⟩ := Finset.card_eq_one.mp hcount
  have hvalue : ∀ x ∈ data.x, Binary64.value x = v := by
    intro x hx
    have hmem : Binary64.value x ∈ (data.x.map Binary64.value).toFinset :=
      List.mem_toFinset.mpr (List.mem_map_of_mem hx)
    rwa [hv, Finset.mem_singleton] at hmem
  intro x hx
  exact ⟨hfinite x hx, (hvalue x hx).trans (hvalue 0 hboth.1).symm⟩

/-- Data with too few values pass the count only through both zeros, and lack
one value. -/
theorem hasBothZeros_of_obstacle?_eq_none
    (hfinite : ∀ x ∈ data.x, x.isFinite = true)
    (hfew : valueCount data.x < model.parameters)
    (hnone : obstacle? model data = none) :
    HasBothZeros data.x ∧ valueCount data.x + 1 = model.parameters := by
  have henough := (obstacle?_eq_none_iff.mp hnone).1
  rw [distinctCount_eq_valueCount_add hfinite] at henough
  split at henough
  · exact ⟨‹_›, by omega⟩
  · omega

/-- No model with two coefficients is fitted to one abscissa. -/
theorem coefficients?_eq_none (hfinite : ∀ x ∈ data.x, x.isFinite = true)
    (hboth : HasBothZeros data.x) (hone : valueCount data.x = 1)
    (hnone : obstacle? model data = none) (hline : model.parameters = 2) :
    coefficients? model data = none := by
  have hzero := isZero_of_valueCount_eq_one hfinite hboth hone
  have hne : data.x ≠ [] := List.ne_nil_of_mem hboth.1
  have hnotPositive : ¬ ∀ v ∈ data.x, 0 < v :=
    fun h => absurd (h 0 hboth.1) (by decide)
  have hpositive := (obstacle?_eq_none_iff.mp hnone).2.1
  cases model with
  | linear => exact polynomialFit_one_eq_none hzero hne
  | quadratic => cases hline
  | cubic => cases hline
  | exponential =>
      rw [coefficients?, polynomialFit_one_eq_none hzero hne, Option.map_none]
  | logarithmic => exact absurd (hpositive (.inl rfl)) hnotPositive
  | power => exact absurd (hpositive (.inr rfl)) hnotPositive

/-- Fewer values among the abscissae than coefficients are insufficient
data, except for parabolas and cubics over both zeros that lack one value,
where rounding has left a pivot.  In exact arithmetic no polynomial is
fitted to them. -/
theorem fit_of_fewValues (weakCorrelation : Float) (model : Model)
    (data : DataSet Float) (hfinite : ∀ x ∈ data.x, x.isFinite = true)
    (hfew : valueCount data.x < model.parameters) :
    ((∃ f, fit weakCorrelation model data = .ok f) ∨
      ∃ reason, fit weakCorrelation model data =
        .error (.insufficientData reason)) ∧
    ((∃ f, fit weakCorrelation model data = .ok f) ↔
      (model = .quadratic ∨ model = .cubic) ∧ HasBothZeros data.x ∧
        valueCount data.x + 1 = model.parameters ∧
        (coefficients? model data).isSome) ∧
    polynomialFit (data.x.map Binary64.value) (data.y.map Binary64.value)
      (model.parameters - 1) = none := by
  refine ⟨fit_cases weakCorrelation model data, ⟨?_, ?_⟩, ?_⟩
  · rintro ⟨f, hf⟩
    obtain ⟨-, hnone, coefficients, hcoefficients, -⟩ := fit_eq_ok_iff.mp hf
    obtain ⟨hboth, hcount⟩ :=
      hasBothZeros_of_obstacle?_eq_none hfinite hfew hnone
    refine ⟨?_, hboth, hcount, hcoefficients ▸ rfl⟩
    by_contra hmodel
    have hline : model.parameters = 2 := by
      cases model <;> simp_all [Model.parameters]
    have hsingular := coefficients?_eq_none hfinite hboth (by omega) hnone hline
    rw [hcoefficients] at hsingular
    cases hsingular
  · rintro ⟨hmodel, hboth, hcount, hsome⟩
    obtain ⟨coefficients, hcoefficients⟩ := Option.isSome_iff_exists.mp hsome
    have hcounted := distinctCount_eq_valueCount_add hfinite
    rw [if_pos hboth, hcount] at hcounted
    have hlength : 2 ≤ data.length := by
      have hdistinct : ({0, -0} : Finset Float) ⊆ data.x.toFinset := by
        intro v hv
        rcases Finset.mem_insert.mp hv with rfl | hv
        · exact List.mem_toFinset.mpr hboth.1
        · exact List.mem_toFinset.mpr (Finset.mem_singleton.mp hv ▸ hboth.2)
      have hcard :=
        (Finset.card_le_card hdistinct).trans data.x.toFinset_card_le
      rwa [DataSet.x, List.length_map] at hcard
    refine ⟨_,
      fit_eq_ok_iff.mpr ⟨hlength, ?_, coefficients, hcoefficients, rfl⟩⟩
    rw [obstacle?_eq_none_iff, hcounted]
    rcases hmodel with rfl | rfl <;> simp
  · have hcard :
        ((data.points.map fun p => (Binary64.value p.1, Binary64.value p.2)).map
        Prod.fst).toFinset.card ≤ model.parameters - 1 := by
      rw [valueCount, DataSet.x, List.map_map] at hfew
      rw [List.map_map]
      exact Nat.le_sub_one_of_lt hfew
    have hnone := polynomialFit_eq_none hcard
    rw [List.map_map, List.map_map] at hnone
    rw [DataSet.x, DataSet.y, List.map_map, List.map_map]
    exact hnone

/-- A parabola through the abscissae `0`, `-0` and `35`, two of which are one
value. -/
theorem fit_of_fewValues_quadratic :
    (∀ x ∈ [0, -0, (35 : Float)], x.isFinite = true) ∧
    valueCount [0, -0, 35] < Model.quadratic.parameters ∧
    ∃ f, fit 0.5 .quadratic ⟨[(0, 1), (-0, 2), (35, 3)]⟩ = .ok f := by
  have hfinite : ∀ x ∈ [0, -0, (35 : Float)], x.isFinite = true := by
    decide +kernel
  have hpatterns : distinctCount [0, -0, (35 : Float)] = 3 := by
    decide +kernel
  have hcount : valueCount [0, -0, 35] = 2 := by
    have h := distinctCount_eq_valueCount_add hfinite
    rw [if_pos (by decide +kernel), hpatterns] at h
    omega
  have hfew : valueCount [0, -0, 35] < Model.quadratic.parameters := by
    rw [hcount]
    decide
  refine ⟨hfinite, hfew, ?_⟩
  obtain ⟨-, hfit, -⟩ :=
    fit_of_fewValues 0.5 .quadratic ⟨[(0, 1), (-0, 2), (35, 3)]⟩
    hfinite hfew
  refine hfit.mpr ⟨.inl rfl, by decide +kernel, ?_, by decide +kernel⟩
  exact congrArg (· + 1) hcount

end Fit

end LeastSquares
end NumericalMethods
