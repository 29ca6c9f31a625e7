import NumericalMethods.LeastSquares.Formula
import NumericalMethods.Proofs.ByIndex.Reading
import NumericalMethods.Scalar.Binary64

/-!
# Fitted models by index

A curve reads its two coefficients by index, and so does the passage from the
line through logarithms to a curve.  The solution of the normal equations has an
entry for each coefficient, so a fitted model has the coefficients it reads.
-/

namespace NumericalMethods

variable {α : Type}

/-! ## The number of coefficients -/

namespace Elimination

variable [Scalar α]

theorem length_rows_reduce
    {count : ℕ} {rows : List (List α)} (hrows : rows.length = count) :
    (reduce count rows).rows.length = count := by
  induction count generalizing rows with
  | zero => rfl
  | succ count ih =>
      cases rows with
      | nil => cases hrows
      | cons first rest =>
          have hrest : rest.length = count := Nat.succ.inj hrows
          rw [reduce]
          dsimp only
          rw [List.length_cons, ih]
          rw [apply_ite List.length, List.length_map, List.length_map, ite_self,
            apply_ite List.length, List.length_set, ite_self, hrest]

theorem length_of_backSubstitute_eq_some
    {rows : List (List α)} {xs : List α} (hxs : backSubstitute rows = some xs) :
    xs.length = rows.length := by
  induction rows generalizing xs with
  | nil =>
      cases hxs
      rfl
  | cons row below ih =>
      cases hbelow : backSubstitute below with
      | none => simp [backSubstitute, hbelow] at hxs
      | some found =>
          cases row with
          | nil => simp [backSubstitute, hbelow] at hxs
          | cons d tail =>
              simp only [backSubstitute, hbelow] at hxs
              split at hxs
              · cases hxs
              · cases hxs
                rw [List.length_cons, List.length_cons, ih hbelow]

theorem length_of_solve?_eq_some
    {augmented : List (List α)} {xs : List α}
    (hxs : solve? augmented = some xs) :
    xs.length = augmented.length := by
  rw [length_of_backSubstitute_eq_some hxs, length_rows_reduce rfl]

end Elimination

namespace LeastSquares

theorem length_of_polynomialFit_eq_some [Scalar α]
    {x y coefficients : List α} {degree : ℕ}
    (hfit : polynomialFit x y degree = some coefficients) :
    coefficients.length = degree + 1 := by
  rw [polynomialFit] at hfit
  split at hfit
  · rename_i found hfound
    split at hfit
    · cases hfit
      rw [Elimination.length_of_solve?_eq_some hfound, normalEquations]
      simp
    · cases hfit
  · cases hfit

variable [Elementary α]

/-- The coefficients of a curve, read from those of its line through
logarithms. -/
def fromLogarithmsByIndex (line : List α) : Except (Failure α) (List α) := do
  let first ← readAt line 0
  let second ← readAt line 1
  return [Elementary.exp first, second]

/-- A line that was fitted has both of its coefficients. -/
theorem fromLogarithmsByIndex_eq_ok
    {x y line : List α} (hline : polynomialFit x y 1 = some line) :
    fromLogarithmsByIndex line = .ok (fromLogarithms line) := by
  match line, length_of_polynomialFit_eq_some hline with
  | [_, _], _ => rfl

theorem two_le_length_of_coefficients?_eq_some
    {model : Model} {data : DataSet α} {coefficients : List α}
    (hfit : coefficients? model data = some coefficients) :
    2 ≤ coefficients.length := by
  have hcurve : ∀ line : Option (List α),
      (∀ found, line = some found → found.length = 2) →
      line.map fromLogarithms = some coefficients →
        coefficients.length = 2 := by
    intro line hline hmap
    obtain ⟨found, hfound, rfl⟩ := Option.map_eq_some_iff.mp hmap
    match found, hline found hfound with
    | [_, _], _ => rfl
  have hpolynomial : ∀ {x y : List α} {degree : ℕ}, 1 ≤ degree →
      polynomialFit x y degree = some coefficients →
        2 ≤ coefficients.length := by
    intro x y degree hdegree h
    rw [length_of_polynomialFit_eq_some h]
    exact Nat.succ_le_succ hdegree
  cases model with
  | linear => exact hpolynomial (by decide) hfit
  | quadratic => exact hpolynomial (by decide) hfit
  | cubic => exact hpolynomial (by decide) hfit
  | logarithmic => exact hpolynomial (by decide) hfit
  | exponential | power =>
      exact Nat.le_of_eq
        (hcurve _ (fun _ => length_of_polynomialFit_eq_some) hfit).symm

end LeastSquares

/-! ## Values and formulas -/

namespace Model

variable [Elementary α]

/-- The value of a model, whose coefficients are read by index. -/
def evaluateByIndex (model : Model) (coefficients : List α) (x : α) :
    Except (Failure α) α :=
  match model with
  | linear | quadratic | cubic => .ok (Scalar.horner coefficients x)
  | exponential | logarithmic | power => do
    let a ← readAt coefficients 0
    let b ← readAt coefficients 1
    return model.curve a b x

/-- It aborts where a model has no value. -/
theorem evaluateByIndex_eq (model : Model) (coefficients : List α) (x : α) :
    model.evaluateByIndex coefficients x =
      ofReading (model.evaluate? coefficients x) := by
  match model, coefficients with
  | linear, _ | quadratic, _ | cubic, _ => rfl
  | exponential, [] | logarithmic, [] | power, [] => rfl
  | exponential, [_] | logarithmic, [_] | power, [_] => rfl
  | exponential, _ :: _ :: _ | logarithmic, _ :: _ :: _ | power,
      _ :: _ :: _ => rfl

theorem evaluate?_eq_some
    (model : Model) {coefficients : List α}
    (hlength : 2 ≤ coefficients.length) (x : α) :
    model.evaluate? coefficients x = some (model.evaluate coefficients x) := by
  match model, coefficients, hlength with
  | linear, _, _ | quadratic, _, _ | cubic, _, _ => rfl
  | exponential, _ :: _ :: _, _ | logarithmic, _ :: _ :: _, _ | power,
      _ :: _ :: _, _ => rfl

theorem isSome_formula?
    (model : Model) {coefficients : List Float}
    (hlength : 2 ≤ coefficients.length) :
    (model.formula? coefficients).isSome = true := by
  match model, coefficients, hlength with
  | linear, _, _ | quadratic, _, _ | cubic, _, _ => rfl
  | exponential, _ :: _ :: _, _ | logarithmic, _ :: _ :: _, _ | power,
      _ :: _ :: _, _ => rfl

end Model

namespace LeastSquares

theorem two_le_length_of_fit_eq_ok [Elementary α]
    {weakCorrelation : α} {model : Model} {data : DataSet α} {r : Fit α}
    (hr : fit weakCorrelation model data = .ok r) :
    2 ≤ r.coefficients.length := by
  rw [fit] at hr
  split at hr
  · cases hr
  · split at hr
    · cases hr
    · split at hr
      · cases hr
      · rename_i coefficients hcoefficients
        cases hr
        exact two_le_length_of_coefficients?_eq_some hcoefficients

/-- What a fitted model reads by index is there, for its values and for its
formula. -/
structure ReadsInRange (r : Fit Float) : Prop where
  value : ∀ x, r.model.evaluateByIndex r.coefficients x = .ok (r.evaluate x)
  formula : r.model.formula? r.coefficients = some r.displayFormula

theorem readsInRange
    {weakCorrelation : Float} {model : Model} {data : DataSet Float}
    {r : Fit Float} (hr : fit weakCorrelation model data = .ok r) :
    ReadsInRange r := by
  have hlength := two_le_length_of_fit_eq_ok hr
  constructor
  case value =>
    intro x
    rw [Model.evaluateByIndex_eq, r.model.evaluate?_eq_some hlength x]
    rfl
  case formula =>
    obtain ⟨formula, hformula⟩ :=
      Option.isSome_iff_exists.mp (r.model.isSome_formula? hlength)
    rw [Fit.displayFormula, hformula]
    rfl

end LeastSquares
end NumericalMethods
