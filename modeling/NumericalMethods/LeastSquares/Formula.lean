import NumericalMethods.LeastSquares
import NumericalMethods.Error.Message

/-!
# Formulas of fitted models

A model written out with ten places for each coefficient.  A polynomial leaves
out terms whose coefficient is zero, except for the constant one.
-/

namespace NumericalMethods

/-- A coefficient with ten places. -/
def coefficientText (c : Float) (signed : Bool) : String :=
  Decimal.fixed 10 c signed

/-- The power of the unknown in a term. -/
def powerText : Nat → String
  | 0 => ""
  | 1 => "x"
  | p => s!"x^{p}"

/-- The terms of a polynomial; all but the first one written carry a sign. -/
def polynomialTerms (coefficients : List Float) : List String :=
  let kept := coefficients.zipIdx.filter fun (c, p) => p == 0 || c != 0
  kept.zipIdx.map fun ((c, p), i) => coefficientText c (i != 0) ++ powerText p

/-- The formula of a model, if no coefficient is missing. -/
def Model.formula? (model : Model) (coefficients : List Float) :
    Option String :=
  match model, coefficients with
  | .linear, cs | .quadratic, cs | .cubic, cs =>
    some (String.join (polynomialTerms cs))
  | .exponential, a :: b :: _ =>
    some s!"{coefficientText a false}e^\x7b{coefficientText b false}x\x7d"
  | .logarithmic, a :: b :: _ =>
    some s!"{coefficientText a false}{coefficientText b true}\\ln(x)"
  | .power, a :: b :: _ =>
    some s!"{coefficientText a false}x^\x7b{coefficientText b false}\x7d"
  | _, _ => none

def Fit.displayFormula (fit : Fit Float) : String :=
  (fit.model.formula? fit.coefficients).getD ""

def SkipReason.message : SkipReason Float → String
  | failed reason => reason.message
  | deviation value => s!"standard deviation {Decimal.text value}"

end NumericalMethods
