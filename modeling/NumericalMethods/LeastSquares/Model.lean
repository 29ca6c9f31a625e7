import NumericalMethods.Scalar

/-!
# Models for tabulated data

Three polynomials and three two-parameter curves.  A polynomial has one
coefficient for each power, lowest first; a curve has a factor or offset `a`
and a rate or slope `b`.
-/

namespace NumericalMethods

/-- A family of curves to fit. -/
inductive Model where
  | linear
  | quadratic
  | cubic
  /-- The curve `a e^(bx)`. -/
  | exponential
  /-- The curve `a + b ln x`. -/
  | logarithmic
  /-- The curve `a x^b`. -/
  | power
  deriving Repr, DecidableEq

namespace Model

/-- All models in the order of their numbers. -/
def all : List Model :=
  [linear, quadratic, cubic, exponential, logarithmic, power]

def id : Model → Nat
  | linear => 0
  | quadratic => 1
  | cubic => 2
  | exponential => 3
  | logarithmic => 4
  | power => 5

def ofId? (n : Nat) : Option Model :=
  all[n]?

def name : Model → String
  | linear => "Linear"
  | quadratic => "Quadratic"
  | cubic => "Cubic"
  | exponential => "Exponential"
  | logarithmic => "Logarithmic"
  | power => "Power"

/-- How many coefficients a model has. -/
def parameters : Model → Nat
  | quadratic => 3
  | cubic => 4
  | _ => 2

def degree? : Model → Option Nat
  | linear => some 1
  | quadratic => some 2
  | cubic => some 3
  | _ => none

section Evaluation

variable {α : Type} [Elementary α]

/-- The two-parameter curve of a model; a polynomial is read as a line. -/
def curve (model : Model) (a b x : α) : α :=
  match model with
  | exponential => a * Elementary.exp (b * x)
  | logarithmic => a + b * Elementary.ln x
  | power => a * Elementary.pow x b
  | _ => a + b * x

/-- The value of a model at a point.  A polynomial takes any number of
coefficients; a curve has no value without its two. -/
def evaluate? (model : Model) (coefficients : List α) (x : α) : Option α :=
  match model with
  | linear | quadratic | cubic => some (Scalar.horner coefficients x)
  | exponential | logarithmic | power =>
    match coefficients with
    | a :: b :: _ => some (model.curve a b x)
    | _ => none

/-- The value of a model at a point, undefined if a coefficient is missing. -/
def evaluate (model : Model) (coefficients : List α) (x : α) : α :=
  (model.evaluate? coefficients x).getD Scalar.undefined

end Evaluation

/-- Why a model cannot be fitted to given data. -/
inductive Obstacle where
  /-- There are fewer distinct abscissas than coefficients. -/
  | tooFewDistinct (model : Model) (distinct : Nat)
  | exponentialSign
  | logarithmicSign
  | powerSign
  deriving Repr, DecidableEq

end Model
end NumericalMethods
