import NumericalMethods.Error
import NumericalMethods.Function

/-!
# Splitting an interval at singular points

An interval is cut at the singular points it contains, and a margin on both
sides of each is left out.  A singular point where the antiderivative is not
finite makes the integral diverge.
-/

namespace NumericalMethods
namespace Quadrature

variable {α : Type} [Scalar α]

/-- The singular points of an interval, each once, in ascending order. -/
def singularPointsWithin (f : Integrable α) (lower upper : α) : List α :=
  ((f.singularPoints.filter fun p => decide (lower ≤ p) &&
    decide (p ≤ upper)).mergeSort
    Scalar.precedes).eraseReps

/-- Whether the antiderivative is known and finite at a point. -/
def hasPrimitive (f : Integrable α) (p : α) : Bool :=
  match f.antiderivative p with
  | some v => Scalar.isFinite v
  | none => false

/-- The pieces from `left` on, around the singular points that are left. -/
def piecesFrom (f : Integrable α) (margin upper : α) :
    (left : α) → List α → Except (EngineError α) (List (α × α))
  | left, [] => .ok (if left < upper then [(left, upper)] else [])
  | left, p :: points =>
    if hasPrimitive f p then
      match piecesFrom f margin upper (p + margin) points with
      | .error e => .error e
      | .ok pieces =>
        .ok (if left < p - margin then (left, p - margin) :: pieces else pieces)
    else .error (.divergentIntegral p "integrand")

/-- The pieces of an interval that keep clear of its singular points. -/
def pieces (f : Integrable α) (margin lower upper : α) :
    Except (EngineError α) (List (α × α)) :=
  match piecesFrom f margin upper lower
      (singularPointsWithin f lower upper) with
  | .error e => .error e
  | .ok [] => .error (.invalidParameter .intervalTooNarrow)
  | .ok found => .ok found

end Quadrature
end NumericalMethods
