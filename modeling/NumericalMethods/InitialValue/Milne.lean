import NumericalMethods.InitialValue.OneStep

/-!
# The predictor-corrector method of Milne

The first three steps are taken by the method of Runge and Kutta.  From then on
a value is predicted from four points and put through the corrector until it
moves by no more than the tolerance.
-/

namespace NumericalMethods
namespace InitialValue

variable {α : Type} [Scalar α]

/-- The ordinate and the slope at a node. -/
structure Slope (α : Type) where
  y : α
  slope : α
  deriving Repr, DecidableEq

/-- What is known of a solution at the nodes up to the last one. -/
structure History (α : Type) where
  index : Nat
  /-- The last node. -/
  latest : Slope α
  /-- The nodes in front of it, the last of them first. -/
  earlier : List (Slope α)
  deriving Repr, DecidableEq

/-- The history with one more node. -/
def History.push (s : History α) (next : Slope α) : History α :=
  ⟨s.index + 1, next, s.latest :: s.earlier⟩

/-- The predicted ordinate, from the ordinate four nodes back and the last three
slopes. -/
def predictor (h y3 f2 f1 f0 : α) : α :=
  y3 + 4.0 * h / 3.0 * (2.0 * f2 - f1 + 2.0 * f0)

/-- The corrected ordinate, from the ordinate two nodes back, the last two
slopes and the slope at the ordinate that is corrected. -/
def corrector (h y1 f1 f0 slope : α) : α :=
  y1 + h / 3.0 * (f1 + 4.0 * f0 + slope)

/-- One application of a corrector. -/
@[specialize] def correct (improve : α → α) (tolerance previous : α) :
    Round (Breakdown α) α α :=
  let corrected := improve previous
  if !(Scalar.isFinite previous && Scalar.isFinite corrected) then
    .fail (.solutionNotFinite OdeMethod.milne.name)
  else if Scalar.abs (corrected - previous) ≤ tolerance then
    .last corrected corrected
  else .step corrected corrected

/-- The value at which a corrector settles.  It is applied at least once, and at
most as often as the cap allows. -/
@[specialize] def settle (improve : α → α) (cap : Nat)
    (tolerance predicted x : α) :
    Except (Breakdown α) α :=
  let rounds := max cap 1
  match iterate (correct improve tolerance) rounds predicted with
  | .ok run =>
    if run.settled then .ok run.state else .error (.correctorUnsettled x rounds)
  | .error (cause, _) => .error cause

/-- The next ordinate. -/
@[specialize] def nextOrdinate (f : OdeFunction α) (cap : Nat)
    (tolerance x0 h : α) (s : History α) : Except (Breakdown α) α :=
  match s.earlier with
  | p1 :: p2 :: p3 :: _ =>
    let x := node x0 h (s.index + 1)
    let f0 := s.latest.slope
    settle (fun y => corrector h p1.y p1.slope f0 (f.rhs x y)) cap tolerance
      (predictor h p3.y p2.slope p1.slope f0) x
  | _ =>
    let y := rungeKuttaStep f.rhs h (node x0 h s.index) s.latest.y
    if Scalar.isFinite y then .ok y
    else .error (.solutionNotFinite OdeMethod.milne.name)

/-- One step from node to node. -/
@[specialize] def milneRound (f : OdeFunction α) (cap : Nat)
    (tolerance x0 h : α) (s : History α) :
    Round (Breakdown α) (α × α) (History α) :=
  match nextOrdinate f cap tolerance x0 h s with
  | .ok y =>
    let x := node x0 h (s.index + 1)
    .step (x, y) (s.push ⟨y, f.rhs x y⟩)
  | .error cause => .fail cause

/-- The points of the method of Milne at `n` steps from the start. -/
@[specialize] def milnePoints (f : OdeFunction α) (cap : Nat)
    (x0 y0 h : α) (n : Nat) (tolerance : α) :
    Except (EngineError α) (List (α × α)) :=
  collect (x0, y0)
    (iterate (milneRound f cap tolerance x0 h) n ⟨0, ⟨y0, f.rhs x0 y0⟩, []⟩)

end InitialValue
end NumericalMethods
