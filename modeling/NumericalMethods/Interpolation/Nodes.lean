import NumericalMethods.DataSet

/-!
# Choosing nodes

Nodes are sorted by abscissa and must be distinct.  A limited number of them is
chosen by distance from the point of interpolation, the smaller abscissa first
on a tie, and kept in ascending order.
-/

namespace NumericalMethods
namespace Interpolation

variable {α : Type} [Scalar α]

/-- The points in ascending order of their abscissas. -/
def ascending (points : List (α × α)) : List (α × α) :=
  points.mergeSort fun p q => Scalar.precedes p.1 q.1

/-- The first abscissa shared by neighbours. -/
def sharedAbscissa? : List (α × α) → Option α
  | p :: q :: rest =>
    if p.1 == q.1 then some p.1 else sharedAbscissa? (q :: rest)
  | _ => none

/-- The `amount` points nearest to an abscissa, in the order of the list. -/
def nearest (sorted : List (α × α)) (point : α) (amount : Nat) : List (α × α) :=
  let distance (p : α × α) : α := Scalar.abs (p.1 - point)
  let byDistance := sorted.zipIdx.mergeSort fun p q =>
    Scalar.precedes (distance p.1) (distance q.1)
  ((byDistance.take amount).mergeSort fun p q =>
    decide (p.2 ≤ q.2)).map Prod.fst

/-- The nodes used to interpolate at a point. -/
def selectNodes (data : DataSet α) (point : α) (amount : Option Nat) :
    Except (EngineError α) (DataSet α) :=
  if data.isEmpty then .error (.insufficientData .noNodes)
  else
    let sorted := ascending data.points
    match sharedAbscissa? sorted with
    | some x => .error (.duplicateNodes x)
    | none =>
      match amount with
      | none => .ok ⟨sorted⟩
      | some 0 => .error (.invalidParameter .noNodesKept)
      | some amount =>
        .ok ⟨if amount <
          sorted.length then nearest sorted point amount else sorted⟩

/-- Whether the distances of neighbours agree with the first one up to a
billionth of it. -/
def isEquallySpaced (x : List α) : Bool :=
  match x with
  | x0 :: x1 :: _ :: _ =>
    let h := x1 - x0
    (List.zipWith (fun a b => Scalar.abs ((b - a) - h)) x x.tail).all fun v =>
      decide (v ≤ 1e-9 * Scalar.abs h)
  | _ => true

end Interpolation
end NumericalMethods
