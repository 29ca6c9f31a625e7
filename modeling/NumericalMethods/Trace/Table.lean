import NumericalMethods.Decimal.Layout
import NumericalMethods.Scalar.Binary64
import NumericalMethods.Text.Boxed
import NumericalMethods.Trace

/-!
# Tables of traces, solutions and matrices

A table is built in two steps: first the rows of cells, then the box around
them.  The columns of a trace are those of its first step.
-/

namespace NumericalMethods

open Decimal (text fixed exponential)

/-- The titles of the columns of a step. -/
def StepData.headers {α : Type} : StepData α → List String
  | .halfDivision _ => ["№", "a", "b", "x", "f(a)", "f(b)", "f(x)", "|a-b|"]
  | .simpleIteration _ =>
    ["№", "x_k", "x_k+1", "φ(x_k)", "f(x_k+1)", "|x_k+1-x_k|"]
  | .newton _ => ["№", "x_k", "f(x_k)", "f'(x_k)", "x_k+1", "|x_k+1-x_k|"]
  | .secant _ => ["№", "x_k-1", "x_k", "x_k+1", "f(x_k+1)", "|x_k+1-x_k|"]
  | .system _ => ["№", "x_k", "y_k", "dx", "dy", "|dx,dy|", "|F|"]
  | .quadrature _ => ["№", "n", "I_n", "Runge error"]
  | .sweep _ => ["№", "x_k", "max |x_k - x_k-1|"]

/-- A number of a trace, with eight places. -/
def traceCell (x : Float) : String :=
  fixed 8 x

/-- An estimated error, with an exponent. -/
def errorCell (x : Float) : String :=
  exponential 3 x

/-- The cells of a step behind its number. -/
def StepData.cells : StepData Float → List String
  | .halfDivision s =>
    [s.a, s.b, s.x, s.fa, s.fb, s.fx, s.absDiff].map traceCell
  | .simpleIteration s => [s.x, s.next, s.phi, s.fNext, s.absDiff].map traceCell
  | .newton s => [s.x, s.fx, s.slope, s.next, s.absDiff].map traceCell
  | .secant s => [s.previous, s.x, s.next, s.fNext, s.absDiff].map traceCell
  | .system s =>
    [s.x, s.y, s.dx, s.dy, s.updateNorm, s.residualNorm].map traceCell
  | .quadrature s =>
    [toString s.subintervals, traceCell s.value, errorCell s.rungeError]
  | .sweep s =>
    ["[" ++ String.intercalate ", " (s.x.map traceCell) ++ "]",
      errorCell s.maxError]

/-- The cells of a numbered step. -/
def Step.row (s : Step Float) : List String :=
  toString s.iteration :: s.data.cells

namespace Table

/-- The rows of a trace, the titles first. -/
def stepRows : List (Step Float) → List (List String)
  | [] => []
  | first :: rest => first.data.headers :: (first :: rest).map Step.row

def steps (trace : List (Step Float)) : String :=
  if trace.isEmpty then "(empty trace)" else Text.boxed (stepRows trace)

structure Series where
  name : String
  points : List (Float × Float)

/-- The abscissa of a row: that of the first series with a point there. -/
def rowAbscissa (series : List Series) (i : Nat) : Float :=
  ((series.findSome? fun s => s.points[i]?).map Prod.fst).getD Scalar.undefined

/-- The ordinate of a series in a row, or nothing behind its end. -/
def ordinateCell (s : Series) (i : Nat) : String :=
  match s.points[i]? with
  | some (_, y) => traceCell y
  | none => ""

/-- Row `i` of series side by side. -/
def seriesRow (series : List Series) (i : Nat) : List String :=
  fixed 6 (rowAbscissa series i) :: series.map fun s => ordinateCell s i

/-- The rows of series side by side, the titles first. -/
def seriesRows (abscissa : String) (series : List Series) :
    List (List String) :=
  let length := series.foldl (fun n s => max n s.points.length) 0
  (abscissa :: series.map Series.name) :: (List.range length).map
    (seriesRow series)

/-- Series side by side, as a table. -/
def series (abscissa : String) (series : List Series) : String :=
  Text.boxed (seriesRows abscissa series)

/-- The rows of a matrix, each with its entry of a right-hand side if there
is one. -/
def matrixRows (rows : List (List Float)) (rhs : List Float) :
    List (List String) :=
  rows.zipIdx.map fun (row, i) =>
    row.map text ++
      match rhs[i]? with
      | some b => ["| " ++ text b]
      | none => []

/-- A matrix as a table. -/
def matrix (rows : List (List Float)) (rhs : List Float) : String :=
  Text.boxed (matrixRows rows rhs)

end Table
end NumericalMethods
