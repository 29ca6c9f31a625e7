import NumericalMethods.Error
import NumericalMethods.LinearSystem.Grid

/-!
# Linear systems and diagonal dominance

A square system `A x = b`.  A row is dominated by its diagonal when the diagonal
entry weighs at least as much as the rest of the row; a system is diagonally
dominant when all rows are, and one of them strictly.  `dominantPermutation`
sends each row to the first column that outweighs the rest of it.
-/

namespace NumericalMethods

/-- The system `A x = b` of order `n`. -/
structure LinearSystem (α : Type) (n : Nat) where
  matrix : Grid α n n
  rhs : Vector α n

namespace LinearSystem

variable {α : Type} [Scalar α]

/-- The system with a given matrix and right-hand side, if the matrix is square
and not empty, the lengths agree and all entries are finite. -/
def make {m n : Nat} (matrix : Grid α m n) (rhs : List α) :
    Except (EngineError α) (LinearSystem α m) :=
  if m = 0 then .error (.insufficientData .noEquations)
  else if square : m = n then
    if rhs.length ≠ m then
      .error (.invalidParameter (.rightHandSideLength rhs.length m))
    else if matrix.toLists.all (·.all Scalar.isFinite) &&
        rhs.all Scalar.isFinite then
      .ok
        { matrix := Grid.ofFn fun i j => matrix.entry i (j.cast square)
          rhs := Vector.ofFn fun i => rhs.getD i 0 }
    else .error (.invalidParameter .coefficientNotFinite)
  else .error (.invalidParameter (.notSquare m n))

/-- The system with the given rows of coefficients. -/
def ofRows (rows : List (List α)) (rhs : List α) :
    Except (EngineError α) (LinearSystem α rows.length) :=
  match rows.find? (·.length ≠ rows.length) with
  | some row => .error (.invalidParameter (.rowLength rows.length row.length))
  | none => make (Grid.ofLists rows.length rows.length rows) rhs

variable {n : Nat}

def entry (s : LinearSystem α n) (i j : Fin n) : α :=
  s.matrix.entry i j

/-- The sum of the magnitudes of a row outside the diagonal. -/
def offDiagonal (s : LinearSystem α n) (i : Fin n) : α :=
  Scalar.sum
    (((List.finRange n).filter (· ≠ i)).map fun j => Scalar.abs (s.entry i j))

/-- Every row is dominated by its diagonal, and one of them strictly. -/
def isDominant (s : LinearSystem α n) : Bool :=
  (List.finRange n).all
    (fun i => !decide (Scalar.abs (s.entry i i) < s.offDiagonal i)) &&
    (List.finRange n).any fun i =>
      decide (s.offDiagonal i < Scalar.abs (s.entry i i))

/-- The sum of the magnitudes of a row. -/
def rowSum (s : LinearSystem α n) (i : Fin n) : α :=
  Scalar.sum ((List.finRange n).map fun j => Scalar.abs (s.entry i j))

/-- The first column whose entry weighs at least as much as the rest of
a row. -/
def heaviest? (s : LinearSystem α n) (i : Fin n) : Option (Fin n) :=
  (List.finRange n).find? fun j =>
    decide (s.rowSum i ≤ 2.0 * Scalar.abs (s.entry i j))

/-- The target of every row in a diagonally dominant order.  There is none when
a row has no heaviest column, two rows share one, or no row is strict. -/
def dominantPermutation (s : LinearSystem α n) : Option (List (Fin n)) :=
  match (List.finRange n).mapM s.heaviest? with
  | none => none
  | some target =>
    let strict := ((List.finRange n).zip target).any fun (i, j) =>
      decide (s.rowSum i < 2.0 * Scalar.abs (s.entry i j))
    if strict && decide target.Nodup then some target else none

def zero : LinearSystem α n where
  matrix := Grid.ofFn fun _ _ => 0
  rhs := Vector.ofFn fun _ => 0

/-- The system with row `i` moved to row `target[i]`.  A row no target names is
left empty. -/
def permuted (s : LinearSystem α n) (target : List (Fin n)) :
    LinearSystem α n :=
  ((List.finRange n).zip target).foldl
    (fun moved (i, j) =>
      { matrix := moved.matrix.set j (s.matrix.get i) j.isLt
        rhs := moved.rhs.set j (s.rhs.get i) j.isLt })
    zero

/-- The same for targets that may lie outside the system, or be too many. -/
def permuted? (s : LinearSystem α n) (target : List Nat) :
    Option (LinearSystem α n) :=
  if target.length ≤ n then
    (target.mapM fun j => if h : j < n then some ⟨j, h⟩ else none).map
      s.permuted
  else none

/-- The iteration matrix `-a_ij / a_ii`, zero on the diagonal. -/
def iterationMatrix (s : LinearSystem α n) : Grid α n n :=
  Grid.ofFn fun i j => if i = j then 0 else -s.entry i j / s.entry i i

end LinearSystem
end NumericalMethods
