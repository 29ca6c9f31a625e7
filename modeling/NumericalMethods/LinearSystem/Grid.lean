import NumericalMethods.Scalar

/-!
# Stored matrices

A matrix is stored by rows.  Entries are read through `entry`; a matrix is
made from a function of two indices, from a list of rows, or from one list
of entries.
-/

namespace NumericalMethods

/-- A matrix with `m` rows and `n` columns. -/
abbrev Grid (α : Type) (m n : Nat) :=
  Vector (Vector α n) m

namespace Grid

variable {α : Type} {m n : Nat}

/-- The entry in a row and a column. -/
def entry (g : Grid α m n) (i : Fin m) (j : Fin n) : α :=
  (g.get i).get j

/-- The matrix with the given entries. -/
def ofFn (f : Fin m → Fin n → α) : Grid α m n :=
  Vector.ofFn fun i => Vector.ofFn fun j => f i j

def toLists (g : Grid α m n) : List (List α) :=
  g.toList.map Vector.toList

/-- The matrix with the given rows; missing entries are zero. -/
def ofLists [Zero α] (m n : Nat) (rows : List (List α)) : Grid α m n :=
  Vector.ofFn fun i =>
    let row := rows.getD i []
    Vector.ofFn fun j => row.getD j 0

/-- The matrix with the given entries, row after row, if there are as many as it
has places. -/
def ofEntries? [Zero α] (m n : Nat) (entries : List α) : Option (Grid α m n) :=
  if entries.length = m * n then
    some (ofFn fun i j => entries.getD (i * n + j) 0)
  else none

def rowNorms [Scalar α] (g : Grid α m n) : List α :=
  g.toLists.map Scalar.norm

/-- The product with a column.  Terms are added from left to right, each in
front of the sum so far. -/
def apply [Scalar α] (g : Grid α m n) (x : Vector α n) : Vector α m :=
  g.map fun row =>
    match List.zipWith (· * ·) row.toList x.toList with
    | [] => 0
    | first :: rest => rest.foldl (fun acc term => term + acc) first

end Grid
end NumericalMethods
