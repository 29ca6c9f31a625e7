import NumericalMethods.Scalar

/-!
# Elimination with partial pivoting

A square system is a list of rows, one coefficient for each unknown and possibly
one more entry for the right-hand side.  `reduce` brings the rows into
triangular form: the pivot is the first row whose leading entry has the largest
magnitude, it changes places with the first row, and a multiple of it is taken
from each row below.  A column that holds nothing but zeros is passed over.  Row
`i` of the triangular form starts at its diagonal entry.
-/

namespace NumericalMethods
namespace Elimination

variable {α : Type} [Scalar α]

def lead (row : List α) : α :=
  row.headD 0

/-- The position of the first row with the largest leading magnitude, counted
from the row in front of `rows`, whose own magnitude is `best`. -/
def pivotIndex (best : α) (rows : List (List α)) : Nat :=
  (rows.zipIdx.foldl
    (fun (found : Nat × α) (row, i) =>
      let magnitude := Scalar.abs (lead row)
      if found.2 < magnitude then (i + 1, magnitude) else found)
    (0, best)).1

/-- A row without its leading entry, after a multiple of the pivot row was taken
from it. -/
def eliminate (pivotTail : List α) (reciprocal : α) (row : List α) : List α :=
  let multiplier := lead row * reciprocal
  List.zipWith (fun p a => -p * multiplier + a) pivotTail row.tail

/-- A triangular form. -/
structure Triangular (α : Type) where
  /-- The rows, each from its diagonal entry on. -/
  rows : List (List α)
  /-- Whether an odd number of rows changed places. -/
  odd : Bool
  deriving Repr, DecidableEq

/-- The triangular form of `count` rows. -/
def reduce : (count : Nat) → (rows : List (List α)) → Triangular α
  | 0, _ => ⟨[], false⟩
  | _ + 1, [] => ⟨[], false⟩
  | count + 1, first :: rest =>
    let k := pivotIndex (Scalar.abs (lead first)) rest
    let swapped := k != 0
    let pivot := if swapped then rest.getD (k - 1) first else first
    let others := if swapped then rest.set (k - 1) first else rest
    let below :=
      if lead pivot == 0 then others.map List.tail
      else others.map (eliminate pivot.tail (1 / lead pivot))
    let form := reduce count below
    ⟨pivot :: form.rows, form.odd ^^ swapped⟩

/-- The unknowns of a triangular system, from the last row upwards.  There are
none if a diagonal entry is zero. -/
def backSubstitute : List (List α) → Option (List α)
  | [] => some []
  | row :: below =>
    match backSubstitute below, row with
    | some xs, d :: tail =>
      if d == 0 then none
      else
        let rest :=
          (tail.zip xs).foldr (fun (u, x) b => -x * u + b) (tail.getLastD 0)
        some (rest / d :: xs)
    | _, _ => none

/-- The solution of a square system given by its augmented rows. -/
def solve? (augmented : List (List α)) : Option (List α) :=
  backSubstitute (reduce augmented.length augmented).rows

/-- The determinant of a square matrix: by its expansion up to order three, and
from the diagonal of the triangular form above that. -/
def determinant (rows : List (List α)) : α :=
  match rows with
  | [[a]] => a
  | [[a, b], [c, d]] => a * d - c * b
  | [[a, b, c], [d, e, f], [g, h, i]] =>
    a * (e * i - h * f) - b * (d * i - g * f) + c * (d * h - g * e)
  | _ =>
    let form := reduce rows.length rows
    Scalar.product (form.rows.map lead) * (if form.odd then -1 else 1)

end Elimination
end NumericalMethods
