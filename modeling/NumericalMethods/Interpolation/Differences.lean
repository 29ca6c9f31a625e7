/-!
# Divided and finite differences

Divided differences are computed in place: stage `j` turns entry `i ≥ j`, from
the last one downwards, into the difference of itself and its left neighbour
over the distance of their nodes.  `dividedDifference` is the recursion on two
indices that the entries satisfy.  Finite differences form a triangle, each row
holding the differences of neighbours in the row above.
-/

namespace NumericalMethods

variable {α : Type}

/-- One stage of the divided differences, `gap` nodes apart. -/
def dividedStage [Sub α] [Div α] {n : Nat} (x : Vector α n) (gap : Nat)
    (coefficients : Vector α n) : Vector α n :=
  ((List.finRange n).reverse.filter fun i => gap ≤ i.val).foldl
    (fun d (i : Fin n) =>
      d.set i ((d[i] - d[i.val - 1]) / (x[i] - x[i.val - gap])))
    coefficients

/-- The divided differences of the values `y` at the nodes `x`, by stages. -/
def dividedDifferences [Sub α] [Div α] {n : Nat} (x y : Vector α n) :
    Vector α n :=
  (List.range' 1 (n - 1)).foldl (fun d gap => dividedStage x gap d) y

/-- The divided differences of lists.  Values beyond the last node are kept as
they are; a node without a value has no difference. -/
def dividedDifferences? [Sub α] [Div α] (x y : List α) : Option (List α) :=
  if h : x.length ≤ y.length then
    let nodes : Vector α x.length := ⟨x.toArray, List.size_toArray⟩
    let values : Vector α x.length := ⟨(y.take x.length).toArray,
      List.size_toArray.trans (List.length_take.trans (Nat.min_eq_left h))⟩
    some ((dividedDifferences nodes values).toList ++ y.drop x.length)
  else if x.length < 2 then some y
  else none

/-- The divided difference over nodes `i`, …, `i + k`, by recursion. -/
def dividedDifference [Sub α] [Div α] (x y : Nat → α) (i : Nat) : (k : Nat) → α
  | 0 => y i
  | k + 1 =>
    (dividedDifference x y (i + 1) k - dividedDifference x y i k) /
      (x (i + k + 1) - x i)

/-- The differences of neighbours. -/
def neighbourDifferences [Sub α] (row : List α) : List α :=
  List.zipWith (fun a b => b - a) row row.tail

/-- Rows of differences below a row: `count` of them. -/
def differenceRows [Sub α] : (count : Nat) → List α → List (List α)
  | 0, _ => []
  | count + 1, row =>
    let next := neighbourDifferences row
    next :: differenceRows count next

/-- The triangle of finite differences, the values themselves in its
first row. -/
def finiteDifferences [Sub α] (y : List α) : List (List α) :=
  y :: differenceRows (y.length - 1) y

end NumericalMethods
