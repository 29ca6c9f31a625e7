import NumericalMethods.Scalar

/-!
# Three forms of the interpolating polynomial

The form of Lagrange weighs each value by a product over the other nodes.  The
form of Newton nests the nodes around the divided differences.  For equally
spaced nodes the forward form counts steps from the first node.
-/

namespace NumericalMethods
namespace Interpolation

variable {α : Type} [Scalar α]

/-- The value at node `i`, weighed by the product over the other nodes. -/
def lagrangeTerm (nodes : List (α × α)) (x : α) (i : Nat) (node : α × α) : α :=
  nodes.zipIdx.foldl
    (fun term (other, j) =>
      if i = j then term else term * ((x - other.1) / (node.1 - other.1)))
    node.2

def lagrange (nodes : List (α × α)) (x : α) : α :=
  nodes.zipIdx.foldl (fun acc (node, i) => acc + lagrangeTerm nodes x i node) 0

/-- The form of Newton, from nodes paired with their divided differences. -/
def newtonForm (x : α) : List (α × α) → α
  | [] => 0
  | [(_, c)] => c
  | (node, c) :: next :: rest => newtonForm x (next :: rest) * (x - node) + c

/-- One term of the forward form: the product of steps so far and the sum. -/
def forwardStep (t : α) (state : α × α) (difference : α × Nat) : α × α :=
  let (term, sum) := state
  let (d, k) := difference
  let term := term * ((t - Scalar.ofNat k) / Scalar.ofNat (k + 1))
  (term, sum + term * d)

/-- The forward form of Newton: `nodes` are the abscissas, `leading` the first
entries of the rows of finite differences. -/
def forwardForm (nodes leading : List α) (x : α) : α :=
  match nodes, leading with
  | x0 :: x1 :: _, d0 :: ds =>
    let h := x1 - x0
    let t := (x - x0) / h
    (ds.zipIdx.foldl (forwardStep t) (1, d0)).2
  | _, leading => leading.headD 0

end Interpolation
end NumericalMethods
