import NumericalMethods.Interpolation
import NumericalMethods.Decimal.Layout

/-!
# Formulas of interpolating polynomials

The polynomial written out in the notation of its method, with numbers that read
back.
-/

namespace NumericalMethods
namespace Interpolation

open Decimal (text)

/-- The factor that vanishes at a node. -/
def factor (v : Float) : String :=
  if v < 0 then s!"(x + {text (-v)})" else s!"(x - {text v})"

/-- The weighed value at node `i`. -/
def lagrangeTermText (nodes : List (Float × Float)) (i : Nat)
    (node : Float × Float) :
    String :=
  let others :=
    (nodes.zipIdx.filter fun (_, j) => j ≠ i).map fun (other, _) => other.1
  if others.isEmpty then text node.2
  else
    let numerator := String.join (others.map factor)
    let denominator :=
      String.join (others.map fun v => s!"({text node.1} - {text v})")
    s!"{text node.2} \\cdot \\frac\x7b{numerator}\x7d\x7b{denominator}\x7d"

/-- The terms of the nested form behind the first, `before` being the product of
the factors of the nodes in front. -/
def newtonTermTexts (before : String) : List (Float × Float) → List String
  | [] => []
  | [_] => []
  | (node, _) :: (next, c) :: rest =>
    let product := before ++ factor node
    s!"{text c} \\cdot {product}" :: newtonTermTexts product ((next, c) :: rest)

/-- The terms of the forward form from order `k` on. -/
def forwardTermTexts (before : String) : (k : Nat) → List Float → List String
  | _, [] => []
  | k, d :: rest =>
    let product := if k = 1 then before ++ "t" else before ++ s!"(t - {k - 1})"
    s!"\\frac\x7b{text d}\x7d\x7b{k}!\x7d {product}" ::
      forwardTermTexts product (k + 1) rest

/-- The forward form with its first node and its step. -/
def forwardText (nodes leading : List Float) : String :=
  match nodes, leading with
  | x0 :: x1 :: _, d0 :: ds =>
    let sum := String.intercalate " + " (text d0 :: forwardTermTexts "" 1 ds)
    s!"{sum}, \\quad t = \\frac\x7b{factor x0}\x7d\x7b{text (x1 - x0)}\x7d"
  | _, leading => text (leading.headD 0)

end Interpolation

open Interpolation in
/-- The polynomial, written out. -/
def InterpolationResult.displayFormula
    (r : InterpolationResult Float) : String :=
  let nodes := r.nodes.points
  match r.method with
  | .lagrange =>
    String.intercalate " + "
      (nodes.zipIdx.map fun (node, i) => lagrangeTermText nodes i node)
  | .newtonSeparated =>
    String.intercalate " + "
      (Decimal.text (r.dividedDifferences.headD 0) ::
        newtonTermTexts "" (r.nodes.x.zip r.dividedDifferences))
  | .newtonFinite =>
    forwardText r.nodes.x (r.differenceTable.map fun row => row.headD 0)

end NumericalMethods
