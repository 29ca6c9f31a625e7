import NumericalMethods.Interpolation.Differences
import NumericalMethods.Interpolation.Nodes
import NumericalMethods.Interpolation.Polynomial

/-!
# Interpolation

The polynomial through selected nodes of tabulated data, by any of three
methods.  Both tables of differences are part of the result, whatever the
method.
-/

namespace NumericalMethods

/-- A form of the interpolating polynomial. -/
inductive InterpolationMethod where
  | lagrange
  | newtonSeparated
  | newtonFinite
  deriving Repr, DecidableEq

namespace InterpolationMethod

/-- All methods in the order of their numbers. -/
def all : List InterpolationMethod :=
  [lagrange, newtonSeparated, newtonFinite]

def id : InterpolationMethod → Nat
  | lagrange => 0
  | newtonSeparated => 1
  | newtonFinite => 2

def ofId? (n : Nat) : Option InterpolationMethod :=
  all[n]?

def name : InterpolationMethod → String
  | lagrange => "Lagrange"
  | newtonSeparated => "NewtonSeparated"
  | newtonFinite => "NewtonFinite"

/-- The method with a number, or an error. -/
def lookup {α : Type} (n : Nat) : Except (EngineError α) InterpolationMethod :=
  match ofId? n with
  | some method => .ok method
  | none => .error (.unknownMethodId "interpolation" n)

end InterpolationMethod

/-- An interpolating polynomial and its value at a point. -/
structure InterpolationResult (α : Type) where
  method : InterpolationMethod
  point : α
  interpolatedValue : α
  /-- The triangle of finite differences of the nodes. -/
  differenceTable : List (List α)
  dividedDifferences : List α
  /-- The nodes used, in ascending order. -/
  nodes : DataSet α
  warnings : List (Warning α)
  deriving Repr, DecidableEq

def DataSet.dividedDifferences {α : Type} [Sub α] [Div α]
    (d : DataSet α) : List α :=
  let points : Vector (α × α) d.points.length := ⟨d.points.toArray, rfl⟩
  (NumericalMethods.dividedDifferences (points.map Prod.fst)
    (points.map Prod.snd)).toList

def DataSet.finiteDifferences {α : Type} [Sub α] (d : DataSet α) :
    List (List α) :=
  NumericalMethods.finiteDifferences d.y

namespace Interpolation

variable {α : Type} [Scalar α]

/-- The value of the polynomial through nodes, in the form of a method. -/
def evaluateAt (method : InterpolationMethod) (nodes : DataSet α)
    (divided : List α) (table : List (List α)) (x : α) : α :=
  match method with
  | .lagrange => lagrange nodes.points x
  | .newtonSeparated => newtonForm x (nodes.x.zip divided)
  | .newtonFinite => forwardForm nodes.x (table.map fun row => row.headD 0) x

def interpolate (method : InterpolationMethod) (data : DataSet α) (point : α)
    (amount : Option Nat) : Except (EngineError α) (InterpolationResult α) := do
  if !Scalar.isFinite point then
    throw (.invalidParameter .pointNotFinite)
  let nodes ← selectNodes data point amount
  if method = .newtonFinite && !isEquallySpaced nodes.x then
    throw .unequalSpacing
  let warnings := match data.range? with
    | some (low, high) =>
      if point < low || high < point then
        [Warning.extrapolationWarning point low high]
      else []
    | none => []
  let table := nodes.finiteDifferences
  let divided := nodes.dividedDifferences
  return {
    method := method
    point := point
    interpolatedValue := evaluateAt method nodes divided table point
    differenceTable := table
    dividedDifferences := divided
    nodes := nodes
    warnings := warnings }

end Interpolation

namespace InterpolationResult

variable {α : Type} [Scalar α]

def evaluate (r : InterpolationResult α) (x : α) : α :=
  Interpolation.evaluateAt r.method r.nodes r.dividedDifferences
    r.differenceTable x

/-- The polynomial at equally spaced points of the node range. -/
def curve (r : InterpolationResult α) (samples : Nat) :
    Except (Failure α) (List (α × α)) :=
  match r.nodes.range? with
  | none => .ok []
  | some (low, high) =>
    if samples < 2 || low == high then .ok [(low, r.evaluate low)]
    else
      DataSet.equallySpaced r.evaluate low
        ((high - low) / Scalar.ofNat (samples - 1)) samples

end InterpolationResult
end NumericalMethods
