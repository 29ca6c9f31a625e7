import NumericalMethods.Error
import NumericalMethods.Function

/-!
# Tabulated data

A data set is a list of points.  It is made from a list of abscissas and a list
of ordinates of the same length, all of them finite.
-/

namespace NumericalMethods

/-- Paired samples. -/
structure DataSet (α : Type) where
  points : List (α × α)
  deriving Repr, DecidableEq

namespace DataSet

variable {α : Type}

def x (d : DataSet α) : List α :=
  d.points.map Prod.fst

def y (d : DataSet α) : List α :=
  d.points.map Prod.snd

/-- The number of points. -/
def length (d : DataSet α) : Nat :=
  d.points.length

def isEmpty (d : DataSet α) : Bool :=
  d.points.isEmpty

variable [Scalar α]

/-- The data set with the given coordinates. -/
def ofLists (x y : List α) : Except (EngineError α) (DataSet α) :=
  if x.length ≠ y.length then
    .error (.insufficientData (.unequalLengths x.length y.length))
  else if x.all Scalar.isFinite && y.all Scalar.isFinite then .ok ⟨x.zip y⟩
  else .error (.invalidParameter .dataNotFinite)

def range? (d : DataSet α) : Option (α × α) :=
  match d.x with
  | [] => none
  | first :: rest =>
    some (rest.foldl Scalar.smaller first, rest.foldl Scalar.larger first)

/-- A number of points at equal distances on a curve, from `start` on.  The
list of points is reserved before the first one is computed. -/
def equallySpaced (f : α → α) (start step : α) (count : Nat) :
    Except (Failure α) (List (α × α)) := do
  reserve count 16
  return (List.range count).map fun i =>
    let x := start + Scalar.ofNat i * step
    (x, f x)

/-- Samples a function at equally spaced nodes.  The list of nodes is reserved
before the first one is computed. -/
def sample (f : ScalarFunction α) (start stop : α) (count : Nat) :
    Except (Failure α) (DataSet α) := do
  if count < 2 then
    throw (.error (.invalidParameter .tooFewSamples))
  if !(Scalar.isFinite start && Scalar.isFinite stop) ||
      decide (stop ≤ start) then
    throw (.error (.invalidParameter (.samplingInterval start stop)))
  reserve count 8
  let step := (stop - start) / Scalar.ofNat (count - 1)
  let x := (List.range count).map fun i => start + step * Scalar.ofNat i
  liftError (ofLists x (x.map f.evaluate))

end DataSet
end NumericalMethods
