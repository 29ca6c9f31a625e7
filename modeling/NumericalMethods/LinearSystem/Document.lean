import NumericalMethods.Decimal.Reader
import NumericalMethods.Text.Blank
import NumericalMethods.LinearSystem.Basic
import NumericalMethods.Scalar.Binary64

/-!
# Linear systems in text form

A document holds the order of the system, one line for each row with its
coefficients and its right-hand side, and the tolerance.  Decimal commas stand
for points, and blank lines do not count.
-/

namespace NumericalMethods
namespace LinearSystem

def documentLines (document : String) : List (List Char) :=
  Text.contentLines (document.toList.map fun c => if c = ',' then '.' else c)

/-- A number of a row. -/
def readCoefficient (token : List Char) : Except (EngineError Float) Float :=
  match Decimal.number? token with
  | some x => .ok x
  | none => .error (.invalidParameter (.coefficientText (String.ofList token)))

/-- A row of coefficients with its right-hand side. -/
structure DocumentRow where
  coefficients : List Float
  rhs : Float

/-- The row on a line, `index` counted from one. -/
def readRow (order index : Nat) (line : List Char) :
    Except (EngineError Float) DocumentRow := do
  let values ← (Text.words line).mapM readCoefficient
  if values.length ≠ order + 1 then
    throw (.invalidParameter (.rowEntries index order values.length))
  return ⟨values.dropLast, values.getLastD 0⟩

/-- Rows `index + 1` up to the order of the system, and the lines behind
them. -/
def readRows (order : Nat) : (left : Nat) → List (List Char) →
    Except (EngineError Float) (List DocumentRow × List (List Char))
  | 0, lines => .ok ([], lines)
  | left + 1, lines =>
    let index := order - left
    match lines with
    | [] => .error (.insufficientData (.missingRow index order))
    | line :: lines => do
      let row ← readRow order index line
      let (rows, rest) ← readRows order left lines
      return (row :: rows, rest)

/-- The contents of a document. -/
structure Document where
  order : Nat
  system : LinearSystem Float order
  tolerance : Float

/-- The rows and the tolerance on the lines behind the order. -/
def readBody (order : Nat) (lines : List (List Char)) :
    Except (EngineError Float) Document := do
  let (rows, rest) ← readRows order order lines
  match rest with
  | [] => throw (.insufficientData .missingTolerance)
  | line :: _ =>
    match Decimal.number? line with
    | none => throw (.invalidParameter (.toleranceText (String.ofList line)))
    | some tolerance =>
      let system ← ofRows (rows.map (·.coefficients)) (rows.map (·.rhs))
      return ⟨_, system, tolerance⟩

/-- Reads a document.  A list of rows is reserved before the first one
is read. -/
def parse (document : String) : Except (Failure Float) Document :=
  match documentLines document with
  | [] => .error (.error (.insufficientData .missingOrder))
  | line :: lines =>
    match Decimal.count? line with
    | none =>
      .error (.error (.invalidParameter (.orderText (String.ofList line))))
    | some order => do
      reserve order 24
      liftError (readBody order lines)

end LinearSystem
end NumericalMethods
