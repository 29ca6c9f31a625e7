import NumericalMethods.Engine
import NumericalMethods.Response
import NumericalMethods.Trace.Table

/-!
# Showcase

Seven short demonstrations, one for each thing the engine does, as the text they
print.  All of them use the standard configuration.
-/

namespace NumericalMethods
namespace Showcase

open Decimal (text)

/-- A number in a listing. -/
def listed (x : Float) : String :=
  Decimal.Layout.listing.render x

def listedAll (xs : List Float) : String :=
  "[" ++ String.intercalate ", " (xs.map listed) ++ "]"

/-- A value that may be absent, in a listing. -/
def listedOption {β : Type} (render : β → String) : Option β → String
  | some value => "Some(" ++ render value ++ ")"
  | none => "None"

/-- A text in a listing. -/
def listedText (s : String) : String :=
  let escape (c : Char) : List Char :=
    if c = '"' ∨ c = '\\' then ['\\', c] else [c]
  String.ofList ('"' :: s.toList.flatMap escape ++ ['"'])

def listedField : Json → String
  | .number x => listed x
  | .count n => toString n
  | other => other.render

/-- A warning in a listing. -/
def listedWarning (w : Warning Float) : String :=
  let fields :=
    w.fields.map fun (name, value) => name ++ ": " ++ listedField value
  if fields.isEmpty then w.kind.name
  else w.kind.name ++ " \x7b " ++ String.intercalate ", " fields ++ " \x7d"

/-- The engine of the demonstrations. -/
def engine : Engine Float :=
  ⟨Config.standard⟩

/-- All root finders on one equation. -/
def rootFinding : Except (EngineError Float) (List String) := do
  let equation := Registry.Equation.cubic
  let found ← RootMethod.all.mapM fun method => do
    let r ← engine.solveEquation method.id equation.id (.bracket 1.0 2.0) 1e-6
    let root := listedOption listed r.functionValue
    return [
      s!"method {method.id}: root = {text r.value}, f(root) = {root}, " ++
        s!"iterations = {r.iterations}",
      Table.steps r.steps]
  return ("equation: " ++ equation.display) :: found.flatten

/-- A circle and a parabola. -/
def plane : Except (EngineError Float) (List String) := do
  let r ← engine.solveSystem 0 (1.0, 1.0) 1e-8
  return [s!"x = {text r.x}, y = {text r.y}, |F| = {text r.residualNorm}",
    Table.steps r.steps]

/-- All quadrature rules on one integral, and an improper integral. -/
def quadrature : Except (Failure Float) (List String) := do
  let rules ← QuadratureRule.all.mapM fun rule => do
    let r ← engine.integrate rule.id
      Registry.Integrand.polynomial.id 1.0 3.0 1e-4
    let warnings :=
      "[" ++ String.intercalate ", " (r.warnings.map listedWarning) ++ "]"
    return s!"rule {rule.id}: I = {text r.value} (exact {listedOption listed r.exactValue}), " ++
      s!"subintervals = {r.iterations}, warnings = {warnings}"
  let improper ← engine.integrate 2 5 0.0 1.0 1e-4
  return rules ++ [s!"int_0^1 1/sqrt(x) dx = {text improper.value}"]

/-- All models on the same data. -/
def approximation : Except (EngineError Float) (List String) := do
  let report ← engine.approximate [1.1, 2.3, 3.7, 4.5, 5.4, 6.8, 7.5]
    [2.73, 5.12, 7.74, 8.91, 10.59, 12.75, 13.43]
  let fits := report.candidates.map fun fit =>
    s!"{fit.model.name}: {fit.displayFormula}, S = {text fit.standardDeviation}, " ++
      s!"r = {listedOption listed fit.pearsonCorrelation}"
  return fits ++ ["best: " ++ report.best.displayFormula]

/-- All forms of an interpolating polynomial, and a sampled sine. -/
def interpolation : Except (Failure Float) (List String) := do
  let forms ← liftError <| InterpolationMethod.all.mapM fun method => do
    let r ← engine.interpolate method.id [0.1, 0.2, 0.3, 0.4, 0.5]
      [1.25, 2.38, 3.79, 5.44, 7.14] 0.35 none
    return s!"P(0.35) = {text r.interpolatedValue}, {r.displayFormula}"
  let r ← engine.interpolateFunction 1 0 0.0 Elementary.pi 6 1.0
  return forms ++ [s!"sin(1) ~ {text r.interpolatedValue}"]

/-- A differential equation by all methods, beside its exact solution. -/
def initialValue : Except (Failure Float) (List String) := do
  let s ← engine.solveOde 0
    { x0 := 0.0, y0 := 1.0, xn := 1.0, step := 0.1, tolerance := 1e-6 }
  let table := Table.series "x"
    [⟨"Euler", s.euler.points⟩, ⟨"ExtendedEuler", s.extendedEuler.points⟩,
      ⟨"Milne", s.milne.points⟩, ⟨"exact", s.exactPoints.getD []⟩]
  return ["exact: " ++ listedOption listedText s.exactDisplay?, table,
    (Response.ok s.toJson).text]

/-- A linear system whose rows are out of order. -/
def linearSystem : Except (Failure Float) (List String) := do
  let r ← engine.solveLinearText "3\n2 2 10 14\n10 1 1 12\n2 10 1 13\n0,0001"
  let matrix := "[" ++ String.intercalate ", " (r.cMatrix.map listedAll) ++ "]"
  return [Table.matrix r.matrix r.rhs, "C = " ++ matrix, Table.steps r.steps,
    s!"x = {listedAll r.solution}, errors = {listedAll r.errors}, " ++
      s!"iterations = {r.iterations}"]

/-- What a demonstration prints, piece by piece. -/
def pieces (n : Nat) : Except (Failure Float) (List String) :=
  match n with
  | 0 => liftError rootFinding
  | 1 => liftError plane
  | 2 => quadrature
  | 3 => liftError approximation
  | 4 => interpolation
  | 5 => initialValue
  | 6 => linearSystem
  | n => .ok [s!"example {n} does not exist"]

/-- The text a demonstration prints. -/
def print (n : Nat) : Except (Failure Float) String :=
  (pieces n).map fun ps => String.join (ps.map fun piece => piece ++ "\n")

end Showcase
end NumericalMethods
