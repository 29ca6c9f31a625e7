import NumericalMethods.InitialValue.Trace

/-!
# Solving an initial value problem

All three methods solve the same problem, side by side.  An error of an earlier
method comes before one of a later method, an abort of any method before all
errors.  Where the exact solution is known it is tabulated on the grid of the
problem.
-/

namespace NumericalMethods

/-- The solutions by all methods. -/
structure OdeSolution (α : Type) where
  euler : OdeTrace α
  extendedEuler : OdeTrace α
  milne : OdeTrace α
  /-- The constant of the exact solution. -/
  integrationConstant : Option α
  exactFormula : Option ConstantFormula
  exactPoints : Option (List (α × α))
  deriving Repr, DecidableEq

/-- The solution by a method. -/
def OdeSolution.trace {α : Type} (s : OdeSolution α) : OdeMethod → OdeTrace α
  | .euler => s.euler
  | .extendedEuler => s.extendedEuler
  | .milne => s.milne

namespace InitialValue

variable {α : Type} [Scalar α]

/-- A solution at the nodes of a problem, if it is known at all of them. -/
def exactPoints (exact : α → Option α) (p : InitialValueProblem α) :
    Option (List (α × α)) :=
  (List.range (gridSize p.x0 p.xn p.step + 1)).mapM fun i =>
    let x := node p.x0 p.step i
    (exact x).map fun y => (x, y)

/-- Solves a problem by all methods. -/
@[specialize] def solve (settings : Settings) (f : OdeFunction α)
    (p : InitialValueProblem α) : Except (Failure α) (OdeSolution α) := do
  liftError p.validate
  let euler := trace settings .euler f p
  let extendedEuler := trace settings .extendedEuler f p
  let milne := trace settings .milne f p
  await [euler, extendedEuler, milne]
  let euler ← euler
  let extendedEuler ← extendedEuler
  let milne ← milne
  let constant := f.integrationConstant p.x0 p.y0
  return {
    euler := euler
    extendedEuler := extendedEuler
    milne := milne
    integrationConstant := constant
    exactFormula := constant.bind fun _ => f.exactFormula
    exactPoints :=
      constant.bind fun c => exactPoints (fun x => f.exactSolution x c) p }

end InitialValue
end NumericalMethods
