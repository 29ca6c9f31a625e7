import NumericalMethods.Error

/-!
# Composite quadrature rules

Five rules on `n` equal subintervals of `[a, b]`.  The order of a rule is the
power of the width that bounds its error; halving the width divides the error by
two to that power.
-/

namespace NumericalMethods

inductive QuadratureRule where
  /-- Values at the left ends. -/
  | leftRectangles
  /-- Values at the right ends. -/
  | rightRectangles
  /-- Values in the middle. -/
  | middleRectangles
  /-- Lines through the values at both ends. -/
  | trapezoid
  /-- Parabolas through three values. -/
  | simpson
  deriving Repr, DecidableEq

namespace QuadratureRule

/-- All rules in the order of their numbers. -/
def all : List QuadratureRule :=
  [leftRectangles, rightRectangles, middleRectangles, trapezoid, simpson]

def id : QuadratureRule → Nat
  | leftRectangles => 0
  | rightRectangles => 1
  | middleRectangles => 2
  | trapezoid => 3
  | simpson => 4

def ofId? (n : Nat) : Option QuadratureRule :=
  all[n]?

def name : QuadratureRule → String
  | leftRectangles => "LeftRectangles"
  | rightRectangles => "RightRectangles"
  | middleRectangles => "MiddleRectangles"
  | trapezoid => "Trapezoid"
  | simpson => "Simpson"

/-- The rule with a number, or an error. -/
def lookup {α : Type} (n : Nat) : Except (EngineError α) QuadratureRule :=
  match ofId? n with
  | some rule => .ok rule
  | none => .error (.unknownMethodId "integration" n)

def order : QuadratureRule → Nat
  | leftRectangles | rightRectangles => 1
  | middleRectangles | trapezoid => 2
  | simpson => 4

variable {α : Type} [Scalar α]

open Scalar (sumUpTo)

/-- The value of a rule on `n` subintervals of `[a, b]`. -/
@[specialize] def composite (rule : QuadratureRule) (f : α → α) (a b : α)
    (n : Nat) : α :=
  let h := (b - a) / Scalar.ofNat n
  match rule with
  | leftRectangles => h * sumUpTo (fun i => f (a + Scalar.ofNat i * h)) n
  | rightRectangles => h * sumUpTo (fun i => f (a + Scalar.ofNat (i + 1) * h)) n
  | middleRectangles =>
    let half : α := 0.5
    h * sumUpTo (fun i => f (a + (Scalar.ofNat i + half) * h)) n
  | trapezoid =>
    let inner := sumUpTo (fun i => f (a + Scalar.ofNat (i + 1) * h)) (n - 1)
    h * ((f a + f b) / 2.0 + inner)
  | simpson =>
    let odd := sumUpTo (fun i => f (a + Scalar.ofNat (2 * i + 1) * h)) (n / 2)
    let even :=
      sumUpTo (fun i => f (a + Scalar.ofNat (2 * i + 2) * h)) ((n - 1) / 2)
    h / 3.0 * (f a + f b + 4.0 * odd + 2.0 * even)

/-- The number of subintervals a refinement starts with: at least one, and even
for a rule on pairs of them.  From the largest machine count it leaves the range
of the machine words, which a refinement finds out before it takes a value. -/
def startingCount (rule : QuadratureRule) (initial : Nat) : Nat :=
  let n := max initial 1
  if rule = simpson then n + n % 2 else n

end QuadratureRule
end NumericalMethods
