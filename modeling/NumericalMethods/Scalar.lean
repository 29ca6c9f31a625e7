/-!
# The arithmetic of the numerical methods

Every method of this library is written once, over an arbitrary type of
scalars.  `Scalar` lists the operations the methods use and asks for no law, so
the same definitions run on binary floating point numbers and can be read over
an exact ordered field.  `Elementary` adds the functions that only the
registered formulas and the nonlinear models need.

The order of operations is part of each definition: floating point addition is
not associative, so sums run from left to right and powers are built by
repeated squaring.
-/

namespace NumericalMethods

/-- The operations a numerical method may use.  No law is assumed. -/
class Scalar (α : Type) extends Zero α, One α, Add α, Sub α, Mul α, Div α,
    Neg α, LT α, LE α, BEq α, OfScientific α where
  decidableLT : DecidableLT α
  decidableLE : DecidableLE α
  /-- The scalar nearest to a natural number. -/
  ofNat : Nat → α
  abs : α → α
  sqrt : α → α
  /-- The larger of two scalars, and the other one if one of them is
  undefined. -/
  larger : α → α → α
  /-- The smaller of two scalars, and the other one if one of them is
  undefined. -/
  smaller : α → α → α
  /-- Both scalars are defined and carry the same sign. -/
  sameSign : α → α → Bool
  /-- The scalars are indistinguishable, which is finer than `==` on signed
  zeros. -/
  identical : α → α → Bool
  /-- A total order by which data can be sorted. -/
  precedes : α → α → Bool
  /-- Neither infinite nor undefined. -/
  isFinite : α → Bool
  /-- The bound above all finite scalars. -/
  infinity : α
  undefined : α
  /-- The whole part as a count: zero below one and for an undefined scalar,
  and the largest machine count when the scalar is too large for one. -/
  whole : α → Nat

attribute [reducible, instance] Scalar.decidableLT Scalar.decidableLE

/-- The transcendental functions of the registered formulas and of the
models. -/
class Elementary (α : Type) extends Scalar α where
  exp : α → α
  ln : α → α
  sin : α → α
  cos : α → α
  tan : α → α
  /-- A power with an arbitrary exponent. -/
  pow : α → α → α
  pi : α

namespace Scalar

variable {α : Type} [Scalar α]

/-- Accumulates `acc * a ^ n` by repeated squaring, lowest binary digit of `n`
first. -/
def squaring (acc a : α) (n : Nat) : α :=
  let acc := if n % 2 = 1 then acc * a else acc
  if n / 2 = 0 then acc else squaring acc (a * a) (n / 2)
termination_by n
decreasing_by omega

/-- The power with a natural exponent, by repeated squaring. -/
def power (a : α) (n : Nat) : α :=
  squaring 1 a n

/-- The sum from left to right.  It starts from negative zero, which leaves
every scalar, a negative zero included, unchanged. -/
def sum (xs : List α) : α :=
  xs.foldl (· + ·) (-0)

/-- The sum of `f 0`, …, `f (n - 1)` from left to right. -/
@[specialize] def sumUpTo (f : Nat → α) (n : Nat) : α :=
  n.fold (fun i _ acc => acc + f i) (-0)

/-- The product from left to right. -/
def product (xs : List α) : α :=
  xs.foldl (· * ·) 1

def mean (xs : List α) : α :=
  sum xs / ofNat xs.length

/-- The nearest scalar of an interval; an undefined scalar stays undefined. -/
def clamp (x low high : α) : α :=
  if x < low then low else if high < x then high else x

/-- The Euclidean norm, squares summed from left to right. -/
def norm (xs : List α) : α :=
  sqrt (xs.foldl (fun acc x => acc + x * x) 0)

/-- The value of a polynomial by Horner's rule, coefficients from the lowest
power. -/
def horner (coefficients : List α) (x : α) : α :=
  coefficients.foldr (fun c acc => acc * x + c) 0

/-- The first largest entry of a list that starts with `first`. -/
def maximum (first : α) (rest : List α) : α :=
  rest.foldl (fun acc x => if x ≤ acc then acc else x) first

/-- For a method of a given order, the difference of two values, the second one
computed with half the step, over the error of the second one. -/
def rungeDivisor (order : Nat) : α :=
  power 2.0 order - 1

/-- Positive and finite, as tolerances, steps and floors have to be. -/
def isPositiveFinite (x : α) : Bool :=
  decide (0 < x) && isFinite x

end Scalar
end NumericalMethods
