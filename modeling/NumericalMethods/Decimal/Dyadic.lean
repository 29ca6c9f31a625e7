/-!
# Binary numbers as exact quotients

A finite binary floating point number is `significand * 2 ^ exponent` with a
sign.  The decimal texts of this library are computed from that exact value
with natural numbers only, so no rounding takes place before the one that the
text itself asks for.
-/

namespace NumericalMethods
namespace Decimal

/-- The positive number `significand * 2 ^ exponent`. -/
structure Dyadic where
  significand : Nat
  exponent : Int
  deriving Repr, DecidableEq

/-- A 64-bit binary floating point number, taken apart. -/
inductive Parts where
  | undefined
  | infinite (negative : Bool)
  | zero (negative : Bool)
  | finite (negative : Bool) (magnitude : Dyadic)
  deriving Repr, DecidableEq

/-- The parts of a bit pattern: one sign bit, eleven exponent bits and
fifty-two significand bits.  The lowest exponent has no implicit leading one. -/
def Parts.ofBits (bits : UInt64) : Parts :=
  let n : Nat := bits.toNat
  let negative := decide (Nat.pow 2 63 ≤ n)
  let biased : Nat := n / Nat.pow 2 52 % Nat.pow 2 11
  let fraction : Nat := n % Nat.pow 2 52
  if biased = 2047 then
    if fraction = 0 then .infinite negative else .undefined
  else if biased = 0 then
    if fraction = 0 then .zero negative else .finite negative ⟨fraction, -1074⟩
  else
    .finite negative ⟨Nat.pow 2 52 + fraction, (biased : Int) - 1075⟩

/-- The parts of a floating point number. -/
def Parts.ofFloat (x : Float) : Parts :=
  .ofBits x.toBits

/-- The sign of a number; an undefined number has none. -/
def Parts.isNegative : Parts → Bool
  | .undefined => false
  | .infinite negative | .zero negative | .finite negative _ => negative

/-- A quotient of natural numbers. -/
structure Quotient where
  numerator : Nat
  denominator : Nat
  deriving Repr, DecidableEq

namespace Dyadic

/-- The value divided by `10 ^ place`, as a quotient of natural numbers. -/
def scaled (d : Dyadic) (place : Int) : Quotient where
  numerator :=
    d.significand * Nat.pow 2 d.exponent.toNat * Nat.pow 10 (-place).toNat
  denominator := Nat.pow 2 (-d.exponent).toNat * Nat.pow 10 place.toNat

/-- A lower estimate of the decimal exponent, short of it by at most one: the
binary exponent times the logarithm of two. -/
def exponentEstimate (d : Dyadic) : Int :=
  ((d.significand.log2 : Int) + d.exponent) * 30103 / 100000

/-- The exponent of the leading decimal digit. -/
def decimalExponent (d : Dyadic) : Int :=
  let estimate := d.exponentEstimate
  let q := d.scaled (estimate + 1)
  let r := d.scaled estimate
  if q.denominator ≤ q.numerator then estimate + 1
  else if r.denominator ≤ r.numerator then estimate
  else estimate - 1

end Dyadic

namespace Quotient

/-- The whole number next to a quotient; a half goes to the even neighbour. -/
def roundHalfEven (q : Quotient) : Nat :=
  let whole := q.numerator / q.denominator
  let twice := 2 * (q.numerator % q.denominator)
  if twice < q.denominator then whole
  else if q.denominator < twice then whole + 1
  else whole + whole % 2

end Quotient
end Decimal
end NumericalMethods
