import NumericalMethods.Decimal.Dyadic

/-!
# The shortest decimal that reads back

Every real number near a binary floating point number rounds to it.  Among the
decimals in that interval the shortest one is taken, and among those of equal
length the nearest.  The search walks decimal grids from coarse to fine; on each
grid only the two neighbours of the exact value can be the nearest points of
the interval.
-/

namespace NumericalMethods
namespace Decimal

/-- The neighbour taken when the exact value lies halfway between two points. -/
inductive Tie where
  /-- The larger neighbour. -/
  | up
  /-- The neighbour with an even last digit. -/
  | even
  deriving Repr, DecidableEq

/-- The number `digits * 10 ^ place`. -/
structure Numeral where
  digits : Nat
  /-- The power of ten that scales them. -/
  place : Int
  deriving Repr, DecidableEq

/-- A rounding interval over a common denominator. -/
structure Interval where
  low : Nat
  value : Nat
  high : Nat
  /-- The common denominator. -/
  unit : Nat
  /-- Whether the ends belong to the interval. -/
  closed : Bool
  deriving Repr, DecidableEq

namespace Interval

/-- The interval of a binary number in multiples of `10 ^ place`.  The ends lie
half a step away; below a power of two the lower step has half the width. -/
def ofDyadic (d : Dyadic) (place : Int) : Interval :=
  let q := (Dyadic.mk 1 (d.exponent - 2)).scaled place
  let below :=
    if d.significand = Nat.pow 2 52 ∧ -1074 < d.exponent then 1 else 2
  { low := (4 * d.significand - below) * q.numerator
    value := 4 * d.significand * q.numerator
    high := (4 * d.significand + 2) * q.numerator
    unit := q.denominator
    closed := d.significand % 2 = 0 }

/-- Whether a multiple of the grid rounds to the number. -/
def contains (i : Interval) (n : Nat) : Bool :=
  if i.closed then i.low ≤ n * i.unit && n * i.unit ≤ i.high
  else i.low < n * i.unit && n * i.unit < i.high

/-- The point of the grid that is nearest to the value, if it is in the
interval. -/
def nearest? (i : Interval) (tie : Tie) : Option Nat :=
  let n := i.value / i.unit
  let below := i.value - n * i.unit
  let above := (n + 1) * i.unit - i.value
  match i.contains n, i.contains (n + 1) with
  | false, false => none
  | true, false => some n
  | false, true => some (n + 1)
  | true, true =>
    if below < above then some n
    else if above < below then some (n + 1)
    else match tie with
      | .up => some (n + 1)
      | .even => some (n + n % 2)

end Interval

/-- Searches the grids from `10 ^ place` downwards, `fuel` of them. -/
def searchShortest (d : Dyadic) (tie : Tie) : Nat → Int → Numeral
  | 0, place => ⟨(d.scaled place).roundHalfEven, place⟩
  | fuel + 1, place =>
    match (Interval.ofDyadic d place).nearest? tie with
    | some n => ⟨n, place⟩
    | none => searchShortest d tie fuel (place - 1)

/-- The shortest decimal that rounds to the binary number.  The coarsest grid
tried has at most one digit above the leading one, and seventeen digits always
suffice. -/
def Dyadic.shortest (d : Dyadic) (tie : Tie) : Numeral :=
  searchShortest d tie 20 (d.exponentEstimate + 1)

end Decimal
end NumericalMethods
