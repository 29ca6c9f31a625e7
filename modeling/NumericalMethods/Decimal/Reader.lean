import NumericalMethods.Decimal.Dyadic
import NumericalMethods.Machine

/-!
# Reading numbers

A count is a run of decimal digits, at most the largest machine count, after an
optional plus sign.  A number is a decimal with an optional sign, fraction and
exponent, with a digit on at least one side of the point, or the name of an
infinity or of the undefined value in any case.  Decimals are rounded correctly
to the binary format.
-/

namespace NumericalMethods
namespace Decimal

def digit? (c : Char) : Option Nat :=
  if '0' ≤ c && c ≤ '9' then some (c.toNat - '0'.toNat) else none

/-- The characters of a digit run at the start, and what follows it. -/
def spanDigits (cs : List Char) : List Char × List Char :=
  cs.span fun c => (digit? c).isSome

/-- The natural number a run of digits stands for. -/
def ofDigits (cs : List Char) : Nat :=
  cs.foldl (fun n c => 10 * n + (digit? c).getD 0) 0

/-- The floating point number nearest to `digits * 10 ^ place`.  Decimals far
outside the range of the format are decided by their magnitude alone. -/
def nearest (negative : Bool) (digits : Nat) (place : Int) : Float :=
  let leading : Int := (Nat.toDigits 10 digits).length + place
  let magnitude : Float :=
    if digits = 0 ∨ leading < -400 then 0
    else if 400 < leading then 1.0 / 0.0
    else if 0 ≤ place then Float.ofScientific digits false place.toNat
    else Float.ofScientific digits true (-place).toNat
  if negative then -magnitude else magnitude

/-- A sign, if there is one, and what follows it. -/
def spanSign : List Char → Bool × List Char
  | '-' :: rest => (true, rest)
  | '+' :: rest => (false, rest)
  | cs => (false, cs)

/-- An exponent part: nothing at all, or a mark, a sign and digits up to
the end. -/
def exponent? : List Char → Option Int
  | [] => some 0
  | c :: rest =>
    if c = 'e' ∨ c = 'E' then
      let (negative, rest) := spanSign rest
      match spanDigits rest with
      | ([], _) => none
      | (digits, []) =>
        let n : Int := ofDigits digits
        some (if negative then -n else n)
      | _ => none
    else none

/-- An unsigned decimal, as its digits and the place of the last one. -/
def decimal? (cs : List Char) : Option (Nat × Int) :=
  let (whole, rest) := spanDigits cs
  let (fraction, rest) := match rest with
    | '.' :: rest => spanDigits rest
    | _ => ([], rest)
  if whole.isEmpty && fraction.isEmpty then none
  else (exponent? rest).map fun e =>
    (ofDigits (whole ++ fraction), e - fraction.length)

/-- Reads a floating point number. -/
def number? (cs : List Char) : Option Float :=
  let (negative, rest) := spanSign cs
  let name := String.ofList (rest.map Char.toLower)
  if name = "inf" ∨ name = "infinity" then
    some (if negative then -(1.0 / 0.0) else 1.0 / 0.0)
  else if name = "nan" then some (0.0 / 0.0)
  else (decimal? rest).map fun (digits, place) => nearest negative digits place

/-- Reads a count. -/
def count? (cs : List Char) : Option Nat :=
  let rest := match cs with
    | '+' :: rest => rest
    | _ => cs
  match spanDigits rest with
  | ([], _) => none
  | (digits, []) =>
    let n := ofDigits digits
    if n < Machine.countBound then some n else none
  | _ => none

end Decimal
end NumericalMethods
