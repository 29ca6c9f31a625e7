import NumericalMethods.Decimal.Shortest

/-!
# Decimal text

The digits of a number are laid out positionally or with an exponent.  A
`Layout` records the decisions of one text format: which exponents are written
positionally, whether a whole number keeps a fraction, how an exponent is
marked, and what the special values are called.
-/

namespace NumericalMethods
namespace Decimal

/-- Leading digit, remaining digits and the exponent of the leading digit. -/
structure Significant where
  digits : List Char
  /-- The power of ten of the first digit. -/
  exponent : Int

/-- The digits of a decimal without trailing zeros. -/
def Numeral.significant (d : Numeral) : Significant :=
  let all := Nat.toDigits 10 d.digits
  let kept := (all.reverse.dropWhile (· = '0')).reverse
  { digits := if kept.isEmpty then ['0'] else kept
    exponent := (all.length : Int) - 1 + d.place }

/-- Positional text: zeros fill the places between the digits and the point. -/
def Significant.positional (s : Significant) (fraction : Bool) : String :=
  let e := s.exponent
  let n := s.digits.length
  if e < 0 then
    String.ofList ('0' :: '.' :: List.replicate (-e - 1).toNat '0' ++ s.digits)
  else
    let whole := e.toNat + 1
    if n ≤ whole then
      String.ofList (s.digits ++ List.replicate (whole - n) '0') ++
        (if fraction then ".0" else "")
    else
      String.ofList (s.digits.take whole ++ '.' :: s.digits.drop whole)

/-- Text with an exponent: one digit before the point, none after it if there
are no more. -/
def Significant.scientific (s : Significant) (plus : Bool) : String :=
  let mantissa := match s.digits with
    | [d] => String.ofList [d]
    | d :: rest => String.ofList (d :: '.' :: rest)
    | [] => "0"
  let sign := if s.exponent < 0 then "-" else if plus then "+" else ""
  mantissa ++ "e" ++ sign ++ toString s.exponent.natAbs

/-- The decisions of a text format for floating point numbers. -/
structure Layout where
  /-- Which leading-digit exponents are written positionally. -/
  isPositional : Int → Bool
  /-- Whether a whole number keeps the fraction `.0`. -/
  fraction : Bool
  /-- Whether a positive exponent carries a plus sign. -/
  plus : Bool
  /-- How an exact tie between two shortest texts is broken. -/
  tie : Tie

namespace Layout

/-- Numbers inside messages: always positional, whole numbers without a
fraction. -/
def message : Layout where
  isPositional := fun _ => true
  fraction := false
  plus := false
  tie := .up

/-- Numbers in a configuration document: always positional, with a fraction. -/
def document : Layout :=
  { message with fraction := true }

/-- Numbers in a listing: an exponent below `1e-4` and from `1e16` on. -/
def listing : Layout where
  isPositional e := -5 < e && e < 16
  fraction := true
  plus := false
  tie := .up

/-- Numbers in a record: an exponent below `1e-5` and from `1e16` on, signed. -/
def record : Layout where
  isPositional e := -6 < e && e < 16
  fraction := true
  plus := true
  tie := .even

def render (l : Layout) (x : Float) : String :=
  let parts := Parts.ofFloat x
  let sign := if parts.isNegative then "-" else ""
  match parts with
  | .undefined => "NaN"
  | .infinite _ => sign ++ "inf"
  | .zero _ => sign ++ (if l.fraction then "0.0" else "0")
  | .finite _ magnitude =>
    let s := (magnitude.shortest l.tie).significant
    sign ++
      (if l.isPositional s.exponent then s.positional l.fraction
        else s.scientific l.plus)

end Layout

def text (x : Float) : String :=
  Layout.message.render x

/-- Digits of a natural number with at least `width` of them. -/
def padded (width n : Nat) : List Char :=
  let digits := Nat.toDigits 10 n
  List.replicate (width - digits.length) '0' ++ digits

/-- The magnitude rounded to a number of decimal places, a half to the even
neighbour. -/
def fixedMagnitude (d : Dyadic) (places : Nat) : String :=
  let digits := padded (places + 1) (d.scaled (-places)).roundHalfEven
  let whole := digits.length - places
  let tail := digits.drop whole
  String.ofList
    (digits.take whole ++ (if tail.isEmpty then [] else '.' :: tail))

/-- Fixed-point text with a given number of places.  The sign survives rounding
to zero; with `plus` a number that is not negative carries one as well. -/
def fixed (places : Nat) (x : Float) (plus : Bool := false) : String :=
  let parts := Parts.ofFloat x
  let sign := if parts.isNegative then "-" else if plus then "+" else ""
  match parts with
  | .undefined => "NaN"
  | .infinite _ => sign ++ "inf"
  | .zero _ => sign ++ fixedMagnitude ⟨0, 0⟩ places
  | .finite _ magnitude => sign ++ fixedMagnitude magnitude places

/-- The magnitude with one digit before the point, rounded to `places`
after it. -/
def exponentialMagnitude (d : Dyadic) (places : Nat) : String :=
  let e := d.decimalExponent
  let n := (d.scaled (e - places)).roundHalfEven
  let (n, e) := if Nat.pow 10 (places + 1) ≤ n then (n / 10, e + 1) else (n, e)
  let digits := padded (places + 1) n
  String.ofList (digits.take 1) ++
    (if places = 0 then "" else "." ++ String.ofList (digits.drop 1)) ++
    "e" ++ toString e

/-- Text with an exponent and a given number of places after the leading
digit. -/
def exponential (places : Nat) (x : Float) : String :=
  let parts := Parts.ofFloat x
  let sign := if parts.isNegative then "-" else ""
  match parts with
  | .undefined => "NaN"
  | .infinite _ => sign ++ "inf"
  | .zero _ =>
    let zeros := String.ofList (List.replicate places '0')
    sign ++ "0" ++ (if places = 0 then "" else "." ++ zeros) ++ "e0"
  | .finite _ magnitude => sign ++ exponentialMagnitude magnitude places

end Decimal
end NumericalMethods
