import NumericalMethods.Decimal.Reader
import NumericalMethods.Toml.Value

/-!
# Numbers, truth values and moments in TOML

These values are written without quotes, as one run of letters, digits and a few
signs.  Digits may be grouped by single underscores.  A date and a time of day
may be divided by a space.
-/

namespace NumericalMethods
namespace Toml

/-- Digits without the underscores between them. -/
def digits? (isDigit : Char → Bool) (cs : List Char) : Option (List Char) :=
  let groups := cs.splitOn '_'
  if groups.all fun group => !group.isEmpty && group.all isDigit then
    some groups.flatten
  else none

def isDecimal (c : Char) : Bool :=
  (Decimal.digit? c).isSome

def digitValue (c : Char) : Nat :=
  if isDecimal c then c.toNat - '0'.toNat else c.toLower.toNat - 'a'.toNat + 10

/-- Whether a character is a digit in a base up to sixteen. -/
def isDigitIn (base : Nat) (c : Char) : Bool :=
  (isDecimal c || ('a' ≤ c.toLower && c.toLower ≤ 'f')) &&
  decide (digitValue c < base)

/-- A number in a base, from its digits. -/
def inBase (base : Nat) (cs : List Char) : Option Nat :=
  (digits? (isDigitIn base) cs).map fun digits =>
    digits.foldl (fun n c => base * n + digitValue c) 0

/-- Decimal digits without a superfluous zero at the front. -/
def wholeDigits? (cs : List Char) : Option (List Char) :=
  match digits? isDecimal cs with
  | some ('0' :: _ :: _) => none
  | digits => digits

/-- Whether a whole number has a machine representation of some kind. -/
def isRepresentable (n : Int) : Bool :=
  decide (-(Int.ofNat (Nat.pow 2 127)) ≤ n) &&
    decide (n < Int.ofNat (Nat.pow 2 128))

def integer? (cs : List Char) : Option Int :=
  let number : Option Int := match cs with
    | '0' :: 'x' :: rest => (inBase 16 rest).map Int.ofNat
    | '0' :: 'o' :: rest => (inBase 8 rest).map Int.ofNat
    | '0' :: 'b' :: rest => (inBase 2 rest).map Int.ofNat
    | _ =>
      let (negative, rest) := Decimal.spanSign cs
      (wholeDigits? rest).map fun digits =>
        let n : Int := Decimal.ofDigits digits
        if negative then -n else n
  number.filter isRepresentable

/-- The exponent behind the mark `e`. -/
def exponent? (cs : List Char) : Option Int :=
  let (negative, rest) := Decimal.spanSign cs
  (digits? isDecimal rest).map fun digits =>
    let n : Int := Decimal.ofDigits digits
    if negative then -n else n

/-- A decimal with a fraction or an exponent, as its digits and the place of the
last one. -/
def decimal? (cs : List Char) : Option (Nat × Int) := do
  let isMark (c : Char) : Bool := c == 'e' || c == 'E'
  let (mantissa, tail) := cs.span fun c => !isMark c
  let (whole, point) := mantissa.span fun c => c != '.'
  let whole ← wholeDigits? whole
  let fraction ← match point with
    | '.' :: rest => digits? isDecimal rest
    | _ => some []
  let exponent ← match tail with
    | _ :: rest => exponent? rest
    | [] => some 0
  if point.isEmpty && tail.isEmpty then none
  else some (Decimal.ofDigits (whole ++ fraction), exponent - fraction.length)

/-- A floating point number.  A decimal beyond the largest one is not a
number. -/
def float? (cs : List Char) : Option Float :=
  let (negative, rest) := Decimal.spanSign cs
  if rest = ['i', 'n', 'f'] then
    some (if negative then -(1.0 / 0.0) else 1.0 / 0.0)
  else if rest = ['n', 'a', 'n'] then some (0.0 / 0.0)
  else do
    let (digits, place) ← decimal? rest
    let x := Decimal.nearest negative digits place
    if x.isFinite then some x else none

/-- A number of two digits. -/
def twoDigits? : List Char → Option Nat
  | [a, b] => if isDecimal a && isDecimal b then
      some (Decimal.ofDigits [a, b]) else none
  | _ => none

/-- The number of days of a month. -/
def daysOf (year month : Nat) : Nat :=
  if month = 2 then
    if year % 4 = 0 ∧ (year % 100 ≠ 0 ∨ year % 400 = 0) then 29 else 28
  else if month = 4 ∨ month = 6 ∨ month = 9 ∨ month = 11 then 30
  else 31

/-- Whether a text is a date of the calendar. -/
def isDate : List Char → Bool
  | [y1, y2, y3, y4, '-', m1, m2, '-', d1, d2] =>
    match twoDigits? [y1, y2], twoDigits? [y3, y4], twoDigits? [m1, m2],
        twoDigits? [d1, d2] with
    | some century, some years, some month, some day =>
      1 ≤ month && month ≤ 12 && 1 ≤ day &&
      day ≤ daysOf (100 * century + years) month
    | _, _, _, _ => false
  | _ => false

/-- Whether a text is a time of day up to its minutes. -/
def isClock : List Char → Bool
  | [h1, h2, ':', m1, m2] =>
    match twoDigits? [h1, h2], twoDigits? [m1, m2] with
    | some hour, some minute => hour < 24 && minute < 60
    | _, _ => false
  | _ => false

/-- The seconds of a time of day, left out of a text.  A leap second has the
number sixty. -/
def skipSeconds : List Char → Option (List Char)
  | ':' :: s1 :: s2 :: rest =>
    match twoDigits? [s1, s2] with
    | some second => if second ≤ 60 then some rest else none
    | none => none
  | _ => none

/-- A fraction of a second, left out of a text. -/
def skipFraction : List Char → Option (List Char)
  | '.' :: rest =>
    let (digits, rest) := Decimal.spanDigits rest
    if digits.isEmpty then none else some rest
  | cs => some cs

/-- Whether a text is the distance of a local time from the common one. -/
def isOffset : List Char → Bool
  | ['Z'] | ['z'] => true
  | [sign, h1, h2, ':', m1, m2] =>
    match twoDigits? [h1, h2], twoDigits? [m1, m2] with
    | some hour, some minute =>
      (sign == '+' || sign == '-') && hour < 24 && minute < 60
    | _, _ => false
  | _ => false

/-- Whether a text is a time of day, with an offset if that is allowed.  Its
seconds may be missing. -/
def isTime (offset : Bool) (cs : List Char) : Bool :=
  let behind := match cs.drop 5 with
    | ':' :: rest => (skipSeconds (':' :: rest)).bind skipFraction
    | rest => some rest
  isClock (cs.take 5) &&
    match behind with
    | some [] => true
    | some rest => offset && isOffset rest
    | none => false

/-- Whether a text is a date, a time of day, or both. -/
def isMoment (cs : List Char) : Bool :=
  if isDate (cs.take 10) then
    match cs.drop 10 with
    | [] => true
    | c :: rest => (c == 'T' || c == 't' || c == ' ') && isTime true rest
  else isTime false cs

def plainValue? (cs : List Char) : Option Value :=
  if cs = ['t', 'r', 'u', 'e'] then some (.boolean true)
  else if cs = ['f', 'a', 'l', 's', 'e'] then some (.boolean false)
  else if isMoment cs then some (.moment (String.ofList cs))
  else
    match integer? cs with
    | some n => some (.integer n)
    | none => (float? cs).map Value.float

/-- Whether a character may be part of a value without quotes. -/
def isPlainPart (c : Char) : Bool :=
  c.isAlphanum || c == '+' || c == '-' || c == '_' || c == '.' || c == ':'

/-- The run of characters at the front, and what follows it.  A date goes on
behind a space if a digit follows. -/
def spanPlain (cs : List Char) : List Char × List Char :=
  let (run, rest) := cs.span isPlainPart
  match rest with
  | ' ' :: c :: more =>
    if isDate run && isDecimal c then
      let (time, rest) := (c :: more).span isPlainPart
      (run ++ ' ' :: time, rest)
    else (run, rest)
  | _ => (run, rest)

end Toml
end NumericalMethods
