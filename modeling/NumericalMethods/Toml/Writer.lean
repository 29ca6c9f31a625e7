import NumericalMethods.Decimal.Layout
import NumericalMethods.Machine

/-!
# Writing TOML values

A text is written in the kind of quotes that needs no escapes where there is
one, and with escapes otherwise, over several lines if it has line breaks.
Whole numbers are written as signed machine numbers, and larger ones cannot
be written.
-/

namespace NumericalMethods
namespace Toml

/-- The length of the longest run of a character. -/
def longestRun (c : Char) (cs : List Char) : Nat :=
  (cs.foldl
    (fun (longest, current) d =>
      let current := if d = c then current + 1 else 0
      (max longest current, current))
    (0, 0)).1

/-- Whether a character cannot stand in a text without escapes, not even in
tripled quotes. -/
def isControl (c : Char) : Bool :=
  (c.toNat < 0x20 || c.toNat == 0x7F) && c != '\t' && c != '\n'

def hexDigit (n : Nat) : Char :=
  (Nat.digitChar n).toUpper

/-- A character between double quotes, tripled ones if `long`. -/
def escaped (long : Bool) (c : Char) : List Char :=
  if c = '\x08' then ['\\', 'b']
  else if c = '\t' then ['\\', 't']
  else if c = '\n' then if long then [c] else ['\\', 'n']
  else if c = '\x0c' then ['\\', 'f']
  else if c = '\r' then ['\\', 'r']
  else if c = '\\' then ['\\', '\\']
  else if c = '"' then ['\\', '"']
  else if isControl c then
    ['\\', 'u', '0', '0', hexDigit (c.toNat / 16), hexDigit (c.toNat % 16)]
  else [c]

/-- The characters of a text between double quotes. -/
def basicChars (cs : List Char) : List Char :=
  cs.flatMap (escaped false)

/-- The characters of a text between tripled double quotes, `run` of which stand
right in front of it unescaped.  Two of them in a row are no closing quotes, so
only a third one is escaped. -/
def longBasicChars (run : Nat) : List Char → List Char
  | [] => []
  | c :: rest =>
    if c = '"' && run < 2 then c :: longBasicChars (run + 1) rest
    else escaped true c ++ longBasicChars 0 rest

/-- A text between quotes. -/
def between (quotes : String) (body : List Char) : String :=
  quotes ++ String.ofList body ++ quotes

/-- A text between tripled quotes; a line break in it puts one behind the
opening ones. -/
def betweenLong (quotes : String) (body : List Char) : String :=
  quotes ++ (if '\n' ∈ body then "\n" else "") ++ String.ofList body ++ quotes

/-- The text of a text: on one line and without escapes where that is possible,
in tripled quotes without escapes otherwise, and with escapes only if there is
no other way. -/
def quote (s : String) : String :=
  let cs := s.toList
  let control := cs.any isControl
  let backslash := decide ('\\' ∈ cs)
  let newline := decide ('\n' ∈ cs)
  let doubles := longestRun '"' cs
  let singles := longestRun '\x27' cs
  let basic := between "\"" (basicChars cs)
  let longBasic := betweenLong "\"\"\"" (longBasicChars 0 cs)
  if !control && !backslash && doubles == 0 && !newline then basic
  else if !control && singles == 0 && !newline then between "\x27" cs
  else if !control && !backslash && doubles ≤ 2 then longBasic
  else if !control && singles ≤ 2 then betweenLong "\x27\x27\x27" cs
  else if newline then longBasic
  else basic

def float (x : Float) : String :=
  Decimal.Layout.document.render x

def boolean (b : Bool) : String :=
  if b then "true" else "false"

/-- The text of a whole number, unless it is beyond the signed machine
numbers. -/
def integer (n : Int) : Option String :=
  if -(Machine.signedBound : Int) ≤ n ∧ n < Machine.signedBound then
    some (toString n)
  else none

end Toml
end NumericalMethods
