/-!
# Quoted text in TOML

A text in double quotes may hold escapes, a text in single quotes holds its
characters as they are.  Tripled quotes allow line breaks, which are kept as
they are; a line break right after the opening quotes does not count, and up to
two quotes may stand right in front of the closing ones.
-/

namespace NumericalMethods
namespace Toml

/-- Whether a character may stand unescaped on a line. -/
def isPlain (c : Char) : Bool :=
  c == '\t' || (0x20 ≤ c.toNat && c.toNat != 0x7F)

/-- What follows a line break. -/
def newline? : List Char → Option (List Char)
  | '\n' :: rest => some rest
  | '\r' :: '\n' :: rest => some rest
  | _ => none

def skipBlanks (cs : List Char) : List Char :=
  cs.dropWhile fun c => c == ' ' || c == '\t'

def hexValue? (c : Char) : Option Nat :=
  if '0' ≤ c && c ≤ '9' then some (c.toNat - '0'.toNat)
  else if 'a' ≤ c && c ≤ 'f' then some (c.toNat - 'a'.toNat + 10)
  else if 'A' ≤ c && c ≤ 'F' then some (c.toNat - 'A'.toNat + 10)
  else none

/-- The character with a code in hexadecimal digits. -/
def codePoint? (digits : List Char) : Option Char := do
  let values ← digits.mapM hexValue?
  let n := values.foldl (fun n d => 16 * n + d) 0
  if n.isValidChar then some (Char.ofNat n) else none

/-- The character a one-letter escape stands for. -/
def escape? : Char → Option Char
  | 'b' => some '\x08'
  | 't' => some '\t'
  | 'n' => some '\n'
  | 'f' => some '\x0c'
  | 'r' => some '\r'
  | 'e' => some '\x1b'
  | '"' => some '"'
  | '\\' => some '\\'
  | _ => none

/-- A reading with one more character in front. -/
def consChar (c : Char) : Option (List Char × List Char) →
    Option (List Char × List Char)
  | some (cs, rest) => some (c :: cs, rest)
  | none => none

/-- A reading with an escaped character in front. -/
def consEscaped (c : Option Char) (reading : Option (List Char × List Char)) :
    Option (List Char × List Char) :=
  c.bind fun c => consChar c reading

/-- The text up to a closing double quote. -/
def basicBody : List Char → Option (List Char × List Char)
  | [] => none
  | '"' :: rest => some ([], rest)
  | '\\' :: 'x' :: a :: b :: rest =>
    consEscaped (codePoint? [a, b]) (basicBody rest)
  | '\\' :: 'u' :: a :: b :: c :: d :: rest =>
    consEscaped (codePoint? [a, b, c, d]) (basicBody rest)
  | '\\' :: 'U' :: a :: b :: c :: d :: e :: f :: g :: h :: rest =>
    consEscaped (codePoint? [a, b, c, d, e, f, g, h]) (basicBody rest)
  | '\\' :: c :: rest => consEscaped (escape? c) (basicBody rest)
  | c :: rest => if isPlain c then consChar c (basicBody rest) else none

/-- The text up to a closing single quote. -/
def literalBody : List Char → Option (List Char × List Char)
  | [] => none
  | '\'' :: rest => some ([], rest)
  | c :: rest => if isPlain c then consChar c (literalBody rest) else none

/-- Up to two quotes that stand right in front of the closing ones. -/
def closingQuotes (quote : Char) : List Char → List Char × List Char
  | c :: d :: rest =>
    if c = quote && d = quote then ([c, d], rest)
    else if c = quote then ([c], d :: rest)
    else ([], c :: d :: rest)
  | [c] => if c = quote then ([c], []) else ([], [c])
  | [] => ([], [])

/-- Whether nothing but blanks is left on a line. -/
def isLineEnd (cs : List Char) : Bool :=
  (newline? (skipBlanks cs)).isSome

/-- The text up to three closing double quotes.  While `trimming`, blanks and
line breaks are left out. -/
def longBasicBody (trimming : Bool) : List Char → Option (List Char × List Char)
  | [] => none
  | '"' :: '"' :: '"' :: rest => some (closingQuotes '"' rest)
  | '\r' :: '\n' :: rest =>
    if trimming then longBasicBody true rest
    else consChar '\r' (consChar '\n' (longBasicBody false rest))
  | '\\' :: 'x' :: a :: b :: rest =>
    consEscaped (codePoint? [a, b]) (longBasicBody false rest)
  | '\\' :: 'u' :: a :: b :: c :: d :: rest =>
    consEscaped (codePoint? [a, b, c, d]) (longBasicBody false rest)
  | '\\' :: 'U' :: a :: b :: c :: d :: e :: f :: g :: h :: rest =>
    consEscaped (codePoint? [a, b, c, d, e, f, g, h]) (longBasicBody false rest)
  | '\\' :: c :: rest =>
    if isLineEnd (c :: rest) then longBasicBody true (c :: rest)
    else consEscaped (escape? c) (longBasicBody false rest)
  | c :: rest =>
    if trimming && (c == ' ' || c == '\t' || c == '\n') then
      longBasicBody true rest
    else if c == '\n' || isPlain c then consChar c (longBasicBody false rest)
    else none

/-- The text up to three closing single quotes. -/
def longLiteralBody : List Char → Option (List Char × List Char)
  | [] => none
  | '\'' :: '\'' :: '\'' :: rest => some (closingQuotes '\'' rest)
  | '\r' :: '\n' :: rest => consChar '\r' (consChar '\n' (longLiteralBody rest))
  | c :: rest =>
    if c == '\n' || isPlain c then consChar c (longLiteralBody rest) else none

/-- Leaves out a line break at the front. -/
def skipNewline (cs : List Char) : List Char :=
  (newline? cs).getD cs

/-- A reading as a text. -/
def asText : Option (List Char × List Char) → Option (String × List Char)
  | some (cs, rest) => some (String.ofList cs, rest)
  | none => none

/-- A text in single quotes of either kind, on one line. -/
def shortText? : List Char → Option (Option (String × List Char))
  | '"' :: rest => some (asText (basicBody rest))
  | '\'' :: rest => some (asText (literalBody rest))
  | _ => none

/-- A quoted text, if there is one at the front. -/
def text? : List Char → Option (Option (String × List Char))
  | '"' :: '"' :: '"' :: rest =>
    some (asText (longBasicBody false (skipNewline rest)))
  | '\'' :: '\'' :: '\'' :: rest =>
    some (asText (longLiteralBody (skipNewline rest)))
  | cs => shortText? cs

end Toml
end NumericalMethods
