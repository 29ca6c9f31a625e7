import NumericalMethods.Toml.Plain
import NumericalMethods.Toml.Quoted

/-!
# Reading TOML documents

A document is a list of lines, each with a key and its value, a header, or
nothing; comments end lines.  Values in brackets and braces nest, so reading
them carries a bound on the number of characters left, and the number of
brackets and braces that may still be opened.
-/

namespace NumericalMethods
namespace Toml

/-- How deep values may nest, and how many parts a key may have. -/
def depthLimit : Nat :=
  80

def skipComment : List Char → List Char
  | '#' :: rest => rest.dropWhile isPlain
  | cs => cs

/-- Skips blanks, comments and line breaks, at most `bound` of the latter. -/
def skipLayout : (bound : Nat) → List Char → List Char
  | 0, cs => cs
  | bound + 1, cs =>
    let cs := skipComment (skipBlanks cs)
    match newline? cs with
    | some rest => skipLayout bound rest
    | none => cs

/-- Whether a character may be part of a key without quotes. -/
def isKeyPart (c : Char) : Bool :=
  c.isAlphanum || c == '_' || c == '-'

/-- One part of a key. -/
def keyPart (cs : List Char) : Option (String × List Char) :=
  match shortText? cs with
  | some reading => reading
  | none =>
    let (name, rest) := cs.span isKeyPart
    if name.isEmpty then none else some (String.ofList name, rest)

/-- A key of at most `bound` parts divided by dots, and the blanks behind it. -/
def key : (bound : Nat) → List Char → Option (List String × List Char)
  | 0, _ => none
  | bound + 1, cs => do
    let (part, rest) ← keyPart (skipBlanks cs)
    match skipBlanks rest with
    | '.' :: rest =>
      let (parts, rest) ← key bound rest
      return (part :: parts, rest)
    | rest => return ([part], rest)

mutual

/-- A value that opens at most `room` brackets and braces within one another. -/
def value (room : Nat) : (bound : Nat) → List Char → Option (Value × List Char)
  | 0, _ => none
  | bound + 1, cs =>
    match text? cs with
    | some reading => reading.map fun (s, rest) => (.text s, rest)
    | none =>
      match room, cs with
      | room + 1, '[' :: rest =>
        (items room bound rest).map fun (vs, rest) => (.array vs, rest)
      | room + 1, '\x7b' :: rest =>
        (fields room bound [] rest).map fun (es, rest) =>
          (.table .braces es, rest)
      | _, _ =>
        let (run, rest) := spanPlain cs
        (plainValue? run).map fun v => (v, rest)

/-- The items of a list up to its closing bracket. -/
def items (room : Nat) : (bound : Nat) → List Char →
    Option (List Value × List Char)
  | 0, _ => none
  | bound + 1, cs =>
    match skipLayout (bound + 1) cs with
    | ']' :: rest => some ([], rest)
    | cs => do
      let (v, rest) ← value room bound cs
      match skipLayout (bound + 1) rest with
      | ']' :: rest => return ([v], rest)
      | ',' :: rest =>
        let (vs, rest) ← items room bound rest
        return (v :: vs, rest)
      | _ => none

/-- The entries of a table up to its closing brace, behind those read so far. -/
def fields (room : Nat) : (bound : Nat) → Entries → List Char →
    Option (Entries × List Char)
  | 0, _, _ => none
  | bound + 1, entries, cs =>
    match skipLayout (bound + 1) cs with
    | '\x7d' :: rest => some (entries, rest)
    | cs => do
      let (keys, v, rest) ← keyValue room bound cs
      let entries ← entries.assign v keys true
      match skipLayout (bound + 1) rest with
      | '\x7d' :: rest => return (entries, rest)
      | ',' :: rest => fields room bound entries rest
      | _ => none

/-- A key and its value. -/
def keyValue (room : Nat) : (bound : Nat) → List Char →
    Option (List String × Value × List Char)
  | 0, _ => none
  | bound + 1, cs => do
    let (keys, rest) ← key depthLimit cs
    match rest with
    | '=' :: rest =>
      let (v, rest) ← value room bound (skipBlanks rest)
      return (keys, v, rest)
    | _ => none

end

/-- A line without its blanks at the front: nothing, a header, or a key with its
value. -/
def statement (bound : Nat) : List Char → Option (Option Statement × List Char)
  | '[' :: '[' :: rest => do
    match ← key depthLimit rest with
    | (keys, ']' :: ']' :: rest) => return (some (.openRow keys), rest)
    | _ => none
  | '[' :: rest => do
    match ← key depthLimit rest with
    | (keys, ']' :: rest) => return (some (.openTable keys), rest)
    | _ => none
  | cs =>
    if cs.isEmpty || cs.head? = some '#' || (newline? cs).isSome then
      some (none, cs)
    else (keyValue depthLimit bound cs).map fun (keys, v, rest) =>
      (some (.assign keys v), rest)

/-- The statements of at most `bound` lines. -/
def statements (length : Nat) :
    (bound : Nat) → List Char → Option (List Statement)
  | 0, _ => none
  | bound + 1, cs => do
    let (found, rest) ← statement length (skipBlanks cs)
    let rest := skipComment (skipBlanks rest)
    let more ← match rest, newline? rest with
      | [], _ => some []
      | _, some rest => statements length bound rest
      | _, none => none
    return found.toList ++ more

/-- The entries of a document.  A mark of the byte order at its front does not
count. -/
def read? (document : String) : Option Entries :=
  let cs := match document.toList with
    | '\uFEFF' :: rest => rest
    | cs => cs
  let bound := 2 * cs.length + 2
  do
    let found ← statements bound bound cs
    assemble found [] []

end Toml
end NumericalMethods
