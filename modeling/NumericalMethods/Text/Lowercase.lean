import NumericalMethods.Text.Lowercase.Table
import NumericalMethods.Text.Ranges

/-!
# Lower-case text

The full lower-case mapping of a text.  Each letter is mapped on its own, except
that a capital sigma at the end of a word becomes a final sigma, and a capital
I with a dot keeps its dot as a combining mark.
-/

namespace NumericalMethods
namespace Text

/-- Whether a character has the property Cased. -/
def isCased (c : Char) : Bool :=
  inRanges casedRanges c

/-- Whether a character has the property Case_Ignorable. -/
def isCaseIgnorable (c : Char) : Bool :=
  inRanges caseIgnorableRanges c

/-- The lower-case form of a single character that has a one-character form. -/
def lowercaseChar (c : Char) : Char :=
  let n := c.toNat
  let run := lowercaseRuns.find? fun (first, last, stride, _) =>
    first ≤ n && n ≤ last && (n - first) % stride == 0
  match run with
  | some (_, _, _, shift) => Char.ofNat (n + shift).toNat
  | none => c

/-- Whether the first character that is not case-ignorable is cased. -/
def reachesCased (cs : List Char) : Bool :=
  match cs.dropWhile isCaseIgnorable with
  | c :: _ => isCased c
  | [] => false

/-- The lower-case form of a text, `before` being what precedes it, reversed. -/
def lowercaseAfter (before : List Char) : List Char → List Char
  | [] => []
  | c :: rest =>
    let form :=
      if c = 'Σ' then
        [if reachesCased before && !reachesCased rest then 'ς' else 'σ']
      else if c = 'İ' then ['i', Char.ofNat 0x307]
      else [lowercaseChar c]
    form ++ lowercaseAfter (c :: before) rest

/-- The lower-case form of a text. -/
def lowercase (s : String) : String :=
  String.ofList (lowercaseAfter [] s.toList)

end Text
end NumericalMethods
