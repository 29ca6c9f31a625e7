import NumericalMethods.Text.Emoji
import NumericalMethods.Text.Ligature
import NumericalMethods.Text.Ranges
import NumericalMethods.Text.Width.Table

/-!
# Display width

Columns a line takes in a fixed-width display.  A character on its own takes
none if it combines with the one before it, two if it is wide, and one
otherwise; a few characters that form one picture or one letter take fewer
columns together than apart, or more.  What a character adds thus depends on
what stands behind it, and a line is measured from its end.
-/

namespace NumericalMethods
namespace Text

/-- The columns a character takes on its own.  Two letters of Khmer stand for
several others and take their columns. -/
def charWidth (c : Char) : Nat :=
  if c.toNat ≤ 0xA0 then 1
  else if inRanges zeroWidthRanges c then 0
  else if c.toNat = 0x17D8 then 3
  else if c.toNat = 0x17A4 || inRanges wideRanges c then 2
  else 1

/-- Whether letters join across a character. -/
def isTransparent (c : Char) : Bool :=
  charWidth c = 0 && !inRanges opaqueRanges c

/-- Whether a character is a curved quotation mark. -/
def isQuote (c : Char) : Bool :=
  c.toNat = 0x2018 || c.toNat = 0x2019 || c.toNat = 0x201C || c.toNat = 0x201D

/-- A request for the form of the character before it. -/
inductive Selector where
  /-- For a text character. -/
  | narrow
  /-- For a picture. -/
  | picture
  /-- For a quotation mark of full width. -/
  | wide
  deriving Repr, DecidableEq

/-- The request a character makes. -/
def Selector.ofChar? (c : Char) : Option Selector :=
  if c.toNat = 0xFE0E then some .narrow
  else if c.toNat = 0xFE0F then some .picture
  else if c.toNat = 0xFE01 then some .wide
  else none

/-- What a text begins with, as far as the columns of the character before it
depend on it. -/
inductive Front where
  /-- Nothing that matters. -/
  | plain
  /-- An emoji or a part of one. -/
  | emoji (tail : EmojiTail)
  /-- A letter that may join. -/
  | letter (ligature : Ligature)
  deriving Repr, DecidableEq

namespace Front

/-- What a text begins with that begins with a character. -/
def ofChar (c : Char) : Front :=
  match EmojiTail.ofChar? c, Ligature.ofChar? c with
  | some tail, _ => .emoji tail
  | none, some ligature => .letter ligature
  | none, none => .plain

/-- Puts a character in front that is not on its own there. -/
def precede? (c : Char) : Front → Option (Int × Front)
  | .plain => none
  | .emoji tail => (tail.precede? c).map fun (n, tail) => (n, .emoji tail)
  | .letter ligature =>
    (ligature.precede? (isTransparent c) c).map fun (n, ligature) =>
      (n, (ligature.map Front.letter).getD .plain)

/-- What remains of a text behind a selector for the characters before it. -/
def behind (selector : Selector) (front : Front) : Front :=
  match front with
  | .plain => .plain
  | .emoji tail => if selector = .picture && tail.chains then front else .plain
  | .letter ligature => if ligature.admitsSelector then front else .plain

end Front

/-- A text as seen from the character before it: a selector it begins with, and
what follows it. -/
structure Prospect where
  /-- The selector at its front. -/
  selector : Option Selector
  /-- What it begins with otherwise. -/
  front : Front
  deriving Repr, DecidableEq

namespace Prospect

/-- A text that does not matter for the characters before it. -/
def plain : Prospect :=
  ⟨none, .plain⟩

/-- The columns of a character that obeys the selector behind it, and whether it
is a picture then. -/
def obey? (c : Char) (text : Prospect) : Option (Int × Front) :=
  match text.selector with
  | some .picture =>
    if !hasPictureStyle c then none
    else match text.front with
      | .emoji _ => some (0, .emoji .picture)
      | _ => some (2, .emoji .picture)
  | some .narrow => if hasNarrowStyle c then some (1, .plain) else none
  | some .wide => if isQuote c then some (2, .plain) else none
  | none => none

/-- What is behind a selector that was not obeyed: no chain of pictures. -/
def unheeded (text : Prospect) : Front :=
  match text.selector, text.front with
  | some _, .emoji _ => .plain
  | _, front => front

/-- Puts a character in front: the columns that the text grows by, and the text
as seen from the next character. -/
def precede (c : Char) (text : Prospect) : Int × Prospect :=
  match text.obey? c with
  | some (n, front) => (n, ⟨none, front⟩)
  | none =>
    let front := text.unheeded
    match Selector.ofChar? c with
    | some selector => (0, ⟨some selector, front.behind selector⟩)
    | none =>
      if c.toNat ≤ 0xA0 then (1, plain)
      else match front.precede? c with
        | some (n, front) => (n, ⟨none, front⟩)
        | none => (charWidth c, ⟨none, Front.ofChar c⟩)

end Prospect

/-- The columns a line takes. -/
def width (cs : List Char) : Nat :=
  let (columns, _) := cs.foldr
    (fun c (columns, text) =>
      let (n, text) := text.precede c
      (columns + n, text))
    ((0 : Int), Prospect.plain)
  columns.toNat

end Text
end NumericalMethods
