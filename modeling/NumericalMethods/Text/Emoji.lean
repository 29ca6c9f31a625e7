import NumericalMethods.Text.Emoji.Table
import NumericalMethods.Text.Ranges

/-!
# Emoji

An emoji is shown either as a picture or as a text character.  Which of the two
it is without a request lies in the character; a variation selector behind it
asks for one of them, if the character has both styles.

Several characters may form one picture: an emoji and a skin colour, two letters
of a flag, and emoji chained by joiners.  A chain takes the columns of its last
picture, so a text is read from its end, and `EmojiTail` says what such a chain
looks like from its front.
-/

namespace NumericalMethods
namespace Text

/-- Whether a character becomes a picture on request. -/
def hasPictureStyle (c : Char) : Bool :=
  inRanges textStyleRanges c || inRanges twoStyleRanges c

/-- Whether a picture becomes a text character of one column on request.  The
squared ideographs stay wide. -/
def hasNarrowStyle (c : Char) : Bool :=
  inRanges twoStyleRanges c && !(0x1F200 ≤ c.toNat && c.toNat ≤ 0x1F2FF)

/-- Whether a character is a picture without a request. -/
def isPicture (c : Char) : Bool :=
  inRanges pictureRanges c

/-- Whether a skin colour may follow a character. -/
def isModifierBase (c : Char) : Bool :=
  inRanges modifierBaseRanges c

def isModifier (c : Char) : Bool :=
  0x1F3FB ≤ c.toNat && c.toNat ≤ 0x1F3FF

/-- Whether a character is one of the letters that form a flag in pairs. -/
def isIndicator (c : Char) : Bool :=
  0x1F1E6 ≤ c.toNat && c.toNat ≤ 0x1F1FF

/-- Whether a character is an invisible letter in the name of a flag. -/
def isTagLetter (c : Char) : Bool :=
  0xE0061 ≤ c.toNat && c.toNat ≤ 0xE007A

/-- Whether a character is an invisible digit in the name of a flag. -/
def isTagDigit (c : Char) : Bool :=
  0xE0030 ≤ c.toNat && c.toNat ≤ 0xE0039

/-- The front of a text that begins with an emoji or a part of one. -/
inductive EmojiTail where
  /-- A skin colour. -/
  | modifier
  /-- One letter of a flag. -/
  | indicator
  /-- Several letters of flags. -/
  | indicators
  /-- A picture. -/
  | picture
  /-- A joiner in front of a picture. -/
  | joined
  /-- A frame for a key, joined to a picture. -/
  | joinedKeycap
  /-- One letter of a flag, joined to a picture. -/
  | joinedIndicator
  /-- Several letters of flags, joined to a picture, and whether they come in
  pairs. -/
  | joinedIndicators (even : Bool)
  /-- The end of the name of a flag, joined to a picture: its letters so far,
  and the digits in front of them. -/
  | joinedTags (letters digits : Nat)
  deriving Repr, DecidableEq

namespace EmojiTail

/-- What a text begins with that begins with a character. -/
def ofChar? (c : Char) : Option EmojiTail :=
  if isModifier c then some .modifier
  else if isIndicator c then some .indicator
  else if isPicture c then some .picture
  else none

/-- Whether a picture in front would be chained to the next one. -/
def chains : EmojiTail → Bool
  | .joined | .joinedKeycap => true
  | _ => false

/-- Joins a picture to what is in front of a joiner. -/
def join? (c : Char) : Option (Int × EmojiTail) :=
  if c = '\u200D' then some (0, .joined) else none

/-- Puts a character of the name of a flag in front.  A name has three to six
letters, or three digits and up to four letters, and a black flag before it. -/
def tag? (letters digits : Nat) (c : Char) : Option (Int × EmojiTail) :=
  if isTagLetter c && digits = 0 && letters < 6 then
    some (0, .joinedTags (letters + 1) 0)
  else if isTagDigit c && digits < 3 && (0 < digits || letters ≤ 4) then
    some (0, .joinedTags letters (digits + 1))
  else if c.toNat = 0x1F3F4 && (digits = 3 || digits = 0 && 3 ≤ letters) then
    some (0, .picture)
  else none

/-- Puts a character in front that forms one picture with what follows: the
columns that the text grows by, and its new front. -/
def precede? (c : Char) : EmojiTail → Option (Int × EmojiTail)
  | .modifier => if isModifierBase c then some (0, .picture) else join? c
  | .indicator => if isIndicator c then some (1, .indicators) else none
  | .indicators => if isIndicator c then some (1, .indicators) else join? c
  | .picture => join? c
  | .joined =>
    if c.toNat = 0x20E3 then some (0, .joinedKeycap)
    else if isIndicator c then some (1, .joinedIndicator)
    else if isModifier c then some (0, .modifier)
    else if c.toNat = 0xE007F then some (0, .joinedTags 0 0)
    else if isPicture c then some (0, .picture)
    else none
  | .joinedKeycap => none
  | .joinedIndicator =>
    if isIndicator c then some (-1, .joinedIndicators true) else none
  | .joinedIndicators even =>
    if isIndicator c then
      some (if even then 3 else -1, .joinedIndicators (!even))
    else join? c
  | .joinedTags letters digits => tag? letters digits c

end EmojiTail

end Text
end NumericalMethods
