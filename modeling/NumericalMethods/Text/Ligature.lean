/-!
# Letters that join

In a few scripts two letters take the columns of one: an Arabic lam and the alef
behind it, vowel signs of Kirat Rai, and pairs that a joiner ties.  A text is
read from its end, and `Ligature` names the letters at its front that may join
with what stands before them.
-/

namespace NumericalMethods
namespace Text

def isLam (c : Char) : Bool :=
  let n := c.toNat
  n = 0x644 || (0x6B5 ≤ n && n ≤ 0x6B8) || n = 0x76A || n = 0x8A6 || n = 0x8C7

def isAlef (c : Char) : Bool :=
  let n := c.toNat
  n = 0x622 || n = 0x623 || n = 0x625 || n = 0x627 ||
    (0x671 ≤ n && n ≤ 0x673) ||
    n = 0x675 || n = 0x773 || n = 0x774 || (0x870 ≤ n && n ≤ 0x882)

/-- Whether a character is a Khmer letter that may be written below another. -/
def isKhmerLetter (c : Char) : Bool :=
  let n := c.toNat
  0x1780 ≤ n && n ≤ 0x17AF &&
    !(n = 0x1783 || n = 0x1788 || n = 0x178D || n = 0x1794 || n = 0x1799 ||
      n = 0x179A ||
      n = 0x179E || n = 0x179F || n = 0x17A1 || (0x17A3 ≤ n && n ≤ 0x17A6) ||
      (0x17A8 ≤ n && n ≤ 0x17AA) || n = 0x17AD || n = 0x17AE)

/-- Whether a character is a consonant of Tifinagh. -/
def isTifinagh (c : Char) : Bool :=
  let n := c.toNat
  (0x2D31 ≤ n && n ≤ 0x2D65) || n = 0x2D6F

/-- Whether a character is a mark that is ignored where it has no effect. -/
def isIgnorableMark (c : Char) : Bool :=
  let n := c.toNat
  n = 0x34F || n = 0x17B4 || n = 0x17B5 || (0x180B ≤ n && n ≤ 0x180D) ||
    n = 0x180F ||
    (0xFE00 ≤ n && n ≤ 0xFE0F) || (0xE0100 ≤ n && n ≤ 0xE01EF)

/-- A letter at the front of a text that may join with what stands before it.
`joined` says that a joiner stands before it already. -/
inductive Ligature where
  /-- The Arabic letter alef. -/
  | alef
  /-- The Hebrew letter lamed. -/
  | lamed (joined : Bool)
  /-- A letter of Khmer. -/
  | khmer
  /-- The Buginese letter ya. -/
  | ya (joined : Bool)
  /-- The Buginese vowel sign i, joined to a letter ya. -/
  | vowelYa
  /-- A consonant of Tifinagh. -/
  | tifinagh (joined : Bool)
  /-- The visible joiner of Tifinagh before a consonant. -/
  | tifinaghJoiner
  /-- One of the last two tone letters of Lisu. -/
  | lisuTone
  /-- The Old Turkic letter i. -/
  | turkicI (joined : Bool)
  /-- The vowel sign e of Kirat Rai. -/
  | kiratE
  /-- The vowel sign ai of Kirat Rai. -/
  | kiratAi
  deriving Repr, DecidableEq

namespace Ligature

/-- The letter a character is. -/
def ofChar? (c : Char) : Option Ligature :=
  let n := c.toNat
  if isAlef c then some .alef
  else if n = 0x5DC then some (.lamed false)
  else if isKhmerLetter c then some .khmer
  else if n = 0x1A10 then some (.ya false)
  else if isTifinagh c then some (.tifinagh false)
  else if n = 0xA4FC || n = 0xA4FD then some .lisuTone
  else if n = 0x10C03 then some (.turkicI false)
  else if n = 0x16D67 then some .kiratE
  else if n = 0x16D68 then some .kiratAi
  else none

/-- Whether a variation selector may part the letters. -/
def admitsSelector : Ligature → Bool
  | .kiratE | .kiratAi => false
  | _ => true

/-- Whether joiners and ignorable marks may part the letters. -/
def admitsMarks : Ligature → Bool
  | .alef | .kiratE | .kiratAi => false
  | _ => true

/-- The letter with a joiner before it. -/
def join : Ligature → Ligature
  | .lamed _ => .lamed true
  | .ya _ => .ya true
  | .tifinagh _ => .tifinagh true
  | .turkicI _ => .turkicI true
  | l => l

/-- Puts a letter in front that joins: the columns the text grows by, and the
letter that may join in turn. -/
def joinLetter? (c : Char) : Ligature → Option (Int × Option Ligature)
  | .alef => if isLam c then some (0, none) else none
  | .lamed true => if c.toNat = 0x5D0 then some (0, none) else none
  | .khmer => if c.toNat = 0x17D2 then some (-1, none) else none
  | .ya true => if c.toNat = 0x1A17 then some (0, some .vowelYa) else none
  | .vowelYa => if c.toNat = 0x1A15 then some (0, none) else none
  | .tifinagh joined =>
    if c.toNat = 0x2D7F then some (1, some .tifinaghJoiner)
    else if joined && isTifinagh c then some (0, none)
    else none
  | .tifinaghJoiner => if isTifinagh c then some (-1, none) else none
  | .lisuTone => if 0xA4F8 ≤ c.toNat && c.toNat ≤ 0xA4FB then
      some (0, none) else none
  | .turkicI true => if c.toNat = 0x10C32 then some (0, none) else none
  | .kiratE =>
    if c.toNat = 0x16D63 || c.toNat = 0x16D69 then some (0, none)
    else if c.toNat = 0x16D67 then some (0, some .kiratAi)
    else if c.toNat = 0x16D68 then some (1, some .kiratE)
    else none
  | .kiratAi => if c.toNat = 0x16D63 then some (0, none) else none
  | _ => none

/-- Puts a character in front that joins or does not keep others from joining;
`transparent` says that letters join across it. -/
def precede? (transparent : Bool) (c : Char) (l : Ligature) :
    Option (Int × Option Ligature) :=
  if l.admitsMarks && c = '\u200D' then some (0, some l.join)
  else if l.admitsMarks && isIgnorableMark c then some (0, some l)
  else if l = .alef && transparent then some (0, some l)
  else joinLetter? c l

end Ligature

end Text
end NumericalMethods
