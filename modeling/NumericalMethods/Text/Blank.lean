/-!
# Blank characters, words and lines

White space is the Unicode property of that name.  Words are the longest runs
of other characters; the content lines of a text are its lines without the
blanks around them, and without the lines that hold nothing else.
-/

namespace NumericalMethods
namespace Text

/-- The characters with the Unicode property White_Space. -/
def isBlank (c : Char) : Bool :=
  let n := c.toNat
  (9 ≤ n && n ≤ 13) || n == 0x20 || n == 0x85 || n == 0xA0 || n == 0x1680 ||
    (0x2000 ≤ n && n ≤ 0x200A) || n == 0x2028 || n == 0x2029 || n == 0x202F ||
    n == 0x205F || n == 0x3000

/-- The text without the blanks at both ends. -/
def trim (cs : List Char) : List Char :=
  ((cs.dropWhile isBlank).reverse.dropWhile isBlank).reverse

def words (cs : List Char) : List (List Char) :=
  (cs.splitOnP isBlank).filter (!·.isEmpty)

/-- The trimmed lines that hold more than blanks. -/
def contentLines (cs : List Char) : List (List Char) :=
  ((cs.splitOn '\n').map trim).filter (!·.isEmpty)

end Text
end NumericalMethods
