/-!
# Tables of characters

A table of characters lists the first and the last character of each of its
ranges.
-/

namespace NumericalMethods
namespace Text

/-- Whether a character lies in one of the ranges of a table. -/
def inRanges (table : Array (Nat × Nat)) (c : Char) : Bool :=
  table.any fun (first, last) => first ≤ c.toNat && c.toNat ≤ last

end Text
end NumericalMethods
