import NumericalMethods.Scalar

/-!
# Binary floating point scalars

The 64-bit binary format as a type of scalars.  Comparison follows the
arithmetic order, in which both zeros are equal and nothing compares with an
undefined value.  Sorting follows the order of the bit patterns instead, which
is total and puts negative zero before positive zero.
-/

namespace NumericalMethods
namespace Binary64

def isNegative (x : Float) : Bool :=
  decide (0x8000000000000000 ≤ x.toBits)

/-- Position in the total order of bit patterns: negative numbers descend with
their pattern, the others ascend above them. -/
def orderKey (x : Float) : UInt64 :=
  if isNegative x then ~~~x.toBits else x.toBits ^^^ 0x8000000000000000

/-- The larger of two numbers, preferring a defined one, and the first on
a tie. -/
def larger (a b : Float) : Float :=
  if a.isNaN then b else if a < b then b else a

/-- The smaller of two numbers, preferring a defined one, and the first on
a tie. -/
def smaller (a b : Float) : Float :=
  if a.isNaN then b else if b < a then b else a

end Binary64

instance : Scalar Float where
  zero := 0
  one := 1
  decidableLT := fun _ _ => inferInstance
  decidableLE := fun _ _ => inferInstance
  ofNat := Float.ofNat
  abs := Float.abs
  sqrt := Float.sqrt
  larger := Binary64.larger
  smaller := Binary64.smaller
  sameSign a b :=
    !a.isNaN && !b.isNaN && Binary64.isNegative a == Binary64.isNegative b
  identical a b := a.toBits == b.toBits
  precedes a b := decide (Binary64.orderKey a ≤ Binary64.orderKey b)
  isFinite := Float.isFinite
  infinity := 1.0 / 0.0
  undefined := 0.0 / 0.0
  whole x := x.toUInt64.toNat

instance : Elementary Float where
  exp := Float.exp
  ln := Float.log
  sin := Float.sin
  cos := Float.cos
  tan := Float.tan
  pow := Float.pow
  pi := 3.141592653589793

end NumericalMethods
