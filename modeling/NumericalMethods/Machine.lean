/-!
# Machine numbers

The bounds of the whole numbers a 64-bit machine can hold.  Arithmetic on counts
is that of a development build, which checks it: a sum or a product beyond the
machine words ends the computation.  A release build, which leaves the checks
out and wraps around, is not described here.
-/

namespace NumericalMethods
namespace Machine

/-- Counts lie below this bound. -/
def countBound : Nat :=
  Nat.pow 2 64

/-- Signed numbers lie below this bound, and not below its negative. -/
def signedBound : Nat :=
  Nat.pow 2 63

end Machine
end NumericalMethods
