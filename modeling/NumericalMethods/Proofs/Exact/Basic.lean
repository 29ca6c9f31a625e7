import Mathlib.Algebra.BigOperators.Group.Finset.Basic
import Mathlib.Algebra.BigOperators.Group.List.Lemmas
import Mathlib.Algebra.Order.Field.Basic
import Mathlib.Data.Rat.Cast.Order
import Mathlib.Tactic.NormNum.OfScientific
import Mathlib.Tactic.Ring
import NumericalMethods.Scalar

/-!
# Exact arithmetic

The scalars of an ordered field, on which sums, products, quotients and
comparisons have no rounding.  The field does not say what a square root is,
which scalars stand for infinity and for an undefined result, or how a scalar
becomes a machine count; `ExactArithmetic` leaves these open, so a theorem over
all of its instances depends on none of them.

Over such scalars the order of operations no longer matters: sums from the left
are sums of lists, and repeated squaring is the power.
-/

namespace NumericalMethods

/-- The operations of a scalar type which the laws of an ordered field do not
determine. -/
class ExactArithmetic (K : Type) where
  sqrt : K → K
  /-- The scalar that stands for infinity. -/
  infinity : K
  /-- The scalar that stands for an undefined result. -/
  undefined : K
  /-- The whole part as a machine count. -/
  whole : K → ℕ

variable {K : Type} [Field K] [LinearOrder K] [ExactArithmetic K]

/-- The elements of an ordered field as scalars.  All of them are finite. -/
instance ExactArithmetic.toScalar : Scalar K where
  decidableLT := inferInstance
  decidableLE := inferInstance
  ofNat n := n
  abs x := |x|
  sqrt := ExactArithmetic.sqrt
  larger := max
  smaller := min
  sameSign a b := decide (a < 0 ↔ b < 0)
  identical a b := decide (a = b)
  precedes a b := decide (a ≤ b)
  isFinite _ := true
  infinity := ExactArithmetic.infinity
  undefined := ExactArithmetic.undefined
  whole := ExactArithmetic.whole

-- Over a field the operations of the field come first.
attribute [instance (100)] Scalar.toZero Scalar.toOne Scalar.toAdd
  Scalar.toSub Scalar.toMul
  Scalar.toDiv Scalar.toNeg Scalar.toLT Scalar.toLE Scalar.toBEq
    Scalar.toOfScientific
  Scalar.decidableLT Scalar.decidableLE

namespace Scalar

@[simp]
theorem ofNat_eq_natCast (n : ℕ) : (ofNat n : K) = n := rfl

@[simp]
theorem abs_eq_abs (x : K) : Scalar.abs x = |x| := rfl

@[simp]
theorem larger_eq_max (a b : K) : larger a b = max a b := rfl

@[simp]
theorem smaller_eq_min (a b : K) : smaller a b = min a b := rfl

@[simp]
theorem identical_eq_decide (a b : K) : identical a b = decide (a = b) := rfl

@[simp]
theorem precedes_eq_decide (a b : K) : precedes a b = decide (a ≤ b) := rfl

@[simp]
theorem isFinite_eq_true (x : K) : isFinite x = true := rfl

@[simp]
theorem isPositiveFinite_eq_decide (x : K) :
    isPositiveFinite x = decide (0 < x) := by
  simp [isPositiveFinite]

/-! ## Sums, products and powers -/

@[simp]
theorem sum_eq_sum (xs : List K) : Scalar.sum xs = xs.sum := by
  rw [Scalar.sum, neg_zero, List.sum_eq_foldl]

@[simp]
theorem sumUpTo_eq_sum (f : ℕ → K) (n : ℕ) :
    sumUpTo f n = ∑ i ∈ Finset.range n, f i := by
  rw [sumUpTo, neg_zero]
  induction n with
  | zero => rfl
  | succ n ih => rw [Nat.fold_succ, ih, Finset.sum_range_succ]

@[simp]
theorem product_eq_prod (xs : List K) : Scalar.product xs = xs.prod := by
  rw [Scalar.product, List.prod_eq_foldl]

/-- Each squaring strips the lowest binary digit off the exponent. -/
theorem squaring_eq_mul_pow (acc a : K) (n : ℕ) :
    squaring acc a n = acc * a ^ n := by
  induction n using Nat.strong_induction_on generalizing acc a with
  | _ n ih =>
      rw [squaring]
      have hsplit : a ^ n = (a * a) ^ (n / 2) * a ^ (n % 2) := by
        rw [← pow_two, ← pow_mul, ← pow_add, Nat.div_add_mod]
      have hdigit : (if n % 2 = 1 then acc * a else acc) =
          acc * a ^ (n % 2) := by
        rcases Nat.mod_two_eq_zero_or_one n with h | h <;> simp [h]
      by_cases hlast : n / 2 = 0
      · simp [hdigit, hlast, hsplit]
      · have hlt : n / 2 < n := by omega
        simp only [hlast, if_false, ih _ hlt, hdigit, hsplit]
        ring

@[simp]
theorem power_eq_pow (a : K) (n : ℕ) : power a n = a ^ n := by
  rw [power, squaring_eq_mul_pow, one_mul]

/-! ## The Runge estimate -/

section Runge

variable [IsStrictOrderedRing K]

theorem rungeDivisor_eq (order : ℕ) :
    (rungeDivisor order : K) = 2 ^ order - 1 := by
  have htwo : (2.0 : K) = 2 := by norm_num
  rw [rungeDivisor, power_eq_pow, htwo]

/-- Where half of a step divides the error by a power of two, the estimate is
the error of the finer value. -/
theorem abs_sub_div_rungeDivisor
    {order : ℕ} (horder : order ≠ 0) {coarse fine : K}
    (herror : coarse = 2 ^ order * fine) :
    |coarse - fine| / rungeDivisor order = |fine| := by
  have hdivisor : (0 : K) < 2 ^ order - 1 :=
    sub_pos.mpr (one_lt_pow₀ one_lt_two horder)
  have hdifference : coarse - fine = fine * (2 ^ order - 1) := by
    rw [herror]
    ring
  rw [rungeDivisor_eq, hdifference, abs_mul, abs_of_pos hdivisor,
    mul_div_cancel_right₀ _ hdivisor.ne']

end Runge

/-! ## The largest entry -/

theorem le_maximum (first : K) (rest : List K) {x : K}
    (hx : x ∈ first :: rest) :
    x ≤ maximum first rest := by
  induction rest generalizing first x with
  | nil => exact (List.mem_singleton.mp hx).le
  | cons y rest ih =>
      rw [maximum, List.foldl_cons, ← maximum]
      rcases List.mem_cons.mp hx with rfl | hx
      · split
        · exact ih x List.mem_cons_self
        · rename_i hlarger
          exact (not_le.mp hlarger).le.trans (ih y List.mem_cons_self)
      · rcases List.mem_cons.mp hx with rfl | hx
        · split
          · rename_i hle
            exact hle.trans (ih first List.mem_cons_self)
          · exact ih x List.mem_cons_self
        · exact ih _ (List.mem_cons_of_mem _ hx)

theorem maximum_mem (first : K) (rest : List K) :
    maximum first rest ∈ first :: rest := by
  induction rest generalizing first with
  | nil => exact List.mem_singleton_self first
  | cons y rest ih =>
      rw [maximum, List.foldl_cons, ← maximum]
      rcases List.mem_cons.mp (ih (if y ≤ first then first else y)) with h | h
      · rw [h]
        split <;> simp
      · exact List.mem_cons_of_mem _ (List.mem_cons_of_mem _ h)

end Scalar
end NumericalMethods
