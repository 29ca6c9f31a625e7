import NumericalMethods.Proofs.Binary64.ErrorBounds
import NumericalMethods.Proofs.Binary64.Sorting

/-!
# The two zeros

Zero is stored with either sign, and these are the only finite numbers with
the same value.  Sums and products of zeros are zeros again, and so are all
their powers.
-/

namespace NumericalMethods
namespace Binary64

open Float.Model Float.Model.UnpackedFloat

/-- One of the two zeros. -/
structure IsZero (x : Float) : Prop where
  isFinite : x.isFinite = true
  value_eq : value x = 0

variable {x y : Float}

theorem isZero_neg_zero : IsZero (-0) :=
  ⟨rfl, rfl⟩

theorem IsZero.eq_or_eq (hx : IsZero x) : x = 0 ∨ x = -0 := by
  have hrepresents := represents_value hx.isFinite
  rw [hx.value_eq] at hrepresents
  cases hunpack : x.toModel.unpack with
  | notANumber => rw [hunpack] at hrepresents; cases hrepresents
  | infinity s => rw [hunpack] at hrepresents; cases hrepresents
  | zero s =>
      cases s with
      | positive => exact .inl (eq_of_unpack_eq hunpack)
      | negative => exact .inr (eq_of_unpack_eq hunpack)
  | finite s m e hm =>
      have hvalue := value_of_unpack_eq hunpack
      have hpos := (canonical_of_unpack_eq hunpack).1.value_pos
      rw [hx.value_eq, eq_comm, mul_eq_zero] at hvalue
      rcases hvalue with h | h
      · cases s <;> norm_num [signFactor] at h
      · exact absurd h hpos.ne'

/-- The zeros are the only numbers that share their value. -/
theorem eq_or_isZero_of_value_eq (hx : x.isFinite = true)
    (hy : y.isFinite = true) (h : value x = value y) :
    x = y ∨ IsZero x ∧ IsZero y := by
  by_cases hzero : value x = 0
  · exact .inr ⟨⟨hx, hzero⟩, hy, h ▸ hzero⟩
  · exact .inl (eq_of_value_eq hx hy h hzero)

/-- The zeros have one place in the order. -/
theorem IsZero.lt_iff (hx : IsZero x) : x < y ↔ 0 < y := by
  rcases hx.eq_or_eq with rfl | rfl
  · rfl
  · rw [lt_iff_compare, lt_iff_compare]
    exact Eq.congr_left (compare_zero .negative .positive _)

theorem beq_zero_iff (hx : x.isFinite = true) : (x == 0) = true ↔ IsZero x := by
  rw [beq_iff_value_eq hx rfl, value_zero]
  exact ⟨fun h => ⟨hx, h⟩, fun h => h.value_eq⟩

/-! ## Operations -/

/-- What is rounded from zero is zero. -/
theorem Rounds.isZero {z : Float} (h : Rounds z 0) : IsZero z := by
  have hfinite : z.isFinite = true := by
    rw [h.isFinite_iff, nearest_zero, abs_zero]
    positivity
  refine ⟨hfinite, ?_⟩
  rw [h.value_eq hfinite, nearest_zero]

theorem IsZero.add (hx : IsZero x) (hy : IsZero y) : IsZero (x + y) := by
  have h := rounds_add hx.isFinite hy.isFinite
  rw [hx.value_eq, hy.value_eq, add_zero] at h
  exact h.isZero

theorem IsZero.mul_left (hx : IsZero x) (hy : y.isFinite = true) :
    IsZero (x * y) := by
  have h := rounds_mul hx.isFinite hy
  rw [hx.value_eq, zero_mul] at h
  exact h.isZero

theorem IsZero.mul_right (hx : x.isFinite = true) (hy : IsZero y) :
    IsZero (x * y) := by
  have h := rounds_mul hx hy.isFinite
  rw [hy.value_eq, mul_zero] at h
  exact h.isZero

theorem IsZero.squaring {acc a : Float} (hacc : acc.isFinite = true)
    (ha : IsZero a) {n : ℕ} (hn : n ≠ 0) :
    IsZero (Scalar.squaring acc a n) := by
  induction n using Nat.strong_induction_on generalizing acc a with
  | _ n ih =>
      rw [Scalar.squaring]
      by_cases hlast : n / 2 = 0
      · obtain rfl : n = 1 := by omega
        exact .mul_right hacc ha
      · simp only [hlast, if_false]
        refine ih (n / 2) (by omega) ?_ (ha.mul_left ha.isFinite) hlast
        split
        · exact (IsZero.mul_right hacc ha).isFinite
        · exact hacc

theorem IsZero.power {a : Float} (ha : IsZero a) {n : ℕ} (hn : n ≠ 0) :
    IsZero (Scalar.power a n) :=
  .squaring rfl ha hn

theorem isZero_foldl_add {xs : List Float} (hxs : ∀ x ∈ xs, IsZero x)
    {acc : Float} (hacc : IsZero acc) : IsZero (xs.foldl (· + ·) acc) := by
  induction xs generalizing acc with
  | nil => exact hacc
  | cons x xs ih =>
      rw [List.forall_mem_cons] at hxs
      exact ih hxs.2 (hacc.add hxs.1)

theorem isZero_sum {xs : List Float} (hxs : ∀ x ∈ xs, IsZero x) :
    IsZero (Scalar.sum xs) :=
  isZero_foldl_add hxs isZero_neg_zero

/-! ## Counting by ones -/

/-- From here on a sum does not grow by ones any more. -/
theorem nearest_two_pow_add_one : nearest (2 ^ 53 + 1) = 2 ^ 53 := by
  have hstep : stepExponent (2 ^ 53 + 1) = 1 :=
    stepExponent_eq_of_lt (by norm_num) (by decide) (by norm_num)
      (.inr (by norm_num))
  have hhalf : halfEven ((2 ^ 53 + 1) / 2 ^ (1 : ℤ)) = 2 ^ 52 := by
    apply halfEven_eq
    · norm_num
    · intro _
      decide
  rw [nearest, hstep, hhalf]
  norm_num

/-- A number that a sum of ones passes through. -/
structure IsCount (x : Float) : Prop where
  isFinite : x.isFinite = true
  nonneg : 0 ≤ value x
  le_bound : value x ≤ 2 ^ 53

theorem IsZero.isCount (hx : IsZero x) : IsCount x := by
  refine ⟨hx.isFinite, hx.value_eq.ge, ?_⟩
  rw [hx.value_eq]
  positivity

theorem IsCount.add_one (hx : IsCount x) :
    IsCount (x + 1) ∧ 1 ≤ value (x + 1) := by
  have hrounds := rounds_add hx.isFinite (y := 1) rfl
  rw [value_one] at hrounds
  have hone : nearest 1 = 1 := by
    exact_mod_cast nearest_natCast_of_lt (n := 1) (by decide)
  have hlower : 1 ≤ nearest (value x + 1) :=
    hone.symm.trans_le (nearest_mono (by linarith [hx.nonneg]))
  have hupper : nearest (value x + 1) ≤ 2 ^ 53 :=
    (nearest_mono (by linarith [hx.le_bound])).trans_eq nearest_two_pow_add_one
  have hfinite : (x + 1).isFinite = true := by
    rw [hrounds.isFinite_iff, abs_of_nonneg (by linarith)]
    exact hupper.trans_lt (pow_lt_pow_right₀ one_lt_two (by decide))
  have hvalue := hrounds.value_eq hfinite
  rw [hvalue]
  exact ⟨⟨hfinite, by linarith, by linarith⟩, hlower⟩

theorem isCount_foldl_add_one (n : ℕ) {acc : Float} (hacc : IsCount acc) :
    IsCount ((List.replicate (n + 1) (1 : Float)).foldl (· + ·) acc) ∧
      1 ≤ value ((List.replicate (n + 1) (1 : Float)).foldl (· + ·) acc) := by
  induction n generalizing acc with
  | zero => exact hacc.add_one
  | succ n ih => exact ih hacc.add_one.1

end Binary64
end NumericalMethods
