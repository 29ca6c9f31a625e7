import Mathlib.Algebra.Order.Interval.Finset.SuccPred
import Mathlib.LinearAlgebra.Lagrange
import Mathlib.Tactic.FieldSimp
import NumericalMethods.Interpolation.Polynomial
import NumericalMethods.Proofs.Exact.Basic
import NumericalMethods.Proofs.Interpolation.Differences

/-!
# Three forms of one polynomial

Over a field there is one polynomial of degree less than `n` through `n` points
with distinct abscissas.  The form of Lagrange is its definition.  The form of
Newton adds one node at a time, and the divided difference over the nodes so far
is the coefficient that the new node contributes.  At equally spaced nodes the
divided differences are finite differences over factorials, which makes the
forward form the same sum in another unit.

Points are given by two sequences, of which the first `n` entries are used.
-/

namespace NumericalMethods

open Polynomial

variable {K : Type} [Field K]

/-! ## Divided differences are leading coefficients -/

section Newton

variable {X Y : ℕ → K}

theorem coeff_mul_basisDivisor
    {P : K[X]} {n : ℕ} (hP : P.degree < (n + 1 : ℕ)) (a b : K) :
    (P * Lagrange.basisDivisor a b).coeff (n + 1) = P.coeff n / (a - b) := by
  have hlead : P.coeff (n + 1) = 0 := coeff_eq_zero_of_degree_lt hP
  rw [Lagrange.basisDivisor, mul_left_comm, coeff_C_mul, mul_sub, coeff_sub,
    coeff_mul_X, coeff_mul_C, hlead]
  ring

/-- The leading coefficient of the polynomial through the nodes `i`, …, `i + k`
is the divided difference over them. -/
theorem coeff_interpolate_Ico (i k : ℕ)
    (hX : Set.InjOn X (Finset.Ico i (i + k + 1))) :
    (Lagrange.interpolate (Finset.Ico i (i + k + 1)) X Y).coeff k =
      dividedDifference X Y i k := by
  induction k generalizing i with
  | zero => simp [dividedDifference]
  | succ k ih =>
      have hfirst : i ∈ Finset.Ico i (i + (k + 1) + 1) := by simp
      have hlast : i + k + 1 ∈ Finset.Ico i (i + (k + 1) + 1) :=
        Finset.mem_Ico.mpr ⟨by omega, by omega⟩
      have hdistinct : i ≠ i + k + 1 := by omega
      have hfront :
          (Finset.Ico i (i + (k + 1) + 1)).erase (i + k + 1) =
            Finset.Ico i (i + k + 1) := by
        ext m
        simp only [Finset.mem_erase, Finset.mem_Ico]
        omega
      have hback :
          (Finset.Ico i (i + (k + 1) + 1)).erase i =
            Finset.Ico (i + 1) (i + 1 + k + 1) := by
        ext m
        simp only [Finset.mem_erase, Finset.mem_Ico]
        omega
      have hXfront : Set.InjOn X (Finset.Ico i (i + k + 1)) :=
        hX.mono (by rw [← hfront]; exact_mod_cast Finset.erase_subset _ _)
      have hXback : Set.InjOn X (Finset.Ico (i + 1) (i + 1 + k + 1)) :=
        hX.mono (by rw [← hback]; exact_mod_cast Finset.erase_subset _ _)
      have hdegFront :
          (Lagrange.interpolate (Finset.Ico i (i + k + 1)) X Y).degree <
            (k + 1 : ℕ) := by
        have h := Lagrange.degree_interpolate_lt Y hXfront
        rwa [Nat.card_Ico, show i + k + 1 - i = k + 1 by omega] at h
      have hdegBack :
          (Lagrange.interpolate (Finset.Ico (i + 1) (i + 1 + k + 1))
            X Y).degree <
            (k + 1 : ℕ) := by
        have h := Lagrange.degree_interpolate_lt Y hXback
        rwa [Nat.card_Ico, show i + 1 + k + 1 - (i + 1) = k + 1 by omega] at h
      rw [Lagrange.interpolate_eq_add_interpolate_erase Y hX hfirst
        hlast hdistinct,
        hfront, hback, coeff_add, coeff_mul_basisDivisor hdegFront,
        coeff_mul_basisDivisor hdegBack, ih i hXfront, ih (i + 1) hXback,
        dividedDifference, ← neg_sub (X (i + k + 1)) (X i), div_neg]
      ring

/-- One more node adds the node polynomial of the ones before, weighed by the
divided difference over all of them. -/
theorem interpolate_range_succ {n : ℕ}
    (hX : Set.InjOn X (Finset.range (n + 1))) :
    Lagrange.interpolate (Finset.range (n + 1)) X Y =
      Lagrange.interpolate (Finset.range n) X Y +
        C (dividedDifference X Y 0 n) * Lagrange.nodal (Finset.range n) X := by
  have hsubset : Finset.range n ⊆ Finset.range (n + 1) :=
    Finset.range_subset_range.mpr n.le_succ
  have hXn : Set.InjOn X (Finset.range n) := hX.mono (by exact_mod_cast hsubset)
  have hlead :
      (Lagrange.interpolate (Finset.range (n + 1)) X Y).coeff n =
        dividedDifference X Y 0 n := by
    have h := coeff_interpolate_Ico (Y := Y) 0 n (by simpa using hX)
    simpa using h
  have hdegree :
      (Lagrange.interpolate (Finset.range (n + 1)) X Y).degree <
        (n + 1 : ℕ) := by
    simpa using Lagrange.degree_interpolate_lt Y hX
  rw [← sub_eq_iff_eq_add]
  apply Lagrange.eq_interpolate_of_eval_eq Y hXn
  · rw [Finset.card_range, degree_lt_iff_coeff_zero]
    intro m hm
    rw [coeff_sub, coeff_C_mul]
    rcases hm.eq_or_lt with rfl | hlt
    · have hmonic : (Lagrange.nodal (Finset.range n) X).coeff n = 1 := by
        have h := Lagrange.nodal_monic (s := Finset.range n) (v := X)
        rwa [Monic, leadingCoeff, Lagrange.natDegree_nodal,
          Finset.card_range] at h
      rw [hlead, hmonic, mul_one, sub_self]
    · have hnodal : (Lagrange.nodal (Finset.range n) X).coeff m = 0 := by
        apply coeff_eq_zero_of_natDegree_lt
        rwa [Lagrange.natDegree_nodal, Finset.card_range]
      have hhigh :
          (Lagrange.interpolate (Finset.range (n + 1)) X Y).coeff m = 0 := by
        apply coeff_eq_zero_of_degree_lt
        exact hdegree.trans_le (by exact_mod_cast hlt)
      rw [hhigh, hnodal, mul_zero, sub_self]
  · intro i hi
    rw [eval_sub, eval_mul, Lagrange.eval_nodal_at_node hi, mul_zero, sub_zero]
    exact Lagrange.eval_interpolate_at_node Y hX (hsubset hi)

/-- The form of Newton of the polynomial through the first `n` points. -/
theorem eval_interpolate_eq_sum_dividedDifference {n : ℕ}
    (hX : Set.InjOn X (Finset.range n)) (x : K) :
    (Lagrange.interpolate (Finset.range n) X Y).eval x =
      ∑ k ∈ Finset.range n,
        dividedDifference X Y 0 k * ∏ j ∈ Finset.range k, (x - X j) := by
  induction n with
  | zero => simp
  | succ n ih =>
      have hXn : Set.InjOn X (Finset.range n) :=
        hX.mono (by exact_mod_cast Finset.range_subset_range.mpr n.le_succ)
      rw [interpolate_range_succ hX, eval_add, ih hXn, eval_mul, eval_C,
        Lagrange.eval_nodal, Finset.sum_range_succ]

end Newton

/-! ## Equally spaced nodes -/

section Forward

variable [CharZero K] {X Y : ℕ → K} {h : K}

/-- At equal distances a divided difference is a finite difference over the
product of the distances between its nodes. -/
theorem dividedDifference_mul_factorial_mul_pow
    (hh : h ≠ 0) (hX : ∀ i, X i = X 0 + i * h) (k i : ℕ) :
    dividedDifference X Y i k * (k.factorial * h ^ k) =
      (fwdDiff 1)^[k] Y i := by
  induction k generalizing i with
  | zero => simp [dividedDifference]
  | succ k ih =>
      have hspan : X (i + k + 1) - X i = (k + 1 : ℕ) * h := by
        rw [hX (i + k + 1), hX i]
        push_cast
        ring
      have hk : ((k + 1 : ℕ) : K) ≠ 0 := Nat.cast_ne_zero.mpr k.succ_ne_zero
      rw [Function.iterate_succ_apply', fwdDiff, ← ih (i + 1), ← ih i,
        dividedDifference, hspan, Nat.factorial_succ, Nat.cast_mul, pow_succ]
      field_simp

theorem prod_sub_node (hh : h ≠ 0) (hX : ∀ i, X i = X 0 + i * h)
    (x : K) (k : ℕ) :
    ∏ j ∈ Finset.range k, (x - X j) =
      k.factorial * h ^ k *
        ∏ j ∈ Finset.range k, ((x - X 0) / h - j) / (j + 1 : ℕ) := by
  induction k with
  | zero => simp
  | succ k ih =>
      have hk : ((k + 1 : ℕ) : K) ≠ 0 := Nat.cast_ne_zero.mpr k.succ_ne_zero
      rw [Finset.prod_range_succ, ih, Finset.prod_range_succ, hX k,
        Nat.factorial_succ, Nat.cast_mul, pow_succ]
      field_simp
      ring

/-- The forward form of the polynomial through equally spaced points. -/
theorem eval_interpolate_eq_sum_fwdDiff
    (hh : h ≠ 0) (hX : ∀ i, X i = X 0 + i * h) (n : ℕ) (x : K) :
    (Lagrange.interpolate (Finset.range n) X Y).eval x =
      ∑ k ∈ Finset.range n,
        (∏ j ∈ Finset.range k, ((x - X 0) / h - j) / (j + 1 : ℕ)) *
          (fwdDiff 1)^[k] Y 0 := by
  have hinj : Function.Injective X := by
    intro i j hij
    rw [hX i, hX j] at hij
    exact_mod_cast mul_right_cancel₀ hh (add_left_cancel hij)
  rw [eval_interpolate_eq_sum_dividedDifference hinj.injOn]
  apply Finset.sum_congr rfl
  intro k _
  rw [prod_sub_node hh hX, ← dividedDifference_mul_factorial_mul_pow hh hX]
  ring

end Forward

/-! ## The forms as they are computed -/

namespace Interpolation

theorem zipIdx_map_range {β : Type} (f : ℕ → β) (n : ℕ) :
    ((List.range n).map f).zipIdx = (List.range n).map fun i => (f i, i) := by
  apply List.ext_getElem
  · simp
  · intro i hi hi'
    simp

theorem foldl_add_map_range (f : ℕ → K) (a : K) (n : ℕ) :
    (List.range n).foldl (fun acc i => acc + f i) a =
      a + ∑ i ∈ Finset.range n, f i := by
  induction n with
  | zero => simp
  | succ n ih =>
      rw [List.range_succ, List.foldl_append, ih, List.foldl_cons,
        List.foldl_nil, Finset.sum_range_succ, add_assoc]

variable [LinearOrder K] [ExactArithmetic K] (X Y : ℕ → K)

theorem lagrangeTerm_map_range (x : K) (n i : ℕ) :
    lagrangeTerm ((List.range n).map fun j => (X j, Y j)) x i (X i, Y i) =
      Y i * ∏ j ∈ (Finset.range n).erase i, (x - X j) / (X i - X j) := by
  rw [lagrangeTerm, zipIdx_map_range, List.foldl_map]
  induction n with
  | zero => simp
  | succ n ih =>
      rw [List.range_succ, List.foldl_append, ih, List.foldl_cons,
        List.foldl_nil, Finset.range_add_one]
      by_cases hin : i = n
      · subst hin
        simp
      · have herase :
            (insert n (Finset.range n)).erase i =
              insert n ((Finset.range n).erase i) :=
          Finset.erase_insert_of_ne fun h => hin h.symm
        have hnew : n ∉ (Finset.range n).erase i := by simp
        rw [herase, Finset.prod_insert hnew]
        simp only [hin, if_false]
        ring

/-- The form of Lagrange evaluates the polynomial through the points. -/
theorem lagrange_map_range (x : K) (n : ℕ) :
    lagrange ((List.range n).map fun i => (X i, Y i)) x =
      (Lagrange.interpolate (Finset.range n) X Y).eval x := by
  rw [lagrange, zipIdx_map_range, List.foldl_map]
  simp only [lagrangeTerm_map_range]
  rw [foldl_add_map_range, zero_add, Lagrange.interpolate_apply, eval_finsetSum]
  apply Finset.sum_congr rfl
  intro i _
  rw [eval_mul, eval_C, Lagrange.basis, eval_prod]
  congr 1
  apply Finset.prod_congr rfl
  intro j _
  rw [Lagrange.basisDivisor, eval_mul, eval_C, eval_sub, eval_X, eval_C]
  ring

theorem newtonForm_cons (x node c : K) (rest : List (K × K)) :
    newtonForm x ((node, c) :: rest) = newtonForm x rest * (x - node) + c := by
  cases rest with
  | nil => simp [newtonForm]
  | cons next rest => rw [newtonForm]

theorem newtonForm_map_range (C : ℕ → K) (x : K) (n : ℕ) :
    newtonForm x ((List.range n).map fun k => (X k, C k)) =
      ∑ k ∈ Finset.range n, C k * ∏ j ∈ Finset.range k, (x - X j) := by
  induction n generalizing X C with
  | zero => simp [newtonForm]
  | succ n ih =>
      have htail := ih (fun k => X (k + 1)) (fun k => C (k + 1))
      rw [List.range_succ_eq_map, List.map_cons, List.map_map, newtonForm_cons]
      have hcomp :
          ((fun k => (X k, C k)) ∘ Nat.succ) = fun k =>
            (X (k + 1), C (k + 1)) := rfl
      rw [hcomp, htail, Finset.sum_range_succ', Finset.sum_mul]
      simp only [Finset.prod_range_succ', Finset.prod_range_zero,
        mul_one, mul_assoc]

theorem foldl_forwardStep_map_range (D : ℕ → K) (t d0 : K) (n : ℕ) :
    ((List.range n).map fun k => (D k, k)).foldl (forwardStep t) (1, d0) =
      (∏ j ∈ Finset.range n, (t - j) / (j + 1 : ℕ),
        d0 + ∑ k ∈ Finset.range n,
          (∏ j ∈ Finset.range (k + 1), (t - j) / (j + 1 : ℕ)) * D k) := by
  induction n with
  | zero => simp
  | succ n ih =>
      rw [List.range_succ, List.map_append, List.foldl_append, ih]
      simp only [List.map_cons, List.map_nil, List.foldl_cons, List.foldl_nil,
        forwardStep, Scalar.ofNat_eq_natCast]
      rw [Finset.sum_range_succ, ← Finset.prod_range_succ, add_assoc]

/-- The forward form, with `D k` in the place of the `k`-th difference. -/
theorem forwardForm_map_range (D : ℕ → K) (x : K) {n : ℕ} (hn : 0 < n) :
    forwardForm ((List.range n).map X) ((List.range n).map D) x =
      ∑ k ∈ Finset.range n,
        (∏ j ∈ Finset.range k, ((x - X 0) / (X 1 - X 0) - j) / (j + 1 : ℕ)) *
          D k := by
  obtain ⟨m, rfl⟩ := Nat.exists_eq_succ_of_ne_zero hn.ne'
  cases m with
  | zero => simp [forwardForm]
  | succ m =>
      have hD :
          (List.range (m + 1 + 1)).map D =
            D 0 :: (List.range (m + 1)).map fun k => D (k + 1) := by
        rw [List.range_succ_eq_map, List.map_cons, List.map_map]
        rfl
      have hX :
          (List.range (m + 1 + 1)).map X =
            X 0 :: X 1 :: (List.range m).map fun k => X (k + 2) := by
        rw [List.range_succ_eq_map, List.range_succ_eq_map]
        simp
      rw [hX, hD, forwardForm, zipIdx_map_range, foldl_forwardStep_map_range,
        Finset.sum_range_succ' _ (m + 1), Finset.prod_range_zero, one_mul,
        add_comm _ (D 0)]

end Interpolation
end NumericalMethods
