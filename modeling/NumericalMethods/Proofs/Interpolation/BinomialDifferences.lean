import NumericalMethods.Proofs.Interpolation.Forms
import NumericalMethods.Proofs.Interpolation.InPlace

/-!
# Finite differences written out

A row of finite differences is computed from the row above it.  Written out in
the values themselves, a difference of order `k` is an alternating sum of `k +
1` neighbours, weighed by binomial coefficients.

Finite and divided differences are computed from the same values, neither from
the other.  At nodes that follow each other at one distance they are multiples
of each other, by factors that depend only on the order and the distance.
-/

namespace NumericalMethods

variable {n : ℕ}

theorem map_range_eq_ofFn {α : Type} (f : ℕ → α) (n : ℕ) :
    (List.range n).map f = List.ofFn fun i : Fin n => f i :=
  List.ext_getElem (by simp) fun i _ _ => by simp

theorem toList_eq_map_entryAt {α : Type} (v : Vector α n) (hn : 0 < n) :
    v.toList = (List.range n).map (entryAt v hn) := by
  refine List.ext_getElem (by simp) fun i hi _ => ?_
  have hin : i < n := by simpa using hi
  rw [Vector.getElem_toList, List.getElem_map, List.getElem_range,
    entryAt_of_lt v hn hin]

/-! ## Binomial sums -/

section Sums

variable {R : Type} [Ring R]

theorem fwdDiff_iterate_eq_sum (Y : ℕ → R) (k i : ℕ) :
    (fwdDiff 1)^[k] Y i =
      ∑ j : Fin (k + 1), (-1) ^ (k - j.val) * (k.choose j.val : R) *
        Y (i + j.val) := by
  rw [fwdDiff_iter_eq_sum_shift, Finset.sum_range]
  apply Finset.sum_congr rfl
  intro j _
  simp

/-- The whole triangle in terms of the values.  Row `k` ends with the difference
that uses the last of them. -/
theorem finiteDifferences_toList (hn : 0 < n) (y : Vector R n) :
    finiteDifferences y.toList =
      List.ofFn fun k : Fin n => List.ofFn fun i : Fin (n - k.val) =>
        ∑ j : Fin (k.val + 1),
          (-1) ^ (k.val - j.val) * (k.val.choose j.val : R) *
            y[i.val + j.val] := by
  rw [toList_eq_map_entryAt y hn, finiteDifferences_map_range _ hn,
    map_range_eq_ofFn]
  congr 1
  funext k
  rw [map_range_eq_ofFn]
  congr 1
  funext i
  rw [fwdDiff_iterate_eq_sum]
  apply Finset.sum_congr rfl
  intro j _
  have hin : i.val + j.val < n := by omega
  rw [entryAt_of_lt y hn hin]

end Sums

/-! ## Equal distances -/

section Progression

variable {K : Type} [Field K] [CharZero K]

/-- At equal distances the rows begin with multiples of the divided
differences. -/
theorem head?_finiteDifferences (hn : 0 < n) {x y : Vector K n}
    {start h : K} (hh : h ≠ 0) (hx : ∀ i (hi : i < n), x[i] = start + i * h) :
    (finiteDifferences y.toList).map List.head? =
      (dividedDifferences x y).toList.mapIdx fun k d =>
        some (k.factorial * h ^ k * d) := by
  let X : ℕ → K := fun i => start + i * h
  have hX : ∀ i : Fin n, X i = x.get i := fun i => (hx i i.isLt).symm
  have hY : ∀ i : Fin n, entryAt y hn i = y.get i :=
    fun i => entryAt_of_lt y hn i.isLt
  have hprogression : ∀ i, X i = X 0 + i * h := fun i => by simp [X]
  rw [toList_dividedDifferences hX hY, toList_eq_map_entryAt y hn,
    finiteDifferences_map_range _ hn, List.map_map]
  refine List.ext_getElem (by simp) fun k hk _ => ?_
  have hkn : k < n := by simpa using hk
  have hrow : n - k ≠ 0 := Nat.sub_ne_zero_of_lt hkn
  have hfactor :=
    dividedDifference_mul_factorial_mul_pow (Y := entryAt y hn) hh
      hprogression k 0
  simp [List.head?_range, hrow, ← hfactor, mul_comm]

/-- The triangle of finite differences of `n` values has `n` rows, row `k` has
`n - k` entries, and each of them is an alternating binomial sum of the values.
For nodes `start + i * h` the first entry of row `k` is the divided difference
over the first `k + 1` of them times `k.factorial * h ^ k`. -/
theorem finiteDifferences_binomial (hn : 0 < n) (y : Vector K n) :
    (finiteDifferences y.toList =
      List.ofFn fun k : Fin n => List.ofFn fun i : Fin (n - k.val) =>
        ∑ j : Fin (k.val + 1),
          (-1) ^ (k.val - j.val) * (k.val.choose j.val : K) *
            y[i.val + j.val]) ∧
    ∀ (x : Vector K n) (start h : K), h ≠ 0 →
      (∀ i (hi : i < n), x[i] = start + i * h) →
      ∃ d, dividedDifferences? x.toList y.toList = some d ∧
        (finiteDifferences y.toList).map List.head? =
          d.mapIdx fun k c => some (k.factorial * h ^ k * c) := by
  refine ⟨finiteDifferences_toList hn y, ?_⟩
  intro x start h hh hx
  exact ⟨_, dividedDifferences?_toList x y, head?_finiteDifferences hn hh hx⟩

/-- The tables of a cube at falling nodes. -/
theorem finiteDifferences_binomial_cube :
    let x : Vector ℚ 4 := #v[1, 1 / 2, 0, -1 / 2]
    let y : Vector ℚ 4 := #v[1, 1 / 8, 0, -1 / 8]
    0 < 4 ∧ (-1 / 2 : ℚ) ≠ 0 ∧
    (∀ (i : ℕ) (hi : i < 4), x[i] = 1 + i * (-1 / 2)) ∧
    finiteDifferences y.toList =
      [[1, 1 / 8, 0, -1 / 8], [-7 / 8, -1 / 8, -1 / 8], [3 / 4, 0], [-3 / 4]] ∧
    ∃ d, dividedDifferences? x.toList y.toList = some d ∧
      [some 1, some (-7 / 8), some (3 / 4), some (-3 / 4)] =
        d.mapIdx fun k c => some (k.factorial * (-1 / 2 : ℚ) ^ k * c) := by
  intro x y
  have hh : (-1 / 2 : ℚ) ≠ 0 := by norm_num
  have hx : ∀ (i : ℕ) (hi : i < 4), x[i] = 1 + i * (-1 / 2) := by decide +kernel
  obtain ⟨htable, hfactors⟩ := finiteDifferences_binomial (by decide) y
  have hrows : finiteDifferences y.toList =
      [[1, 1 / 8, 0, -1 / 8], [-7 / 8, -1 / 8, -1 / 8], [3 / 4, 0],
        [-3 / 4]] := by
    rw [htable]
    decide +kernel
  obtain ⟨d, hd, hheads⟩ := hfactors x 1 (-1 / 2) hh hx
  rw [hrows] at hheads
  exact ⟨by decide, hh, hx, hrows, d, hd, hheads⟩

end Progression

end NumericalMethods
