import Mathlib.Algebra.BigOperators.Field
import Mathlib.Data.Finset.Max
import Mathlib.Tactic.LinearCombination
import NumericalMethods.Proofs.Contraction
import NumericalMethods.Proofs.LinearSystem.Permutation

/-!
# Simultaneous iteration as a contraction

With strictly dominated rows a sweep brings any two columns closer together, by
the largest ratio of a row outside its diagonal to the diagonal entry.  Its only
fixed point is the solution of the system.
-/

namespace NumericalMethods
namespace LinearSystem

variable {K : Type} [Field K] [LinearOrder K] [ExactArithmetic K] {n : ℕ}

/-- What a sweep makes of the unknowns `x`. -/
def jacobiMap (s : LinearSystem K n) (x : Fin n → K) (i : Fin n) : K :=
  ∑ j, s.iterationMatrix.entry i j * x j + s.rhs.get i / s.entry i i

/-- The weight of a row outside its diagonal, relative to the diagonal entry. -/
def dominanceRatio (s : LinearSystem K n) (i : Fin n) : K :=
  s.offDiagonal i / |s.entry i i|

/-- What a sweep makes of the zero column. -/
def offset (s : LinearSystem K n) (i : Fin n) : K :=
  s.rhs.get i / s.entry i i

section

variable {s : LinearSystem K n}

theorem iterationMatrix_entry (s : LinearSystem K n) (i j : Fin n) :
    s.iterationMatrix.entry i j = if i = j then 0
      else -s.entry i j / s.entry i i := by
  rw [iterationMatrix, Grid.entry_ofFn]

theorem sum_iterationMatrix_mul
    (s : LinearSystem K n) (i : Fin n) (x : Fin n → K) :
    ∑ j, s.iterationMatrix.entry i j * x j =
      -(∑ j ∈ Finset.univ.erase i, s.entry i j * x j) / s.entry i i := by
  have hdiagonal : s.iterationMatrix.entry i i * x i = 0 := by
    rw [iterationMatrix_entry, if_pos rfl, zero_mul]
  have herase : ∑ j ∈ Finset.univ.erase i, s.iterationMatrix.entry i j * x j =
      ∑ j, s.iterationMatrix.entry i j * x j := Finset.sum_erase _ hdiagonal
  rw [← herase, ← Finset.sum_neg_distrib, Finset.sum_div]
  refine Finset.sum_congr rfl fun j hj => ?_
  rw [iterationMatrix_entry, if_neg (Finset.ne_of_mem_erase hj).symm]
  ring

theorem jacobiMap_eq_div (s : LinearSystem K n) (x : Fin n → K) (i : Fin n) :
    s.jacobiMap x i =
      (s.rhs.get i - ∑ j ∈ Finset.univ.erase i, s.entry i j * x j) /
        s.entry i i := by
  rw [jacobiMap, sum_iterationMatrix_mul]
  ring

@[simp]
theorem jacobiMap_zero (s : LinearSystem K n) (i : Fin n) :
    s.jacobiMap (fun _ => 0) i = s.offset i := by
  simp [jacobiMap, offset]

theorem entry_self_ne_zero [IsStrictOrderedRing K] (hs : s.StrictlyDominant)
    (i : Fin n) :
    s.entry i i ≠ 0 := by
  have hnonneg : 0 ≤ s.offDiagonal i := by
    rw [offDiagonal_eq_sum]
    exact Finset.sum_nonneg fun j _ => abs_nonneg _
  exact abs_pos.mp (hnonneg.trans_lt (hs i))

/-- The solutions are the columns a sweep does not change. -/
theorem solves_iff_jacobiMap_eq
    (hdiagonal : ∀ i, s.entry i i ≠ 0) {x : Fin n → K} :
    s.Solves x ↔ ∀ i, s.jacobiMap x i = x i := by
  refine forall_congr' fun i => ?_
  rw [jacobiMap_eq_div, div_eq_iff (hdiagonal i),
    ← Finset.add_sum_erase _ (fun j => s.entry i j * x j) (Finset.mem_univ i)]
  constructor
  · intro h
    linear_combination -h
  · intro h
    linear_combination -h

end

/-! ## Contraction -/

section

variable [IsStrictOrderedRing K] {s : LinearSystem K n} {q : K}

/-- A sweep brings two columns closer together. -/
theorem abs_jacobiMap_sub_le
    {i : Fin n} (hi : s.dominanceRatio i ≤ q) {x y : Fin n → K} {distance : K}
    (hxy : ∀ j, |x j - y j| ≤ distance) :
    |s.jacobiMap x i - s.jacobiMap y i| ≤ q * distance := by
  have hdistance : 0 ≤ distance := (abs_nonneg _).trans (hxy i)
  have hdifference : s.jacobiMap x i - s.jacobiMap y i =
      -(∑ j ∈ Finset.univ.erase i, s.entry i j * (x j - y j)) /
        s.entry i i := by
    simp only [jacobiMap_eq_div, mul_sub, Finset.sum_sub_distrib]
    ring
  have hrow : |∑ j ∈ Finset.univ.erase i, s.entry i j * (x j - y j)| ≤
      s.offDiagonal i * distance := by
    rw [offDiagonal_eq_sum, Finset.sum_mul]
    refine (Finset.abs_sum_le_sum_abs _ _).trans
      (Finset.sum_le_sum fun j _ => ?_)
    rw [abs_mul]
    exact mul_le_mul_of_nonneg_left (hxy j) (abs_nonneg _)
  calc |s.jacobiMap x i - s.jacobiMap y i|
      = |∑ j ∈ Finset.univ.erase i, s.entry i j * (x j - y j)| /
        |s.entry i i| := by
        rw [hdifference, abs_div, abs_neg]
    _ ≤ s.offDiagonal i * distance / |s.entry i i| :=
        div_le_div_of_nonneg_right hrow (abs_nonneg _)
    _ = s.dominanceRatio i * distance := by rw [dominanceRatio]; ring
    _ ≤ q * distance := mul_le_mul_of_nonneg_right hi hdistance

theorem abs_jacobiMap_le
    {i : Fin n} (hi : s.dominanceRatio i ≤ q) {x : Fin n → K}
    {bound largest : K} (hx : ∀ j, |x j| ≤ bound)
    (hoffset : |s.offset i| ≤ largest) :
    |s.jacobiMap x i| ≤ q * bound + largest := by
  have hzero : |s.jacobiMap x i - s.jacobiMap (fun _ => 0) i| ≤ q * bound :=
    abs_jacobiMap_sub_le hi fun j => by simpa using hx j
  rw [jacobiMap_zero] at hzero
  calc |s.jacobiMap x i| = |(s.jacobiMap x i - s.offset i) + s.offset i| := by
        ring_nf
    _ ≤ |s.jacobiMap x i - s.offset i| + |s.offset i| := abs_add_le _ _
    _ ≤ q * bound + largest := add_le_add hzero hoffset

/-- How far a sweep moved bounds how far the fixed point still is.  The largest
distance is bounded in terms of itself. -/
theorem abs_jacobiMap_sub_fixed_le
    (hratio : ∀ i, s.dominanceRatio i ≤ q) (hq : q < 1)
    {y z : Fin n → K} {moved : K} (hz : ∀ i, s.jacobiMap z i = z i)
    (hmoved : ∀ i, |s.jacobiMap y i - y i| ≤ moved) (i : Fin n) :
    |s.jacobiMap y i - z i| ≤ q / (1 - q) * moved := by
  obtain ⟨m, -, hm⟩ := Finset.exists_max_image Finset.univ
    (fun j => |s.jacobiMap y j - z j|) ⟨i, Finset.mem_univ i⟩
  have hlargest : ∀ j, |s.jacobiMap y j - z j| ≤ |s.jacobiMap y m - z m| :=
    fun j => hm j (Finset.mem_univ j)
  have hbefore : ∀ j, |y j - z j| ≤ moved + |s.jacobiMap y m - z m| := by
    intro j
    calc |y j - z j| = |(y j - s.jacobiMap y j) + (s.jacobiMap y j - z j)| := by
          ring_nf
      _ ≤ |y j - s.jacobiMap y j| + |s.jacobiMap y j - z j| := abs_add_le _ _
      _ ≤ moved + |s.jacobiMap y m - z m| := by
          rw [abs_sub_comm]
          exact add_le_add (hmoved j) (hlargest j)
  have hself : |s.jacobiMap y m - z m| ≤
      q * (moved + |s.jacobiMap y m - z m|) := by
    have hcontract := abs_jacobiMap_sub_le (hratio m) hbefore
    rwa [hz m] at hcontract
  exact (hlargest i).trans (le_div_one_sub_mul hq hself)

theorem eq_of_jacobiMap_eq
    (hratio : ∀ i, s.dominanceRatio i ≤ q) (hq : q < 1) {y z : Fin n → K}
    (hy : ∀ i, s.jacobiMap y i = y i) (hz : ∀ i, s.jacobiMap z i = z i) :
    y = z := by
  funext i
  have hmoved : ∀ j, |s.jacobiMap y j - y j| ≤ 0 := fun j => by simp [hy j]
  have hdistance := abs_jacobiMap_sub_fixed_le hratio hq hz hmoved i
  rw [mul_zero, hy i] at hdistance
  exact sub_eq_zero.mp (abs_nonpos_iff.mp hdistance)

end

/-! ## Solvability -/

section

variable [IsStrictOrderedRing K] {s : LinearSystem K n}

theorem dominanceRatio_lt_one (hs : s.StrictlyDominant) (i : Fin n) :
    s.dominanceRatio i < 1 := by
  rw [dominanceRatio, div_lt_one (abs_pos.mpr (entry_self_ne_zero hs i))]
  exact hs i

/-- The factor by which a sweep contracts at least. -/
def rate [NeZero n] (s : LinearSystem K n) : K :=
  Finset.univ.sup' Finset.univ_nonempty s.dominanceRatio

/-- The largest movement of the first sweep. -/
def largestOffset [NeZero n] (s : LinearSystem K n) : K :=
  Finset.univ.sup' Finset.univ_nonempty fun i => |s.offset i|

omit [IsStrictOrderedRing K] in
theorem dominanceRatio_le_rate [NeZero n] (s : LinearSystem K n) (i : Fin n) :
    s.dominanceRatio i ≤ s.rate :=
  Finset.le_sup' s.dominanceRatio (Finset.mem_univ i)

omit [ExactArithmetic K] [IsStrictOrderedRing K] in
theorem abs_offset_le_largestOffset [NeZero n] (s : LinearSystem K n)
    (i : Fin n) :
    |s.offset i| ≤ s.largestOffset :=
  Finset.le_sup' (fun i => |s.offset i|) (Finset.mem_univ i)

theorem rate_lt_one [NeZero n] (hs : s.StrictlyDominant) : s.rate < 1 := by
  rw [rate, Finset.sup'_lt_iff]
  exact fun i _ => dominanceRatio_lt_one hs i

theorem rate_nonneg [NeZero n] (s : LinearSystem K n) : 0 ≤ s.rate := by
  refine le_trans ?_ (s.dominanceRatio_le_rate 0)
  rw [dominanceRatio, offDiagonal_eq_sum]
  exact div_nonneg (Finset.sum_nonneg fun j _ => abs_nonneg _) (abs_nonneg _)

omit [ExactArithmetic K] in
theorem largestOffset_nonneg [NeZero n] (s : LinearSystem K n) :
    0 ≤ s.largestOffset :=
  (abs_nonneg _).trans (s.abs_offset_le_largestOffset 0)

theorem eq_of_solves
    [NeZero n] (hs : s.StrictlyDominant) {x y : Fin n → K}
    (hx : s.Solves x) (hy : s.Solves y) : x = y := by
  rw [solves_iff_jacobiMap_eq (entry_self_ne_zero hs)] at hx hy
  exact eq_of_jacobiMap_eq s.dominanceRatio_le_rate (rate_lt_one hs) hx hy

/-- A system with strictly dominated rows has a solution. -/
theorem exists_solves [NeZero n] (hs : s.StrictlyDominant) :
    ∃ x, s.Solves x := by
  let product : (Fin n → K) →ₗ[K] (Fin n → K) := (Matrix.of s.entry).mulVecLin
  have hproduct : ∀ x i, product x i = ∑ j, s.entry i j * x j := fun x i => rfl
  have hinjective : Function.Injective product := by
    intro x y hxy
    let t : LinearSystem K n := { s with rhs := Vector.ofFn (product y) }
    refine eq_of_solves (s := t) hs (fun i => ?_) (fun i => ?_)
    · rw [Grid.get_ofFn, ← hxy, hproduct]
      rfl
    · rw [Grid.get_ofFn, hproduct]
      rfl
  obtain ⟨x, hx⟩ := LinearMap.injective_iff_surjective.mp hinjective s.rhs.get
  exact ⟨x, fun i => by rw [← hproduct, hx]⟩

end

end LinearSystem
end NumericalMethods
