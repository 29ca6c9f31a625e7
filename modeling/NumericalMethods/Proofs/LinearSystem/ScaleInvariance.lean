import NumericalMethods.LinearSystem.Jacobi
import NumericalMethods.Proofs.Binary64.Magnitudes
import NumericalMethods.Proofs.Exact.Real
import NumericalMethods.Proofs.LinearSystem.Determinant
import NumericalMethods.Proofs.LinearSystem.RowScaling

/-!
# Scaled systems and the test for singular matrices

Whether a matrix is singular is judged by the ratio of its determinant to the
product of its row norms, which does not depend on factors of the rows.  In
exact arithmetic it never does.  In binary arithmetic powers of two change
nothing while all products stay in the range of the normal numbers, as they do
up to order three for moderate coefficients.  Beyond the range the ratio is
lost: where the product of the norms overflows every matrix is found singular,
and where it underflows only those whose determinant is zero.
-/

namespace NumericalMethods

open Binary64

namespace Jacobi

/-! ## The test within the range -/

section Range

variable {n : ℕ} {k : Fin n → ℤ} {s t : LinearSystem Float n}
  {settings : Settings Float}

/-- Every product of the test for singularity stays in the range of the normal
numbers. -/
structure RangeKept (settings : Settings Float)
    (s : LinearSystem Float n) : Prop where
  norms : ∀ row ∈ s.matrix.toLists, NormKept row
  bound : ProductsKept 1 s.matrix.rowNorms
  threshold : ProductKept settings.determinantFloor
    (Scalar.product s.matrix.rowNorms)
  determinant : Elimination.DeterminantKept s.matrix.toLists

/-- The coefficients of every equation are multiplied by the power of two with
its exponent, without rounding. -/
def RowsScaled (k : Fin n → ℤ) (s t : LinearSystem Float n) : Prop :=
  ∀ i j, IsScaled (k i) (s.entry i j) (t.entry i j)

instance (k : Fin n → ℤ) (s t : LinearSystem Float n) :
    Decidable (RowsScaled k s t) :=
  inferInstanceAs
    (Decidable (∀ i j, IsScaled (k i) (s.entry i j) (t.entry i j)))

/-- Elimination takes its pivots from the same rows. -/
def PivotsAgree (s t : LinearSystem Float n) : Prop :=
  Elimination.pivotIndices n s.matrix.toLists =
    Elimination.pivotIndices n t.matrix.toLists

theorem RowsScaled.toLists (h : RowsScaled k s t) :
    Forall₃ RowScaled (List.ofFn k) s.matrix.toLists t.matrix.toLists := by
  rw [Grid.toLists_eq_ofFn, Grid.toLists_eq_ofFn]
  refine .ofFn fun i => ?_
  rw [Grid.toList_eq_ofFn, Grid.toList_eq_ofFn, RowScaled, List.forall₂_iff_get]
  refine ⟨by simp, fun j hj _ => ?_⟩
  rw [List.get_ofFn, List.get_ofFn]
  exact h i _

theorem RowsScaled.isScaled_bound (h : RowsScaled k s t)
    (hs : RangeKept settings s) (ht : RangeKept settings t) :
    IsScaled (List.ofFn k).sum (Scalar.product s.matrix.rowNorms)
      (Scalar.product t.matrix.rowNorms) := by
  refine isScaled_product
    (h.toLists.map fun _ row hrow row' hrow' hscaled => ?_) hs.bound ht.bound
  exact hscaled.norm (hs.norms row hrow) (ht.norms row' hrow')

theorem RowsScaled.isScaled_determinant (h : RowsScaled k s t)
    (hpivots : n ≤ 3 ∨ (∀ i j, k i = k j) ∨ PivotsAgree s t)
    (hs : Elimination.DeterminantKept s.matrix.toLists)
    (ht : Elimination.DeterminantKept t.matrix.toLists) :
    IsScaled (List.ofFn k).sum (Elimination.determinant s.matrix.toLists)
      (Elimination.determinant t.matrix.toLists) := by
  refine Elimination.isScaled_determinant (Grid.length_toLists _)
    (fun _ => Grid.length_of_mem_toLists) h.toLists ?_ hs ht
  by_cases hsmall : n ≤ 3
  · exact .inl hsmall
  · right
    rcases hpivots.resolve_left hsmall with hcommon | hagree
    · have hreduce : ∀ rows : List (List Float), rows.length = n →
          Elimination.DeterminantKept rows →
            Elimination.ReductionKept n rows := by
        rintro rows rfl hkept
        exact ((Elimination.determinantKept_iff_of_length (.inr (by omega))).mp
          hkept).reduction
      refine Elimination.pivotIndices_eq (k := k ⟨0, by omega⟩) n h.toLists ?_
        (hreduce _ (Grid.length_toLists _) hs)
          (hreduce _ (Grid.length_toLists _) ht)
      intro l hl
      obtain ⟨i, rfl⟩ := List.mem_ofFn.mp hl
      exact hcommon i _
    · exact hagree

/-- The test comes out alike for rows that are scaled within the range. -/
theorem isSingular_of_rangeKept (h : RowsScaled k s t)
    (hpivots : n ≤ 3 ∨ (∀ i j, k i = k j) ∨ PivotsAgree s t)
    (hs : RangeKept settings s) (ht : RangeKept settings t) :
    isSingular settings s (Elimination.determinant s.matrix.toLists) =
      isSingular settings t (Elimination.determinant t.matrix.toLists) := by
  have hdeterminant :=
    (h.isScaled_determinant hpivots hs.determinant ht.determinant).abs
  have hfloor : settings.determinantFloor.isFinite = true :=
    (isFinite_of_isFinite_mul hs.threshold.isFinite).1
  have hthreshold :=
    (isScaled_refl hfloor).mul (h.isScaled_bound hs ht) hs.threshold
    ht.threshold
  rw [zero_add] at hthreshold
  exact congrArg (!·) (decide_eq_decide.mpr (hthreshold.lt_iff hdeterminant))

end Range

end Jacobi

/-! ## Moderate coefficients -/

section Moderate

/-- The squares of moderate numbers are summed without leaving the range. -/
theorem within_foldl_squares {row : List Float}
    (hrow : ∀ x ∈ row, Within (-300) 300 x) {b : ℤ} {acc : Float}
    (hacc : Within (-600) b acc) (hnonneg : 0 ≤ value acc) (hb : 600 ≤ b)
    (hb' : b + row.length ≤ 1023) :
    Within (-600) (b + row.length) (row.foldl (fun acc x => acc + x * x) acc) ∧
      0 ≤ value (row.foldl (fun acc x => acc + x * x) acc) := by
  induction row generalizing b acc with
  | nil => simpa using And.intro hacc hnonneg
  | cons x row ih =>
      rw [List.length_cons, Nat.cast_succ] at hb' ⊢
      have hx := hrow x List.mem_cons_self
      obtain ⟨-, hsquare⟩ := hx.mul hx (by norm_num) (by norm_num) (by norm_num)
      have hsquareNonneg : 0 ≤ value (x * x) := by
        rw [(rounds_mul hx.isFinite hx.isFinite).value_eq hsquare.isFinite]
        exact nearest_nonneg (mul_self_nonneg _)
      obtain ⟨hsum, hsumNonneg⟩ :=
        hacc.add_of_nonneg (hsquare.mono (by norm_num) (by omega))
        hnonneg hsquareNonneg (by norm_num) (by omega) (by omega)
      have hlength : b + 1 + row.length = b + (row.length + 1) := by omega
      rw [List.foldl_cons, ← hlength]
      exact ih (fun y hy => hrow y (List.mem_cons_of_mem _ hy)) hsum
        hsumNonneg (by omega) (by omega)

theorem normKept_of_within {row : List Float}
    (hrow : ∀ x ∈ row, Within (-300) 300 x) (hlength : row.length ≤ 3) :
    NormKept row ∧ Within (-301) 303 (Scalar.norm row) := by
  have hzero : Within (-600) 600 0 :=
    ⟨rfl, .inl value_zero, by rw [value_zero, abs_zero]; positivity⟩
  obtain ⟨hsum, hnonneg⟩ :=
    within_foldl_squares hrow hzero value_zero.ge le_rfl (by omega)
  have hband : Within (2 * (-300)) (2 * 302)
      (row.foldl (fun acc x => acc + x * x) 0) :=
    hsum.mono (by norm_num) (by omega)
  refine ⟨⟨fun x hx => ?_, hsum.isFinite⟩, hband.sqrt hnonneg⟩
  exact ((hrow x hx).mul (hrow x hx) (by norm_num) (by norm_num)
    (by norm_num)).1

theorem productsKept_of_within {xs : List Float}
    (hxs : ∀ x ∈ xs, Within (-301) 303 x) {a b : ℤ} {acc : Float}
    (hacc : Within a b acc) (ha : -1022 ≤ a - 301 * xs.length) (hb : 0 ≤ b)
    (hb' : b + 303 * xs.length ≤ 1023) :
    ProductsKept acc xs ∧
      Within (a - 301 * xs.length) (b + 303 * xs.length)
        (xs.foldl (· * ·) acc) := by
  induction xs generalizing a b acc with
  | nil => simpa [ProductsKept] using hacc
  | cons x xs ih =>
      rw [List.length_cons, Nat.cast_succ] at ha hb' ⊢
      obtain ⟨hkept, hproduct⟩ :=
        hacc.mul (hxs x List.mem_cons_self) (by omega) (by omega)
        (by omega)
      obtain ⟨hrest, hwithin⟩ :=
        ih (fun y hy => hxs y (List.mem_cons_of_mem _ hy)) hproduct
        (by omega) (by omega) (by omega)
      exact ⟨⟨hkept, hrest⟩, hwithin.mono (by omega) (by omega)⟩

end Moderate

namespace Elimination

section Expansion

variable {a b c d e f g h i : Float}

theorem minorKept_of_within (ha : Within (-300) 300 a)
    (hb : Within (-300) 300 b) (hc : Within (-300) 300 c)
    (hd : Within (-300) 300 d) :
    MinorKept a b c d ∧ Within (-652) 601 (a * d - c * b) := by
  obtain ⟨hdiagonal, hfirst⟩ :=
    ha.mul hd (by norm_num) (by norm_num) (by norm_num)
  obtain ⟨hother, hsecond⟩ :=
    hc.mul hb (by norm_num) (by norm_num) (by norm_num)
  have hminor := hfirst.sub hsecond (by norm_num) (by norm_num) (by norm_num)
  exact ⟨⟨hdiagonal, hother, hminor.isFinite⟩, hminor⟩

theorem expansionKept_of_within (ha : Within (-300) 300 a)
    (hb : Within (-300) 300 b) (hc : Within (-300) 300 c)
    (hd : Within (-300) 300 d) (he : Within (-300) 300 e)
    (hf : Within (-300) 300 f) (hg : Within (-300) 300 g)
    (hh : Within (-300) 300 h) (hi : Within (-300) 300 i) :
    ExpansionKept a b c d e f g h i := by
  obtain ⟨hfirst, hfirstWithin⟩ := minorKept_of_within he hf hh hi
  obtain ⟨hsecond, hsecondWithin⟩ := minorKept_of_within hd hf hg hi
  obtain ⟨hthird, hthirdWithin⟩ := minorKept_of_within hd he hg hh
  obtain ⟨hfirstTerm, hx⟩ :=
    ha.mul hfirstWithin (by norm_num) (by norm_num) (by norm_num)
  obtain ⟨hsecondTerm, hy⟩ :=
    hb.mul hsecondWithin (by norm_num) (by norm_num) (by norm_num)
  obtain ⟨hthirdTerm, hz⟩ :=
    hc.mul hthirdWithin (by norm_num) (by norm_num) (by norm_num)
  have hdifference := hx.sub hy (by norm_num) (by norm_num) (by norm_num)
  have hsum :=
    hdifference.add (hz.mono (by norm_num) (by norm_num)) (by norm_num)
    (by norm_num) (by norm_num)
  exact ⟨hfirst, hsecond, hthird, hfirstTerm, hsecondTerm, hthirdTerm,
    hsum.isFinite⟩

/-- Up to order three the determinant of moderate coefficients stays in the
range. -/
theorem determinantKept_of_within {n : ℕ} (hn : n ≤ 3)
    {rows : List (List Float)} (hcount : rows.length = n)
    (hlength : ∀ row ∈ rows, row.length = n)
    (hwithin : ∀ row ∈ rows, ∀ x ∈ row, Within (-300) 300 x) :
    DeterminantKept rows := by
  obtain rfl | rfl | rfl | rfl : n = 0 ∨ n = 1 ∨ n = 2 ∨ n = 3 := by omega
  · rw [determinantKept_iff_of_length (.inl hcount)]
    obtain rfl := List.length_eq_zero_iff.mp hcount
    exact ⟨trivial, trivial⟩
  · obtain ⟨r, rfl⟩ := List.length_eq_one_iff.mp hcount
    obtain ⟨a, rfl⟩ := List.length_eq_one_iff.mp (hlength r (by simp))
    exact trivial
  · obtain ⟨r, q, rfl⟩ := List.length_eq_two.mp hcount
    obtain ⟨a, b, rfl⟩ := List.length_eq_two.mp (hlength r (by simp))
    obtain ⟨c, d, rfl⟩ := List.length_eq_two.mp (hlength q (by simp))
    simp only [List.forall_mem_cons, List.not_mem_nil, IsEmpty.forall_iff,
      implies_true, and_true] at hwithin
    obtain ⟨⟨ha, hb⟩, hc, hd⟩ := hwithin
    exact (minorKept_of_within ha hb hc hd).1
  · obtain ⟨r, q, p, rfl⟩ := List.length_eq_three.mp hcount
    obtain ⟨a, b, c, rfl⟩ := List.length_eq_three.mp (hlength r (by simp))
    obtain ⟨d, e, f, rfl⟩ := List.length_eq_three.mp (hlength q (by simp))
    obtain ⟨g, h, i, rfl⟩ := List.length_eq_three.mp (hlength p (by simp))
    simp only [List.forall_mem_cons, List.not_mem_nil, IsEmpty.forall_iff,
      implies_true, and_true] at hwithin
    obtain ⟨⟨ha, hb, hc⟩, ⟨hd, he, hf⟩, hg, hh, hi⟩ := hwithin
    exact expansionKept_of_within ha hb hc hd he hf hg hh hi

end Expansion

end Elimination

namespace Jacobi

/-! ## Moderate systems -/

variable {n : ℕ} {s t : LinearSystem Float n} {settings : Settings Float}

/-- Every coefficient is zero or has a magnitude from `2 ^ (-300)` to `2
^ 300`. -/
def Moderate (s : LinearSystem Float n) : Prop :=
  ∀ i j, Within (-300) 300 (s.entry i j)

instance (s : LinearSystem Float n) : Decidable (Moderate s) :=
  inferInstanceAs (Decidable (∀ i j, Within (-300) 300 (s.entry i j)))

theorem Moderate.within_of_mem (h : Moderate s) {row : List Float}
    (hrow : row ∈ s.matrix.toLists) {x : Float} (hx : x ∈ row) :
    Within (-300) 300 x := by
  rw [Grid.toLists_eq_ofFn] at hrow
  obtain ⟨i, rfl⟩ := List.mem_ofFn.mp hrow
  rw [Grid.toList_eq_ofFn] at hx
  obtain ⟨j, rfl⟩ := List.mem_ofFn.mp hx
  exact h i j

/-- Up to order three the test for singularity stays in the range for moderate
coefficients. -/
theorem Moderate.rangeKept (h : Moderate s) (hn : n ≤ 3)
    (hfloor : Within (-100) 100 settings.determinantFloor) :
    RangeKept settings s := by
  have hnorm : ∀ row ∈ s.matrix.toLists,
      NormKept row ∧ Within (-301) 303 (Scalar.norm row) := fun row hrow =>
    normKept_of_within (fun x hx => h.within_of_mem hrow hx)
      ((Grid.length_of_mem_toLists hrow).trans_le hn)
  have hnorms : ∀ x ∈ s.matrix.rowNorms, Within (-301) 303 x := by
    intro x hx
    obtain ⟨row, hrow, rfl⟩ := List.mem_map.mp hx
    exact (hnorm row hrow).2
  have hcount : s.matrix.rowNorms.length = n := by
    rw [Grid.rowNorms_eq_ofFn, List.length_ofFn]
  obtain ⟨hbound, hwithin⟩ :=
    productsKept_of_within hnorms within_one (by omega) le_rfl
    (by omega)
  have hproduct : Within (-903) 909 (Scalar.product s.matrix.rowNorms) :=
    hwithin.mono (by omega) (by omega)
  refine ⟨fun row hrow => (hnorm row hrow).1, hbound, ?_, ?_⟩
  · exact (hfloor.mul hproduct (by norm_num) (by norm_num) (by norm_num)).1
  · exact Elimination.determinantKept_of_within hn (Grid.length_toLists _)
      (fun _ => Grid.length_of_mem_toLists) fun row hrow x hx =>
        h.within_of_mem hrow hx

/-! ## Bounds out of range -/

/-- A product of norms is not negative. -/
theorem not_product_rowNorms_lt_zero (s : LinearSystem Float n) :
    ¬ Scalar.product s.matrix.rowNorms < 0 := by
  have hproduct : ∀ (xs : List Float) (acc : Float),
      (∀ x ∈ xs, ¬ x < 0) → ¬ acc < 0 →
      ¬ xs.foldl (· * ·) acc < 0 := by
    intro xs
    induction xs with
    | nil => exact fun _ _ hacc => hacc
    | cons x xs ih =>
        intro acc hxs hacc
        exact ih _ (fun y hy => hxs y (List.mem_cons_of_mem _ hy))
          (not_mul_lt_zero hacc (hxs x List.mem_cons_self))
  refine hproduct _ _ (fun x hx => ?_) (by decide)
  obtain ⟨row, -, rfl⟩ := List.mem_map.mp hx
  exact not_sqrt_lt_zero _

/-- Where the product of the row norms overflows, every determinant is
negligible. -/
theorem isSingular_of_overflow (hfloor : ¬ settings.determinantFloor < 0)
    (hoverflow : ¬ (Scalar.product s.matrix.rowNorms).isFinite = true)
    (determinant : Float) :
    isSingular settings s determinant = true := by
  have hthreshold := not_lt_of_not_isFinite (y := Scalar.abs determinant)
    (mt (fun h => (isFinite_of_isFinite_mul h).2) hoverflow)
    (not_mul_lt_zero hfloor (not_product_rowNorms_lt_zero s))
  simp only [isSingular, hthreshold, decide_false, Bool.not_false]

/-- Where it underflows to zero, only a determinant of zero is negligible. -/
theorem isSingular_of_underflow
    (hfloor : settings.determinantFloor.isFinite = true)
    (hunderflow : IsZero (Scalar.product s.matrix.rowNorms))
    (determinant : Float) :
    isSingular settings s determinant =
      !decide (0 < Scalar.abs determinant) := by
  have hthreshold := IsZero.mul_right hfloor hunderflow
  exact congrArg (!·) (decide_eq_decide.mpr hthreshold.lt_iff)

/-! ## Exact arithmetic -/

section Exact

variable {n : ℕ} {s t : LinearSystem ℝ n} {c : Fin n → ℝ}

theorem norm_ofFn (f : Fin n → ℝ) :
    Scalar.norm (List.ofFn f) = √(∑ j, f j * f j) := by
  have hfold : ∀ (xs : List ℝ) (acc : ℝ),
      xs.foldl (fun acc x => acc + x * x) acc =
        acc + (xs.map fun x => x * x).sum := by
    intro xs
    induction xs with
    | nil => simp
    | cons x xs ih => simp [ih, add_assoc]
  rw [Scalar.norm, hfold, zero_add, List.map_ofFn, List.sum_ofFn]
  rfl

theorem norm_mul_left (a : ℝ) (f : Fin n → ℝ) :
    Scalar.norm (List.ofFn fun j => a * f j) =
      |a| * Scalar.norm (List.ofFn f) := by
  have hsum : ∑ j, a * f j * (a * f j) = a * a * ∑ j, f j * f j := by
    rw [Finset.mul_sum]
    exact Finset.sum_congr rfl fun j _ => by ring
  rw [norm_ofFn, norm_ofFn, hsum, Real.sqrt_mul (mul_self_nonneg a),
    Real.sqrt_mul_self_eq_abs]

/-- Factors of the rows appear in the product of the norms and in the
determinant. -/
theorem isSingular_mul_rows (settings : Settings ℝ) (hc : ∀ i, c i ≠ 0)
    (h : ∀ i j, t.entry i j = c i * s.entry i j) :
    isSingular settings s (Elimination.determinant s.matrix.toLists) =
      isSingular settings t (Elimination.determinant t.matrix.toLists) := by
  have hrow : ∀ i, Scalar.norm (t.matrix.get i).toList =
      |c i| * Scalar.norm (s.matrix.get i).toList := by
    intro i
    have hentries : (t.matrix.get i).get = fun j =>
        c i * (s.matrix.get i).get j := funext (h i)
    rw [Grid.toList_eq_ofFn, Grid.toList_eq_ofFn, hentries, norm_mul_left]
  have hbound : Scalar.product t.matrix.rowNorms =
      |∏ i, c i| * Scalar.product s.matrix.rowNorms := by
    rw [Scalar.product_eq_prod, Scalar.product_eq_prod, Grid.rowNorms_eq_ofFn,
      Grid.rowNorms_eq_ofFn, List.prod_ofFn, List.prod_ofFn, Finset.abs_prod,
      ← Finset.prod_mul_distrib]
    exact Finset.prod_congr rfl fun i _ => hrow i
  have hdeterminant : Elimination.determinant t.matrix.toLists =
      (∏ i, c i) * Elimination.determinant s.matrix.toLists := by
    have hmatrix : Matrix.of t.entry = Matrix.of fun i j =>
        c i * Matrix.of s.entry i j := by
      ext i j
      exact h i j
    rw [LinearSystem.determinant_eq_det,
      LinearSystem.determinant_eq_det, hmatrix, Matrix.det_mul_column]
  have hpos : 0 < |∏ i, c i| :=
    abs_pos.mpr (Finset.prod_ne_zero_iff.mpr fun i _ => hc i)
  refine congrArg (!·) (decide_eq_decide.mpr ?_)
  rw [hbound, hdeterminant, Scalar.abs_eq_abs, Scalar.abs_eq_abs, abs_mul,
    mul_left_comm, mul_lt_mul_iff_right₀ hpos]

end Exact

/-! ## Scaled systems -/

section Solve

/-- The solver rejects a system as singular. -/
def FindsSingular {α : Type} [Scalar α] (settings : Settings α)
    (s : LinearSystem α n) (tolerance : α) : Prop :=
  ∃ determinant, solve settings s tolerance =
    .error (.singularMatrix determinant)

theorem findsSingular_iff {α : Type} [Scalar α] {settings : Settings α}
    {s : LinearSystem α n} {tolerance : α} :
    FindsSingular settings s tolerance ↔
      Scalar.isPositiveFinite tolerance = true ∧
      isSingular settings s (Elimination.determinant s.matrix.toLists) =
        true := by
  simp only [FindsSingular, solve]
  cases Scalar.isPositiveFinite tolerance with
  | false => simp
  | true =>
      cases isSingular settings s
        (Elimination.determinant s.matrix.toLists) with
      | true => simp
      | false =>
          cases smallPivot? settings (arrange s).system with
          | some i => simp [EngineError.ofSteps]
          | none =>
              cases iterate _ _ _ with
              | ok run => simp
              | error stopped => simp [EngineError.ofSteps]

/-- The system of the values of the numbers. -/
noncomputable def exactly (s : LinearSystem Float n) : LinearSystem ℝ n where
  matrix := Grid.ofFn fun i j => (value (s.entry i j) : ℝ)
  rhs := Vector.ofFn fun i => (value (s.rhs.get i) : ℝ)

theorem entry_exactly (s : LinearSystem Float n) (i j : Fin n) :
    (exactly s).entry i j = value (s.entry i j) :=
  Grid.entry_ofFn _ i j

/-- Powers of two as factors of the equations do not decide whether a system is
found singular, as long as the products of the test stay in the range of the
normal numbers and the pivots are the same; up to order three they do for
moderate coefficients, and in exact arithmetic always.  Where the product of the
row norms overflows, every system is found singular, and where it underflows to
zero, no system whose determinant has a magnitude. -/
theorem findsSingular_of_scaled {k : Fin n → ℤ} (settings : Settings Float)
    (tolerance : Float) (h : RowsScaled k s t) :
    ((n ≤ 3 ∨ (∀ i j, k i = k j) ∨ PivotsAgree s t) →
      RangeKept settings s → RangeKept settings t →
        (FindsSingular settings s tolerance ↔
          FindsSingular settings t tolerance)) ∧
    (n ≤ 3 → Within (-100) 100 settings.determinantFloor →
      Moderate s → Moderate t →
      (FindsSingular settings s tolerance ↔
        FindsSingular settings t tolerance)) ∧
    (Scalar.isPositiveFinite tolerance = true →
      ¬ settings.determinantFloor < 0 →
      ¬ (Scalar.product s.matrix.rowNorms).isFinite = true →
        FindsSingular settings s tolerance) ∧
    (Scalar.isPositiveFinite tolerance = true →
      settings.determinantFloor.isFinite = true →
      IsZero (Scalar.product s.matrix.rowNorms) →
        (FindsSingular settings s tolerance ↔
          ¬ 0 < Scalar.abs (Elimination.determinant s.matrix.toLists))) ∧
    ∀ (exact : Settings ℝ) (tolerance : ℝ),
      FindsSingular exact (exactly s) tolerance ↔
        FindsSingular exact (exactly t) tolerance := by
  have hrange : (n ≤ 3 ∨ (∀ i j, k i = k j) ∨ PivotsAgree s t) →
      RangeKept settings s → RangeKept settings t →
        (FindsSingular settings s tolerance ↔
          FindsSingular settings t tolerance) := by
    intro hpivots hs ht
    rw [findsSingular_iff, findsSingular_iff,
      isSingular_of_rangeKept h hpivots hs ht]
  refine ⟨hrange, ?_, ?_, ?_, ?_⟩
  · intro hn hfloor hs ht
    exact hrange (.inl hn) (hs.rangeKept hn hfloor) (ht.rangeKept hn hfloor)
  · intro htolerance hfloor hoverflow
    exact findsSingular_iff.mpr
      ⟨htolerance, isSingular_of_overflow hfloor hoverflow _⟩
  · intro htolerance hfloor hunderflow
    rw [findsSingular_iff, isSingular_of_underflow hfloor hunderflow]
    simp [htolerance]
  · intro exact tolerance
    have hrows : ∀ i j, (exactly t).entry i j =
        2 ^ k i * (exactly s).entry i j := by
      intro i j
      rw [entry_exactly, entry_exactly, (h i j).value_eq]
      push_cast
      exact mul_comm _ _
    rw [findsSingular_iff, findsSingular_iff,
      isSingular_mul_rows exact (fun i => zpow_ne_zero (k i) two_ne_zero) hrows]

/-- Limits of a solver. -/
def usual : Settings Float :=
  ⟨2000, 1e-12, 1e-12, 1e10⟩

/-- Four equations. -/
def fourRows : LinearSystem Float 4 :=
  ⟨#v[#v[4, 1, 0, 1], #v[1, 5, 1, 0], #v[0, 1, 6, 2], #v[2, 0, 1, 7]],
    #v[6, 7, 9, 10]⟩

/-- The same equations times `32`. -/
def magnifiedRows : LinearSystem Float 4 :=
  ⟨#v[#v[128, 32, 0, 32], #v[32, 160, 32, 0], #v[0, 32, 192, 64],
    #v[64, 0, 32, 224]], #v[192, 224, 288, 320]⟩

/-- The equation `2 ^ 600 * x = 2 ^ 600`, whose coefficient has too large a
square. -/
def hugeRow : LinearSystem Float 1 :=
  ⟨#v[#v[4.149515568880993e180]], #v[4.149515568880993e180]⟩

/-- The equation `x = 1`. -/
def unitRow : LinearSystem Float 1 :=
  ⟨#v[#v[1]], #v[1]⟩

theorem findsSingular_of_scaled_fourRows :
    RowsScaled (fun _ => 5) fourRows magnifiedRows ∧
    (FindsSingular usual fourRows 0.5 ↔ FindsSingular usual magnifiedRows 0.5) ∧
    RowsScaled (fun _ => -600) hugeRow unitRow ∧
    FindsSingular usual hugeRow 0.5 ∧ ¬ FindsSingular usual unitRow 0.5 := by
  have hscaled : RowsScaled (fun _ => 5) fourRows magnifiedRows := by
    decide +kernel
  have hkept : RangeKept usual fourRows :=
    ⟨by decide +kernel, by decide +kernel, by decide +kernel,
      (Elimination.determinantKept_iff_of_length (.inr (by decide))).mpr
        (by decide +kernel)⟩
  have hkept' : RangeKept usual magnifiedRows :=
    ⟨by decide +kernel, by decide +kernel, by decide +kernel,
      (Elimination.determinantKept_iff_of_length (.inr (by decide))).mpr
        (by decide +kernel)⟩
  have hdescended : RowsScaled (fun _ => -600) hugeRow unitRow := by
    decide +kernel
  refine ⟨hscaled,
    (findsSingular_of_scaled usual 0.5 hscaled).1 (.inr (.inl fun _ _ => rfl))
    hkept hkept', hdescended, ?_, ?_⟩
  · exact (findsSingular_of_scaled usual 0.5 hdescended).2.2.1
      (by decide +kernel)
      (by decide +kernel) (by decide +kernel)
  · rw [findsSingular_iff]
    decide +kernel

/-- From order four on, factors of single rows may change the pivots, and with
them the last digits of the determinant. -/
example :
    let given : LinearSystem Float 4 :=
      ⟨#v[#v[6, 2, -8, -7], #v[-1, -4, -6, 5], #v[6, -1, -3, 4],
        #v[4, -9, -15, 14.000000000080902]], #v[1, 1, 1, 1]⟩
    let scaled : LinearSystem Float 4 :=
      ⟨#v[#v[1.5, 0.5, -2, -1.75], #v[-0.5, -2, -3, 2.5], #v[6, -1, -3, 4],
        #v[8, -18, -30, 28.000000000161804]], #v[0.25, 0.5, 1, 2]⟩
    RowsScaled ![-2, -1, 0, 1] given scaled ∧
      isSingular usual given (Elimination.determinant given.matrix.toLists) =
        true ∧
      isSingular usual scaled (Elimination.determinant scaled.matrix.toLists) =
        false := by
  decide +kernel

end Solve

end Jacobi
end NumericalMethods
