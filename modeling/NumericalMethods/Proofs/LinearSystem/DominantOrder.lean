import NumericalMethods.Proofs.LinearSystem.Dominance

/-!
# Dominant orders the search misses

A dominant order puts every row where its diagonal entry outweighs the rest of
the row.  The search looks at one such column of every row, the first, and gives
up when two rows have the same one.  A row has a second such column only if the
two columns share its whole weight evenly, and these rows are the only reason
why a dominant order can be missed.
-/

namespace NumericalMethods
namespace LinearSystem

variable {K : Type} [Field K] [LinearOrder K] {n : ℕ}

/-- A column weighs at least as much as the rest of a row. -/
def Outweighs (s : LinearSystem K n) (i column : Fin n) : Prop :=
  s.weightOutside i column ≤ |s.entry i column|

/-- Two columns share the weight of a row evenly. -/
structure EvenlyShared (s : LinearSystem K n) (i j k : Fin n) : Prop where
  ne : j ≠ k
  abs_eq : |s.entry i j| = |s.entry i k|
  eq_zero : ∀ l, l ≠ j → l ≠ k → s.entry i l = 0

variable [ExactArithmetic K]

/-- Some order of the rows is dominant. -/
def HasDominantOrder (s : LinearSystem K n) : Prop :=
  ∃ σ : Equiv.Perm (Fin n), (s.reordered σ).isDominant = true

/-- Two rows are sent to the same column. -/
def TargetsCollide (s : LinearSystem K n) : Prop :=
  ∃ i k column, i ≠ k ∧ s.heaviest? i = some column ∧
    s.heaviest? k = some column

theorem isDominant_reordered_iff (s : LinearSystem K n)
    (σ : Equiv.Perm (Fin n)) :
    (s.reordered σ).isDominant = true ↔
      (∀ i, s.Outweighs (σ i) i) ∧
      ∃ i, s.weightOutside (σ i) i < |s.entry (σ i) i| := by
  rw [isDominant_iff]
  simp only [offDiagonal_eq_weightOutside, weightOutside_reordered,
    entry_reordered, Outweighs]

theorem hasDominantOrder_of_isDominant
    {s : LinearSystem K n} (hs : s.isDominant = true) : s.HasDominantOrder :=
  ⟨Equiv.refl _, by rwa [reordered_refl]⟩

variable [IsStrictOrderedRing K] {s : LinearSystem K n} {i j k : Fin n}

/-! ## The columns that outweigh a row -/

omit [ExactArithmetic K] [IsStrictOrderedRing K] in
theorem weightOutside_eq_add (s : LinearSystem K n) (i : Fin n) (hjk : j ≠ k) :
    s.weightOutside i j =
      |s.entry i k| + ∑ l ∈ (Finset.univ.erase j).erase k, |s.entry i l| := by
  have hk : k ∈ Finset.univ.erase j :=
    Finset.mem_erase.mpr ⟨hjk.symm, Finset.mem_univ k⟩
  rw [weightOutside, Finset.add_sum_erase _ (fun l => |s.entry i l|) hk]

omit [ExactArithmetic K] in
theorem evenlyShared_of_outweighs
    (hj : s.Outweighs i j) (hk : s.Outweighs i k) (hjk : j ≠ k) :
    s.EvenlyShared i j k := by
  rw [Outweighs, weightOutside_eq_add s i hjk] at hj
  rw [Outweighs, weightOutside_eq_add s i hjk.symm,
    Finset.erase_right_comm] at hk
  have hnonneg : ∀ l ∈ (Finset.univ.erase j).erase k, 0 ≤ |s.entry i l| :=
    fun l _ => abs_nonneg _
  have hrest := Finset.sum_nonneg hnonneg
  have hzero : ∑ l ∈ (Finset.univ.erase j).erase k, |s.entry i l| =
      0 := by linarith
  refine ⟨hjk, by linarith, ?_⟩
  intro l hlj hlk
  have hl : l ∈ (Finset.univ.erase j).erase k := by simp [hlj, hlk]
  exact abs_eq_zero.mp
    ((Finset.sum_eq_zero_iff_of_nonneg hnonneg).mp hzero l hl)

omit [ExactArithmetic K] in
/-- A column that strictly outweighs a row is the only one that outweighs it. -/
theorem Outweighs.eq_of_lt
    (hk : s.Outweighs i k) (hj : s.weightOutside i j < |s.entry i j|) :
    k = j := by
  by_contra hkj
  have hshared : s.EvenlyShared i k j := evenlyShared_of_outweighs hk hj.le hkj
  rw [weightOutside_eq_add s i (Ne.symm hkj), hshared.abs_eq] at hj
  have hrest : 0 ≤ ∑ l ∈ (Finset.univ.erase j).erase k, |s.entry i l| :=
    Finset.sum_nonneg fun l _ => abs_nonneg _
  linarith

theorem outweighs_of_heaviest (hj : s.heaviest? i = some j) : s.Outweighs i j :=
  (rowSum_le_iff s i j).mp (rowSum_le_of_heaviest hj)

theorem exists_heaviest_of_outweighs (hj : s.Outweighs i j) :
    ∃ column, s.heaviest? i = some column := by
  rw [← Option.isSome_iff_exists, heaviest?, List.find?_isSome]
  exact ⟨j, List.mem_finRange j, decide_eq_true ((rowSum_le_iff s i j).mpr hj)⟩

/-! ## What the search finds -/

theorem hasDominantOrder_of_dominantPermutation_eq_some
    {target : List (Fin n)} (htarget : s.dominantPermutation = some target) :
    s.HasDominantOrder := by
  have hmoved := isDominant_permuted htarget
  obtain ⟨σ, rfl, -⟩ := dominantPermutation_eq_some_iff.mp htarget
  rw [permuted_ofFn] at hmoved
  exact ⟨σ.symm, hmoved⟩

/-- A dominant order is found if there is one and no two rows have the same
first column. -/
theorem exists_dominantPermutation_iff (s : LinearSystem K n) :
    (∃ target, s.dominantPermutation = some target) ↔
      s.HasDominantOrder ∧ ¬ s.TargetsCollide := by
  constructor
  · rintro ⟨target, htarget⟩
    refine ⟨hasDominantOrder_of_dominantPermutation_eq_some htarget, ?_⟩
    rintro ⟨i, k, column, hik, hi, hk⟩
    obtain ⟨σ, -, hheaviest, -⟩ := dominantPermutation_eq_some_iff.mp htarget
    rw [hheaviest, Option.some.injEq] at hi hk
    exact hik (σ.injective (hi.trans hk.symm))
  · rintro ⟨⟨σ, hσ⟩, hdistinct⟩
    obtain ⟨houtweighs, m, hstrict⟩ := (isDominant_reordered_iff s σ).mp hσ
    have hfirst : ∀ i, ∃ column, s.heaviest? i = some column := by
      intro i
      have hi := houtweighs (σ.symm i)
      rw [Equiv.apply_symm_apply] at hi
      exact exists_heaviest_of_outweighs hi
    choose first hheaviest using hfirst
    have hinjective : Function.Injective first := by
      intro i k hik
      by_contra hne
      exact hdistinct ⟨i, k, first k, hne, hik ▸ hheaviest i, hheaviest k⟩
    refine ⟨List.ofFn first, dominantPermutation_eq_some_iff.mpr
      ⟨Equiv.ofBijective first (Finite.injective_iff_bijective.mp hinjective),
        rfl, hheaviest, σ m, ?_⟩⟩
    have hm : first (σ m) = m :=
      (outweighs_of_heaviest (hheaviest (σ m))).eq_of_lt hstrict
    rw [Equiv.ofBijective_apply, rowSum_lt_iff, hm]
    exact hstrict

/-- A dominant order sends at most one of two rows to their common column, so
the other one is shared evenly. -/
theorem exists_evenlyShared_of_targetsCollide
    (hs : s.HasDominantOrder) (hcollide : s.TargetsCollide) :
    ∃ i j k, s.EvenlyShared i j k ∧ s.heaviest? i = some j := by
  obtain ⟨σ, hσ⟩ := hs
  obtain ⟨houtweighs, -⟩ := (isDominant_reordered_iff s σ).mp hσ
  obtain ⟨i, k, column, hik, hi, hk⟩ := hcollide
  have hshared : ∀ row, s.heaviest? row = some column → column ≠ σ.symm row →
      s.EvenlyShared row column (σ.symm row) := by
    intro row hrow hne
    have hother := houtweighs (σ.symm row)
    rw [Equiv.apply_symm_apply] at hother
    exact evenlyShared_of_outweighs (outweighs_of_heaviest hrow) hother hne
  by_cases hplace : column = σ.symm i
  · have hother : column ≠ σ.symm k :=
      fun h => hik (σ.symm.injective (hplace.symm.trans h))
    exact ⟨k, column, σ.symm k, hshared k hk hother, hk⟩
  · exact ⟨i, column, σ.symm i, hshared i hi hplace, hi⟩

end LinearSystem

/-! ## The warning -/

namespace Jacobi

variable {K : Type} [Field K] [LinearOrder K] [ExactArithmetic K] {n : ℕ}

theorem dominanceNotReached_mem_iff
    {settings : Settings K} {s : LinearSystem K n} {tolerance : K}
    {r : LinearSolveResult K} (hr : solve settings s tolerance = .ok r) :
    .diagonalDominanceNotReached ∈ r.warnings ↔
      ¬ (s.isDominant = true ∨ ∃ target,
        s.dominantPermutation = some target) := by
  obtain ⟨run, rfl⟩ := exists_eq_result_of_solve_eq_ok hr
  have harrange : .diagonalDominanceNotReached ∈ (result settings
      (Elimination.determinant s.matrix.toLists) (arrange s) run).warnings ↔
        .diagonalDominanceNotReached ∈ (arrange s).warnings := by
    rw [result, List.mem_append]
    by_cases hsettled : run.settled = true
    · simp [hsettled]
    · simp [hsettled]
  rw [harrange, arrange]
  by_cases hdominant : s.isDominant = true
  · simp [hdominant]
  · rw [if_neg hdominant]
    cases s.dominantPermutation with
    | none => simp [hdominant]
    | some target => simp

variable [IsStrictOrderedRing K]

/-- The warning does not say that no order of the rows is dominant.  It is
attached when the given order is not dominant and either there is no dominant
order or two rows have the same first column that outweighs them.  In the second
case one of the rows is shared evenly by two columns, and without such a row the
warning is attached exactly when there is no dominant order. -/
theorem dominanceNotReached_iff
    {settings : Settings K} {s : LinearSystem K n} {tolerance : K}
    {r : LinearSolveResult K} (hr : solve settings s tolerance = .ok r) :
    (.diagonalDominanceNotReached ∈ r.warnings ↔
      s.isDominant = false ∧ (¬ s.HasDominantOrder ∨ s.TargetsCollide)) ∧
    (.diagonalDominanceNotReached ∈ r.warnings → s.HasDominantOrder →
      ∃ i j k, s.EvenlyShared i j k ∧ s.heaviest? i = some j) ∧
    ((∀ i j k, ¬ s.EvenlyShared i j k) →
      (.diagonalDominanceNotReached ∈ r.warnings ↔ ¬ s.HasDominantOrder) ∧
      (s.isDominant = true ∨ (∃ target, s.dominantPermutation = some target) ↔
        s.HasDominantOrder)) := by
  have hwarning := dominanceNotReached_mem_iff hr
  have hfound := s.exists_dominantPermutation_iff
  have hexact : .diagonalDominanceNotReached ∈ r.warnings ↔
      s.isDominant = false ∧ (¬ s.HasDominantOrder ∨ s.TargetsCollide) := by
    rw [hwarning, hfound, not_or, Bool.not_eq_true, not_and_or, not_not]
  refine ⟨hexact, ?_, ?_⟩
  · intro hmem hs
    obtain ⟨-, hmissed⟩ := hexact.mp hmem
    exact LinearSystem.exists_evenlyShared_of_targetsCollide hs
      (hmissed.resolve_left (not_not.mpr hs))
  · intro hshared
    have hreached : s.isDominant = true ∨
        (∃ target, s.dominantPermutation = some target) ↔
        s.HasDominantOrder := by
      constructor
      · rintro (hdominant | ⟨target, htarget⟩)
        · exact LinearSystem.hasDominantOrder_of_isDominant hdominant
        · exact LinearSystem.hasDominantOrder_of_dominantPermutation_eq_some
            htarget
      · intro hs
        refine .inr (hfound.mpr ⟨hs, fun hcollide => ?_⟩)
        obtain ⟨i, j, k, hi, -⟩ :=
          LinearSystem.exists_evenlyShared_of_targetsCollide hs hcollide
        exact hshared i j k hi
    exact ⟨hwarning.trans (not_congr hreached), hreached⟩

/-- Two equations whose exchange is dominant.  The first one is shared evenly by
its unknowns, and both have the first unknown as their first choice. -/
def tied : LinearSystem ℚ 2 :=
  ⟨#v[#v[1, 1], #v[4, 1]], #v[2, 5]⟩

/-- Limits under which five sweeps are made of them. -/
def fiveSweeps : Settings ℚ :=
  ⟨5, 1 / 100, 1 / 100, 100⟩

theorem dominanceNotReached_iff_tied :
    ∃ r, solve fiveSweeps tied (1 / 5) = .ok r ∧
      .diagonalDominanceNotReached ∈ r.warnings ∧ tied.HasDominantOrder ∧
      ∃ i j k, tied.EvenlyShared i j k ∧ tied.heaviest? i = some j := by
  have hsolved : (solve fiveSweeps tied (1 / 5)).toOption.map (·.permutation) =
      some [0, 1] := by
    decide +kernel
  have hgiven : tied.isDominant = false := by decide +kernel
  have hexchanged : tied.HasDominantOrder := ⟨Equiv.swap 0 1, by decide +kernel⟩
  have hcollide : tied.TargetsCollide :=
    ⟨0, 1, 0, by decide, by decide +kernel, by decide +kernel⟩
  obtain ⟨r, hr, -⟩ := exists_eq_ok_of_map_eq_some hsolved
  obtain ⟨hexact, hshared, -⟩ := dominanceNotReached_iff hr
  have hmem := hexact.mpr ⟨hgiven, .inr hcollide⟩
  exact ⟨r, hr, hmem, hexchanged, hshared hmem hexchanged⟩

/-- The exchanged rows are dominant, but the search does not find their order,
and the warning is attached. -/
theorem dominantOrder_missed_tied :
    tied.HasDominantOrder ∧ tied.isDominant = false ∧
      tied.dominantPermutation = none ∧
      ∃ r, solve fiveSweeps tied (1 / 5) = .ok r ∧
        .diagonalDominanceNotReached ∈ r.warnings := by
  have hwarned : (solve fiveSweeps tied (1 / 5)).toOption.map
      (fun r => decide (.diagonalDominanceNotReached ∈ r.warnings)) =
        some true := by
    decide +kernel
  obtain ⟨r, hr, hmem⟩ := exists_eq_ok_of_map_eq_some hwarned
  have hexchanged : tied.HasDominantOrder := ⟨Equiv.swap 0 1, by decide +kernel⟩
  have hgiven : tied.isDominant = false := by decide +kernel
  have hmissed : tied.dominantPermutation = none := by decide +kernel
  exact ⟨hexchanged, hgiven, hmissed, r, hr, of_decide_eq_true hmem⟩

end Jacobi
end NumericalMethods
