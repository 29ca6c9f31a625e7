import Mathlib.Data.Fintype.Card
import NumericalMethods.LinearSystem.Jacobi
import NumericalMethods.Proofs.LinearSystem.Basic

/-!
# The order of the rows

Moving the rows of a system to distinct places neither loses nor repeats an
equation.  The system an iteration works on has therefore the same solutions as
the system that was given.
-/

namespace NumericalMethods

theorem forall₂_of_mapM_eq_some
    {α β : Type} {f : α → Option β} {xs : List α} {ys : List β}
    (h : xs.mapM f = some ys) :
    List.Forall₂ (fun x y => f x = some y) xs ys := by
  induction xs generalizing ys with
  | nil =>
      obtain rfl : [] = ys := by simpa using h
      exact .nil
  | cons x xs ih =>
      rw [List.mapM_cons] at h
      simp only [Option.bind_eq_bind, Option.bind_eq_some_iff, Option.pure_def,
        Option.some.injEq] at h
      obtain ⟨y, hy, ys', hys', rfl⟩ := h
      exact .cons hy (ih hys')

namespace LinearSystem

section

variable {α : Type} {n : ℕ}

/-- The system `moved` with row `i` of `s` in place of row `j`. -/
def place (s moved : LinearSystem α n) (i j : Fin n) : LinearSystem α n where
  matrix := moved.matrix.set j (s.matrix.get i) j.isLt
  rhs := moved.rhs.set j (s.rhs.get i) j.isLt

/-- Row `j` of one system is row `i` of another. -/
def SameRow (s t : LinearSystem α n) (i j : Fin n) : Prop :=
  t.matrix.get j = s.matrix.get i ∧ t.rhs.get j = s.rhs.get i

theorem sameRow_place (s moved : LinearSystem α n) (i j : Fin n) :
    s.SameRow (s.place moved i j) i j :=
  ⟨Vector.getElem_set_self j.isLt, Vector.getElem_set_self j.isLt⟩

theorem sameRow_place_of_ne
    (s moved : LinearSystem α n) {i j k : Fin n} (hjk : j ≠ k) :
    moved.SameRow (s.place moved i j) k k := by
  have hne : (j : ℕ) ≠ k := fun h => hjk (Fin.ext h)
  exact ⟨Vector.getElem_set_ne j.isLt k.isLt hne,
    Vector.getElem_set_ne j.isLt k.isLt hne⟩

/-- Rows moved to distinct places stay there, and no other place changes. -/
theorem sameRow_foldl_place
    (s : LinearSystem α n) {moves : List (Fin n × Fin n)}
    (hnodup : (moves.map Prod.snd).Nodup) (moved : LinearSystem α n) :
    (∀ move ∈ moves, s.SameRow
      (moves.foldl (fun t move => s.place t move.1 move.2) moved)
        move.1 move.2) ∧
    ∀ k ∉ moves.map Prod.snd, moved.SameRow
      (moves.foldl (fun t move => s.place t move.1 move.2) moved) k k := by
  induction moves generalizing moved with
  | nil => exact ⟨by simp, fun k _ => ⟨rfl, rfl⟩⟩
  | cons first moves ih =>
      rw [List.map_cons, List.nodup_cons] at hnodup
      obtain ⟨hmoved, hothers⟩ := ih hnodup.2 (s.place moved first.1 first.2)
      constructor
      · intro move hmove
        rcases List.mem_cons.mp hmove with rfl | hmove
        · obtain ⟨hmatrix, hrhs⟩ := hothers move.2 hnodup.1
          obtain ⟨hmatrix', hrhs'⟩ := sameRow_place s moved move.1 move.2
          exact ⟨hmatrix.trans hmatrix', hrhs.trans hrhs'⟩
        · exact hmoved move hmove
      · intro k hk
        rw [List.map_cons, List.mem_cons, not_or] at hk
        obtain ⟨hmatrix, hrhs⟩ := hothers k hk.2
        obtain ⟨hmatrix', hrhs'⟩ :=
          sameRow_place_of_ne s moved (i := first.1) (Ne.symm hk.1)
        exact ⟨hmatrix.trans hmatrix', hrhs.trans hrhs'⟩

/-- Every place is the target of a row. -/
theorem exists_getElem?_eq_of_nodup
    {target : List (Fin n)} (hlength : target.length = n)
    (hnodup : target.Nodup) (j : Fin n) :
    ∃ i : Fin n, target[(i : ℕ)]? = some j := by
  have hcard : target.toFinset = Finset.univ := by
    rw [← Finset.card_eq_iff_eq_univ,
      List.toFinset_card_of_nodup hnodup, hlength, Fintype.card_fin]
  have hmem : j ∈ target := by
    rw [← List.mem_toFinset, hcard]
    exact Finset.mem_univ j
  obtain ⟨i, hi⟩ := List.mem_iff_getElem?.mp hmem
  have hlt : i < n := by
    rw [← hlength]
    exact (List.getElem?_eq_some_iff.mp hi).1
  exact ⟨⟨i, hlt⟩, hi⟩

variable [Scalar α]

/-- Every row of a system is found at its target. -/
theorem sameRow_permuted
    (s : LinearSystem α n) {target : List (Fin n)}
    (hlength : target.length = n) (hnodup : target.Nodup)
    {i j : Fin n} (hij : target[(i : ℕ)]? = some j) :
    s.SameRow (s.permuted target) i j := by
  have hplaces : ((List.finRange n).zip target).map Prod.snd = target :=
    List.map_snd_zip (by simp [hlength])
  have hmem : (i, j) ∈ (List.finRange n).zip target := by
    refine List.mem_iff_getElem?.mpr ⟨i, ?_⟩
    rw [List.getElem?_zip_eq_some]
    exact ⟨by simp, hij⟩
  rw [← hplaces] at hnodup
  exact (sameRow_foldl_place s hnodup zero).1 (i, j) hmem

theorem length_nodup_of_dominantPermutation_eq_some
    {s : LinearSystem α n} {target : List (Fin n)}
    (htarget : s.dominantPermutation = some target) :
    target.length = n ∧ target.Nodup := by
  rw [dominantPermutation] at htarget
  split at htarget
  · cases htarget
  · rename_i found hfound
    dsimp only at htarget
    split at htarget
    · rename_i hcheck
      obtain rfl := Option.some.inj htarget
      rw [Bool.and_eq_true, decide_eq_true_eq] at hcheck
      have hlength := (forall₂_of_mapM_eq_some hfound).length_eq
      rw [List.length_finRange] at hlength
      exact ⟨hlength.symm, hcheck.2⟩
    · cases htarget

end

variable {K : Type} [Field K] [LinearOrder K] [ExactArithmetic K] {n : ℕ}

/-- The equation at the target of a row is the equation of that row. -/
theorem solves_permuted_iff
    (s : LinearSystem K n) {target : List (Fin n)}
    (hlength : target.length = n) (hnodup : target.Nodup) {x : Fin n → K} :
    (s.permuted target).Solves x ↔ s.Solves x := by
  have hrow : ∀ i j : Fin n, target[(i : ℕ)]? = some j →
      ((∑ k, (s.permuted target).entry j k * x k =
        (s.permuted target).rhs.get j) ↔
        ∑ k, s.entry i k * x k = s.rhs.get i) := by
    intro i j hij
    obtain ⟨hmatrix, hrhs⟩ := sameRow_permuted s hlength hnodup hij
    simp only [LinearSystem.entry, Grid.entry, hmatrix, hrhs]
  constructor
  · intro hx i
    have hi : (i : ℕ) < target.length := by rw [hlength]; exact i.isLt
    exact (hrow i _ (List.getElem?_eq_getElem hi)).mp (hx _)
  · intro hx j
    obtain ⟨i, hij⟩ := exists_getElem?_eq_of_nodup hlength hnodup j
    exact (hrow i j hij).mpr (hx i)

end LinearSystem

/-- The arranged system has the solutions of the system that was given. -/
theorem Jacobi.solves_arrange_iff
    {K : Type} [Field K] [LinearOrder K] [ExactArithmetic K] {n : ℕ}
    (s : LinearSystem K n) {x : Fin n → K} :
    (Jacobi.arrange s).system.Solves x ↔ s.Solves x := by
  rw [Jacobi.arrange]
  split
  · rfl
  · split
    · rename_i target htarget
      obtain ⟨hlength, hnodup⟩ :=
        LinearSystem.length_nodup_of_dominantPermutation_eq_some htarget
      exact LinearSystem.solves_permuted_iff s hlength hnodup
    · rfl

end NumericalMethods
