import Mathlib.Algebra.BigOperators.Fin
import Mathlib.Data.List.GetD
import Mathlib.Data.List.Perm.Basic
import Mathlib.Tactic.FieldSimp
import Mathlib.Tactic.LinearCombination
import NumericalMethods.LinearSystem.Elimination
import NumericalMethods.Proofs.Exact.Basic

/-!
# Elimination solves nonsingular systems

A row of coefficients and right-hand side annihilates a column of unknowns,
extended by minus one, exactly when the unknowns satisfy its equation.  A step
of the elimination keeps the columns that all rows annihilate.  If the
coefficients alone annihilate nothing but zero, no pivot vanishes, and
substitution from the last row upwards finds the unknowns.
-/

namespace NumericalMethods
namespace Elimination

/-! ## The choice of the pivot -/

/-- An entry of a list changes places with the one in front of it. -/
theorem exchange_perm {β : Type} (first : β) {rest : List β} {k : ℕ}
    (hk : k < rest.length) :
    (rest[k] :: rest.set k first).Perm (first :: rest) :=
  ((List.set_perm_cons_eraseIdx hk first).cons _).trans <|
    (List.Perm.swap _ _ _).trans ((List.getElem_cons_eraseIdx_perm hk).cons _)

section Pivot

variable {α : Type} [Scalar α]

/-- The row which a step of the elimination works with. -/
def pivotRow (first : List α) (rest : List (List α)) : List α :=
  let k := pivotIndex (Scalar.abs (lead first)) rest
  if k != 0 then rest.getD (k - 1) first else first

/-- The rows it works on. -/
def otherRows (first : List α) (rest : List (List α)) : List (List α) :=
  let k := pivotIndex (Scalar.abs (lead first)) rest
  if k != 0 then rest.set (k - 1) first else rest

/-- What it makes of them. -/
def reducedRows (first : List α) (rest : List (List α)) : List (List α) :=
  let pivot := pivotRow first rest
  if lead pivot == 0 then (otherRows first rest).map List.tail
  else (otherRows first rest).map (eliminate pivot.tail (1 / lead pivot))

theorem rows_reduce_cons (count : ℕ) (first : List α) (rest : List (List α)) :
    (reduce (count + 1) (first :: rest)).rows =
      pivotRow first rest :: (reduce count (reducedRows first rest)).rows :=
  rfl

theorem odd_reduce_cons (count : ℕ) (first : List α) (rest : List (List α)) :
    (reduce (count + 1) (first :: rest)).odd =
      ((reduce count (reducedRows first rest)).odd ^^
        pivotIndex (Scalar.abs (lead first)) rest != 0) :=
  rfl

/-- The candidate found among the first rows. -/
def search (best : α) (rows : List (List α)) : ℕ × α :=
  rows.zipIdx.foldl
    (fun (found : ℕ × α) (row, i) =>
      let magnitude := Scalar.abs (lead row)
      if found.2 < magnitude then (i + 1, magnitude) else found)
    (0, best)

theorem search_concat (best : α) (rows : List (List α)) (row : List α) :
    search best (rows ++ [row]) =
      if (search best rows).2 < Scalar.abs (lead row)
        then (rows.length + 1, Scalar.abs (lead row))
          else search best rows := by
  simp only [search, List.zipIdx_append, List.foldl_append,
    List.zipIdx_singleton, List.foldl_cons, List.foldl_nil, Nat.zero_add]
  rfl

theorem search_fst_le_length (best : α) (rows : List (List α)) :
    (search best rows).1 ≤ rows.length := by
  induction rows using List.reverseRecOn with
  | nil => simp [search]
  | append_singleton rows row ih =>
      rw [search_concat, List.length_append]
      split
      · simp
      · omega

theorem pivotIndex_le_length (best : α) (rows : List (List α)) :
    pivotIndex best rows ≤ rows.length :=
  search_fst_le_length best rows

/-- The rows only change places. -/
theorem pivotRow_cons_perm (first : List α) (rest : List (List α)) :
    (pivotRow first rest :: otherRows first rest).Perm (first :: rest) := by
  have hindex := pivotIndex_le_length (Scalar.abs (lead first)) rest
  simp only [pivotRow, otherRows]
  by_cases hk : pivotIndex (Scalar.abs (lead first)) rest = 0
  · simp [hk]
  · have hlt : pivotIndex (Scalar.abs (lead first)) rest - 1 <
        rest.length := by omega
    simp only [bne_iff_ne, ne_eq, hk, not_false_eq_true, if_true,
      List.getD_eq_getElem _ _ hlt]
    exact exchange_perm first hlt

end Pivot

section PivotExact

variable {K : Type} [Field K] [LinearOrder K] [ExactArithmetic K]

/-- The search remembers the largest magnitude, and points at its row, or
at none. -/
theorem search_spec (best : K) (rows : List (List K)) :
    ((search best rows).1 = 0 → (search best rows).2 = best) ∧
    (∀ row, (search best rows).1 ≠ 0 →
      rows[(search best rows).1 - 1]? = some row →
      |lead row| = (search best rows).2) ∧
    best ≤ (search best rows).2 ∧
    ∀ row ∈ rows, |lead row| ≤ (search best rows).2 := by
  induction rows using List.reverseRecOn with
  | nil => simp [search]
  | append_singleton rows row ih =>
      obtain ⟨hnone, hsome, hbest, hrows⟩ := ih
      have hindex := search_fst_le_length best rows
      rw [search_concat, Scalar.abs_eq_abs]
      split
      · rename_i hlarger
        refine ⟨by simp, ?_, hbest.trans hlarger.le, ?_⟩
        · intro found _ hfound
          obtain rfl : row = found := by simpa using hfound
          rfl
        · intro other hother
          rcases List.mem_append.mp hother with hother | hother
          · exact (hrows other hother).trans hlarger.le
          · rw [List.mem_singleton.mp hother]
      · rename_i hsmaller
        refine ⟨hnone, ?_, hbest, ?_⟩
        · intro found hne hfound
          refine hsome found hne ?_
          rwa [List.getElem?_append_left (by omega)] at hfound
        · intro other hother
          rcases List.mem_append.mp hother with hother | hother
          · exact hrows other hother
          · rw [List.mem_singleton.mp hother]
            exact not_lt.mp hsmaller

/-- No row has a leading entry of larger magnitude than the pivot. -/
theorem abs_lead_le_abs_lead_pivotRow
    (first : List K) (rest : List (List K)) {row : List K}
    (hrow : row ∈ first :: rest) :
    |lead row| ≤ |lead (pivotRow first rest)| := by
  obtain ⟨hnone, hsome, hbest, hrows⟩ := search_spec |lead first| rest
  have hindex := search_fst_le_length |lead first| rest
  have hpivot : |lead (pivotRow first rest)| =
      (search |lead first| rest).2 := by
    have hk : pivotIndex |lead first| rest = (search |lead first| rest).1 := rfl
    simp only [pivotRow, Scalar.abs_eq_abs, hk]
    by_cases hzero : (search |lead first| rest).1 = 0
    · rw [hnone hzero]
      simp [hzero]
    · have hlt : (search |lead first| rest).1 - 1 < rest.length := by omega
      simp only [bne_iff_ne, ne_eq, hzero, not_false_eq_true, if_true,
        List.getD_eq_getElem _ _ hlt]
      exact hsome _ hzero (List.getElem?_eq_getElem hlt)
  rw [hpivot]
  rcases List.mem_cons.mp hrow with rfl | hrow
  · exact hbest
  · exact hrows row hrow

end PivotExact

/-! ## Rows and the columns they annihilate -/

section Dot

variable {K : Type} [Field K]

/-- The product of a row with a column. -/
def dot (row column : List K) : K :=
  (List.zipWith (· * ·) row column).sum

@[simp]
theorem dot_cons (a v : K) (row column : List K) :
    dot (a :: row) (v :: column) = a * v + dot row column := by
  simp [dot]

@[simp]
theorem dot_nil_left (column : List K) : dot [] column = 0 := by
  simp [dot]

@[simp]
theorem dot_nil_right (row : List K) : dot row [] = 0 := by
  simp [dot]

theorem dot_eq_lead_mul_add [LinearOrder K] [ExactArithmetic K]
    {row : List K} (hrow : row ≠ []) (v : K) (column : List K) :
    dot row (v :: column) = lead row * v + dot row.tail column := by
  cases row with
  | nil => exact absurd rfl hrow
  | cons a row => exact dot_cons a v row column

theorem dot_zipWith
    (m : K) {pivot row : List K} (hlength : pivot.length = row.length)
    (column : List K) :
    dot (List.zipWith (fun p a => -p * m + a) pivot row) column =
      dot row column - m * dot pivot column := by
  induction pivot generalizing row column with
  | nil =>
      obtain rfl : row = [] := List.eq_nil_of_length_eq_zero hlength.symm
      simp
  | cons p pivot ih =>
      cases row with
      | nil => simp at hlength
      | cons a row =>
          cases column with
          | nil => simp
          | cons v column =>
              rw [List.zipWith_cons_cons, dot_cons, dot_cons, dot_cons,
                ih (by simpa using hlength)]
              ring

theorem dot_append_singleton
    {row column : List K} (hlength : row.length = column.length) (a v : K) :
    dot (row ++ [a]) (column ++ [v]) = dot row column + a * v := by
  simp [dot, List.zipWith_append hlength]

theorem dot_ofFn {n : ℕ} (row column : Fin n → K) :
    dot (List.ofFn row) (List.ofFn column) = ∑ j, row j * column j := by
  have hterms : List.zipWith (· * ·) (List.ofFn row) (List.ofFn column) =
      List.ofFn fun j => row j * column j :=
    List.ext_getElem (by simp) fun j _ _ => by simp
  rw [dot, hterms, List.sum_ofFn]

theorem dot_eq_zero_of_forall (row : List K) {column : List K}
    (hzero : ∀ v ∈ column, v = 0) :
    dot row column = 0 := by
  induction row generalizing column with
  | nil => simp
  | cons a row ih =>
      cases column with
      | nil => simp
      | cons v column =>
          rw [dot_cons, hzero v List.mem_cons_self, mul_zero, zero_add]
          exact ih fun w hw => hzero w (List.mem_cons_of_mem _ hw)

theorem dot_concat
    {row column : List K} (hlength : row.length = column.length + 1) (v : K) :
    dot row (column ++ [v]) = dot row column + row.getLastD 0 * v := by
  induction column generalizing row with
  | nil =>
      obtain ⟨a, rfl⟩ := List.length_eq_one_iff.mp hlength
      simp
  | cons c column ih =>
      cases row with
      | nil => simp at hlength
      | cons a row =>
          have hrow : row ≠ [] :=
            List.ne_nil_of_length_pos (by simp at hlength; omega)
          rw [List.cons_append, dot_cons, dot_cons, ih (by simpa using hlength)]
          obtain ⟨b, row, rfl⟩ := List.exists_cons_of_ne_nil hrow
          simp [List.getLastD]
          ring

end Dot

section Solve

variable {K : Type} [Field K] [LinearOrder K] [ExactArithmetic K]

theorem dot_eliminate
    {pivot row : List K} (hpivot : lead pivot ≠ 0)
    (hlength : pivot.length = row.length) (hne : row ≠ []) {v : K}
    {column : List K} (hzero : dot pivot (v :: column) = 0) :
    dot (eliminate pivot.tail (1 / lead pivot) row) column =
      dot row (v :: column) := by
  have hpivotNe : pivot ≠ [] := by
    rintro rfl
    exact hne (List.eq_nil_of_length_eq_zero hlength.symm)
  rw [dot_eq_lead_mul_add hpivotNe] at hzero
  have htails : pivot.tail.length = row.tail.length := by simp [hlength]
  rw [eliminate, dot_zipWith _ htails, dot_eq_lead_mul_add hne]
  have hv : v = -dot pivot.tail column / lead pivot := by
    field_simp
    linear_combination hzero
  rw [hv]
  ring

/-! ## One step -/

/-- The coefficients of the rows annihilate nothing but zero.  The entries for
the right-hand sides do not count. -/
def Nonsingular (n : ℕ) (rows : List (List K)) : Prop :=
  ∀ column : List K, column.length = n →
    (∀ row ∈ rows, dot row (column ++ [0]) = 0) → ∀ v ∈ column, v = 0

section Step

variable {first : List K} {rest : List (List K)} {n : ℕ}

theorem reducedRows_of_lead_ne_zero (hpivot : lead (pivotRow first rest) ≠ 0) :
    reducedRows first rest =
      (otherRows first rest).map
        (eliminate (pivotRow first rest).tail
          (1 / lead (pivotRow first rest))) := by
  simp [reducedRows, hpivot]

theorem length_reducedRows (first : List K) (rest : List (List K)) :
    (reducedRows first rest).length = rest.length := by
  have hperm := (pivotRow_cons_perm first rest).length_eq
  rw [List.length_cons, List.length_cons, Nat.add_right_cancel_iff] at hperm
  rw [reducedRows, ← hperm]
  split <;> rw [List.length_map]

theorem length_of_mem_reducedRows
    (hpivot : lead (pivotRow first rest) ≠ 0)
    (hlength : ∀ row ∈ first :: rest, row.length = n + 1) :
    ∀ row ∈ reducedRows first rest, row.length = n := by
  intro row hrow
  rw [reducedRows_of_lead_ne_zero hpivot] at hrow
  obtain ⟨other, hother, rfl⟩ := List.mem_map.mp hrow
  have hperm := pivotRow_cons_perm first rest
  have hotherLength :=
    hlength other (hperm.subset (List.mem_cons_of_mem _ hother))
  have hpivotLength := hlength _ (hperm.subset List.mem_cons_self)
  simp [eliminate, hotherLength, hpivotLength]

/-- A column that the pivot annihilates is annihilated by all rows if what
remains of it is annihilated by the reduced ones. -/
theorem dot_eq_zero_iff_reducedRows
    (hpivot : lead (pivotRow first rest) ≠ 0)
    (hlength : ∀ row ∈ first :: rest, row.length = n + 1)
    {v : K} {column : List K}
    (hzero : dot (pivotRow first rest) (v :: column) = 0) :
    (∀ row ∈ first :: rest, dot row (v :: column) = 0) ↔
      ∀ row ∈ reducedRows first rest, dot row column = 0 := by
  have hperm := pivotRow_cons_perm first rest
  have hpivotLength := hlength _ (hperm.subset List.mem_cons_self)
  have heliminate : ∀ row ∈ otherRows first rest,
      dot (eliminate (pivotRow first rest).tail (1 / lead (pivotRow first rest))
        row) column =
        dot row (v :: column) := by
    intro row hrow
    have hrowLength := hlength row (hperm.subset (List.mem_cons_of_mem _ hrow))
    exact dot_eliminate hpivot (hpivotLength.trans hrowLength.symm)
      (List.ne_nil_of_length_pos (by omega)) hzero
  rw [reducedRows_of_lead_ne_zero hpivot]
  constructor
  · intro h row hrow
    obtain ⟨other, hother, rfl⟩ := List.mem_map.mp hrow
    rw [heliminate other hother]
    exact h other (hperm.subset (List.mem_cons_of_mem _ hother))
  · intro h row hrow
    rcases List.mem_cons.mp (hperm.symm.subset hrow) with rfl | hrow
    · exact hzero
    · rw [← heliminate row hrow]
      exact h _ (List.mem_map_of_mem hrow)

variable [IsStrictOrderedRing K]

/-- The pivot of nonsingular rows does not vanish: otherwise all leading entries
did, and the first unknown could be chosen freely. -/
theorem Nonsingular.lead_pivotRow_ne_zero
    (h : Nonsingular (n + 1) (first :: rest))
    (hlength : ∀ row ∈ first :: rest, row.length = n + 2) :
    lead (pivotRow first rest) ≠ 0 := by
  intro hpivot
  have hannihilates : ∀ row ∈ first :: rest,
      dot row ((1 :: List.replicate n 0) ++ [0]) = 0 := by
    intro row hrow
    have hlead : lead row = 0 := by
      have habs := abs_lead_le_abs_lead_pivotRow first rest hrow
      rw [hpivot, abs_zero] at habs
      exact abs_nonpos_iff.mp habs
    have hne : row ≠ [] :=
      List.ne_nil_of_length_pos (by rw [hlength row hrow]; omega)
    have hzeros : dot row.tail (List.replicate n 0 ++ [0]) = 0 := by
      rw [← List.replicate_succ']
      exact dot_eq_zero_of_forall _ fun v hv => List.eq_of_mem_replicate hv
    rw [List.cons_append, dot_eq_lead_mul_add hne, hlead, hzeros]
    ring
  have hone :=
    h (1 :: List.replicate n 0) (by simp) hannihilates 1 List.mem_cons_self
  exact one_ne_zero hone

/-- The reduced rows determine all unknowns but the first, and the pivot
determines that one. -/
theorem Nonsingular.reducedRows
    (h : Nonsingular (n + 1) (first :: rest))
    (hlength : ∀ row ∈ first :: rest, row.length = n + 2) :
    Nonsingular n (reducedRows first rest) := by
  intro column hcolumn hzero v hv
  have hpivot := h.lead_pivotRow_ne_zero hlength
  have hne : pivotRow first rest ≠ [] := by
    intro hnil
    exact hpivot (by rw [hnil, lead, List.headD_nil])
  let t :=
    -dot (pivotRow first rest).tail (column ++ [0]) / lead (pivotRow first rest)
  have ht : dot (pivotRow first rest) (t :: (column ++ [0])) = 0 := by
    rw [dot_eq_lead_mul_add hne]
    simp only [t]
    field_simp
    ring
  have hall := (dot_eq_zero_iff_reducedRows hpivot hlength ht).mpr hzero
  exact h (t :: column) (by simp [hcolumn]) hall v (List.mem_cons_of_mem _ hv)

end Step

/-! ## Substitution -/

omit [LinearOrder K] [ExactArithmetic K] in
theorem foldr_sub_eq (tail xs : List K) (b : K) :
    (tail.zip xs).foldr (fun (u, x) b => -x * u + b) b = b - dot tail xs := by
  induction tail generalizing xs with
  | nil => simp
  | cons u tail ih =>
      cases xs with
      | nil => simp
      | cons x xs =>
          rw [List.zip_cons_cons, List.foldr_cons, ih, dot_cons]
          ring

/-- Substitution finds the unknown on the diagonal of a row. -/
theorem backSubstitute_cons
    {row : List K} {below : List (List K)} {xs : List K}
    (hlead : lead row ≠ 0) (hlength : row.length = xs.length + 2)
    (hbelow : backSubstitute below = some xs) :
    ∃ x, backSubstitute (row :: below) = some (x :: xs) ∧
      dot row ((x :: xs) ++ [-1]) = 0 := by
  cases row with
  | nil => simp at hlength
  | cons d tail =>
      have hd : d ≠ 0 := hlead
      have htail : tail.length = xs.length + 1 := by simpa using hlength
      refine ⟨(tail.getLastD 0 - dot tail xs) / d, ?_, ?_⟩
      · simp only [backSubstitute, hbelow, beq_iff_eq, hd, if_false,
          foldr_sub_eq]
      · rw [List.cons_append, dot_cons, dot_concat htail]
        field_simp
        ring

variable [IsStrictOrderedRing K]

/-- Elimination finds the unknowns of nonsingular rows. -/
theorem exists_backSubstitute_reduce_eq_some
    {n : ℕ} {rows : List (List K)}
    (hcount : rows.length = n) (hlength : ∀ row ∈ rows, row.length = n + 1)
    (h : Nonsingular n rows) :
    ∃ xs, backSubstitute (reduce n rows).rows = some xs ∧ xs.length = n ∧
      ∀ row ∈ rows, dot row (xs ++ [-1]) = 0 := by
  induction n generalizing rows with
  | zero =>
      obtain rfl := List.eq_nil_of_length_eq_zero hcount
      exact ⟨[], rfl, rfl, by simp⟩
  | succ n ih =>
      obtain ⟨first, rest, rfl⟩ := List.exists_cons_of_length_eq_add_one hcount
      have hpivot := h.lead_pivotRow_ne_zero hlength
      have hperm := pivotRow_cons_perm first rest
      obtain ⟨xs, hxs, hxsLength, hbelow⟩ :=
        ih (by rw [length_reducedRows]; simpa using hcount)
          (length_of_mem_reducedRows hpivot hlength) (h.reducedRows hlength)
      have hpivotLength := hlength _ (hperm.subset List.mem_cons_self)
      obtain ⟨x, hx, hrow⟩ :=
        backSubstitute_cons hpivot (by rw [hpivotLength, hxsLength]) hxs
      refine ⟨x :: xs, ?_, by simp [hxsLength], ?_⟩
      · rw [rows_reduce_cons]
        exact hx
      · exact (dot_eq_zero_iff_reducedRows hpivot hlength hrow).mpr hbelow

omit [IsStrictOrderedRing K] in
/-- Substitution needs every diagonal entry. -/
theorem lead_ne_zero_of_backSubstitute_eq_some
    {row : List K} {below : List (List K)} {xs : List K}
    (h : backSubstitute (row :: below) = some xs) :
    lead row ≠ 0 ∧ ∃ ys, backSubstitute below = some ys := by
  cases hbelow : backSubstitute below with
  | none => simp [backSubstitute, hbelow] at h
  | some ys =>
      cases row with
      | nil => simp [backSubstitute, hbelow] at h
      | cons d tail =>
          refine ⟨fun hzero => ?_, ys, rfl⟩
          have hd : d = 0 := hzero
          simp [backSubstitute, hbelow, hd] at h

omit [IsStrictOrderedRing K] in
/-- Elimination finds unknowns for nonsingular rows only. -/
theorem nonsingular_of_backSubstitute_reduce_eq_some
    {n : ℕ} {rows : List (List K)}
    (hcount : rows.length = n) (hlength : ∀ row ∈ rows, row.length = n + 1)
    {xs : List K} (h : backSubstitute (reduce n rows).rows = some xs) :
    Nonsingular n rows := by
  induction n generalizing rows xs with
  | zero =>
      intro column hcolumn _ v hv
      rw [List.eq_nil_of_length_eq_zero hcolumn] at hv
      cases hv
  | succ n ih =>
      obtain ⟨first, rest, rfl⟩ := List.exists_cons_of_length_eq_add_one hcount
      rw [rows_reduce_cons] at h
      obtain ⟨hpivot, ys, hys⟩ := lead_ne_zero_of_backSubstitute_eq_some h
      have hreduced := ih (by rw [length_reducedRows]; simpa using hcount)
        (length_of_mem_reducedRows hpivot hlength) hys
      intro column hcolumn hzero
      obtain ⟨v, column, rfl⟩ := List.exists_cons_of_length_eq_add_one hcolumn
      have hdot :=
        hzero _ ((pivotRow_cons_perm first rest).subset List.mem_cons_self)
      have hbelow := hreduced column (by simpa using hcolumn)
        ((dot_eq_zero_iff_reducedRows hpivot hlength hdot).mp hzero)
      have hrest : ∀ w ∈ column ++ [0], w = 0 := by
        intro w hw
        rcases List.mem_append.mp hw with hw | hw
        · exact hbelow w hw
        · exact List.mem_singleton.mp hw
      have hne : pivotRow first rest ≠ [] := by
        intro hnil
        exact hpivot (by rw [hnil, lead, List.headD_nil])
      rw [List.cons_append, dot_eq_lead_mul_add hne,
        dot_eq_zero_of_forall _ hrest, add_zero] at hdot
      rw [List.forall_mem_cons]
      exact ⟨(mul_eq_zero.mp hdot).resolve_left hpivot, hbelow⟩

/-- A nonsingular system has the solution that elimination finds. -/
theorem exists_solve?_eq_some
    {n : ℕ} {rows : List (List K)}
    (hcount : rows.length = n) (hlength : ∀ row ∈ rows, row.length = n + 1)
    (h : Nonsingular n rows) :
    ∃ xs, solve? rows = some xs ∧ xs.length = n ∧
      ∀ row ∈ rows, dot row (xs ++ [-1]) = 0 := by
  rw [solve?, hcount]
  exact exists_backSubstitute_reduce_eq_some hcount hlength h

end Solve

end Elimination
end NumericalMethods
