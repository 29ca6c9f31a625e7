import Mathlib.Algebra.Group.ForwardDiff
import Mathlib.Data.List.FinRange
import Mathlib.Tactic.Cases
import NumericalMethods.Interpolation.Differences

/-!
# What the tables of differences hold

The stages of the divided differences overwrite one vector.  Inside a stage the
entries are visited from the last one downwards, so an entry is overwritten only
after its right neighbour has read it.  After all stages the vector holds the
divided differences over the first nodes, one node more in each entry.

Finite differences are kept as a triangle of rows; every entry is an iterated
difference of the sequence of values.
-/

namespace NumericalMethods

variable {α : Type}

/-! ## Divided differences in place -/

section Divided

variable [Sub α] [Div α] {n : ℕ}

theorem val_sub_lt (i : Fin n) (k : ℕ) : i.val - k < n :=
  Nat.lt_of_le_of_lt (Nat.sub_le _ _) i.isLt

/-- The index a number of places to the left, or the first one. -/
def leftBy (k : ℕ) (i : Fin n) : Fin n :=
  ⟨i.val - k, val_sub_lt i k⟩

/-- What one visit of a stage writes. -/
def dividedEntry (x : Vector α n) (gap : ℕ) (d : Vector α n) (i : Fin n) : α :=
  (d.get i - d.get (leftBy 1 i)) / (x.get i - x.get (leftBy gap i))

omit [Sub α] [Div α] in
theorem get_set_of_ne (d : Vector α n) (v : α) {i k : Fin n} (hik : i ≠ k) :
    (d.set i.val v i.isLt).get k = d.get k :=
  Vector.getElem_set_ne i.isLt k.isLt fun h => hik (Fin.ext h)

omit [Sub α] [Div α] in
theorem get_set_self (d : Vector α n) (v : α) (i : Fin n) :
    (d.set i.val v i.isLt).get i = v :=
  Vector.getElem_set_self i.isLt

/-- A visit reads nothing to the right of its own entry. -/
theorem dividedEntry_set_of_lt
    (x : Vector α n) (gap : ℕ) (d : Vector α n) (v : α) {i k : Fin n}
    (hki : k < i) :
    dividedEntry x gap (d.set i.val v i.isLt) k = dividedEntry x gap d k := by
  have hleft : leftBy 1 k < i :=
    Fin.lt_def.mpr (Nat.lt_of_le_of_lt (Nat.sub_le _ _) (Fin.lt_def.mp hki))
  rw [dividedEntry, dividedEntry, get_set_of_ne d v (Fin.ne_of_gt hki),
    get_set_of_ne d v (Fin.ne_of_gt hleft)]

/-- Visiting indices in descending order reads only entries of the vector the
visits started from. -/
theorem get_foldl_dividedEntry
    (x : Vector α n) (gap : ℕ) {visits : List (Fin n)}
    (hdesc : visits.Pairwise (fun i j => j < i)) (d : Vector α n) (k : Fin n) :
    (visits.foldl (fun d i => d.set i.val (dividedEntry x gap d i) i.isLt)
      d).get k =
      if k ∈ visits then dividedEntry x gap d k else d.get k := by
  induction visits generalizing d with
  | nil => simp
  | cons i visits ih =>
      obtain ⟨hi, hrest⟩ := List.pairwise_cons.mp hdesc
      rw [List.foldl_cons, ih hrest]
      by_cases hk : k ∈ visits
      · simp [hk, dividedEntry_set_of_lt x gap d _ (hi k hk)]
      · by_cases hki : k = i
        · subst hki
          simp [hk, get_set_self]
        · simp [hk, hki, get_set_of_ne d _ (Ne.symm hki)]

theorem get_dividedStage
    (x : Vector α n) (gap : ℕ) (d : Vector α n) (k : Fin n) :
    (dividedStage x gap d).get k =
      if gap ≤ k.val then dividedEntry x gap d k else d.get k := by
  have hdesc :
      ((List.finRange n).reverse.filter fun i => gap ≤ i.val).Pairwise
        (fun i j => j < i) :=
    (List.pairwise_reverse.mpr (List.pairwise_lt_finRange n)).filter _
  have hstage : dividedStage x gap d =
      ((List.finRange n).reverse.filter fun i => gap ≤ i.val).foldl
        (fun d i => d.set i.val (dividedEntry x gap d i) i.isLt) d := rfl
  rw [hstage, get_foldl_dividedEntry x gap hdesc d k]
  simp

/-- After the stages up to `gap`, entry `k` is the divided difference over the
last `gap + 1` nodes up to `k`, or over all nodes up to `k` if there are
fewer. -/
theorem get_foldl_dividedStage
    {x y : Vector α n} {X Y : ℕ → α}
    (hX : ∀ i : Fin n, X i = x.get i) (hY : ∀ i : Fin n, Y i = y.get i)
    (gap : ℕ) (k : Fin n) :
    ((List.range' 1 gap).foldl (fun d gap => dividedStage x gap d) y).get k =
      dividedDifference X Y (k.val - min k.val gap) (min k.val gap) := by
  induction gap generalizing k with
  | zero => simp [dividedDifference, hY]
  | succ gap ih =>
      rw [List.range'_1_concat, List.foldl_append, List.foldl_cons,
        List.foldl_nil, get_dividedStage, Nat.add_comm 1 gap]
      by_cases hk : gap + 1 ≤ k.val
      · have hleft := ih (leftBy 1 k)
        have hright := ih k
        have hXstart := hX (leftBy (gap + 1) k)
        have hminLeft : min (k.val - 1) gap = gap := by omega
        have hminRight : min k.val gap = gap := by omega
        have hmin : min k.val (gap + 1) = gap + 1 := by omega
        have hfirst : k.val - 1 - gap = k.val - (gap + 1) := by omega
        have hnext : k.val - gap = k.val - (gap + 1) + 1 := by omega
        have hlast : k.val - (gap + 1) + gap + 1 = k.val := by omega
        simp only [leftBy, hminLeft, hminRight, hfirst, hnext]
          at hleft hright hXstart
        rw [if_pos hk, hmin, dividedEntry, dividedDifference, hlast,
          hX k, hXstart]
        simp only [leftBy, hleft, hright]
      · have hmin : min k.val (gap + 1) = min k.val gap := by omega
        rw [if_neg hk, ih k, hmin]

/-- The stages compute the divided differences from the first node on. -/
theorem get_dividedDifferences
    {x y : Vector α n} {X Y : ℕ → α}
    (hX : ∀ i : Fin n, X i = x.get i) (hY : ∀ i : Fin n, Y i = y.get i)
    (k : Fin n) :
    (dividedDifferences x y).get k = dividedDifference X Y 0 k := by
  have hmin : min k.val (n - 1) = k.val := by omega
  rw [dividedDifferences, get_foldl_dividedStage hX hY, hmin, Nat.sub_self]

theorem toList_dividedDifferences
    {x y : Vector α n} {X Y : ℕ → α}
    (hX : ∀ i : Fin n, X i = x.get i) (hY : ∀ i : Fin n, Y i = y.get i) :
    (dividedDifferences x y).toList =
      (List.range n).map (dividedDifference X Y 0) := by
  refine List.ext_getElem (by simp) fun k hk _ => ?_
  have hkn : k < n := by simpa using hk
  have hentry := get_dividedDifferences hX hY ⟨k, hkn⟩
  rw [List.getElem_map, List.getElem_range, ← hentry]
  exact Vector.getElem_toList _

end Divided

/-! ## The triangle of finite differences -/

section Finite

variable {G : Type} [AddCommGroup G]

theorem neighbourDifferences_map_range (Y : ℕ → G) (n : ℕ) :
    neighbourDifferences ((List.range n).map Y) =
      (List.range (n - 1)).map (fwdDiff 1 Y) := by
  apply List.ext_getElem
  · simp [neighbourDifferences]
  · intro i hi hi'
    simp [neighbourDifferences, fwdDiff]

theorem differenceRows_map_range (count : ℕ) (Y : ℕ → G) (n : ℕ) :
    differenceRows count ((List.range n).map Y) =
      (List.range count).map fun k =>
        (List.range (n - (k + 1))).map ((fwdDiff 1)^[k + 1] Y) := by
  induction count generalizing Y n with
  | zero => rfl
  | succ count ih =>
      rw [differenceRows, neighbourDifferences_map_range, ih,
        List.range_succ_eq_map, List.map_cons, List.map_map]
      congr 1
      apply List.map_congr_left
      intro k _
      have hlength : n - 1 - (k + 1) = n - (k + 1 + 1) := by omega
      rw [hlength]
      rfl

/-- Row `k` of the triangle holds the `k`-th differences of the values. -/
theorem finiteDifferences_map_range (Y : ℕ → G) {n : ℕ} (hn : 0 < n) :
    finiteDifferences ((List.range n).map Y) =
      (List.range n).map fun k =>
        (List.range (n - k)).map ((fwdDiff 1)^[k] Y) := by
  obtain ⟨m, rfl⟩ := Nat.exists_eq_succ_of_ne_zero hn.ne'
  rw [finiteDifferences, List.length_map, List.length_range,
    differenceRows_map_range, Nat.succ_sub_one]
  conv_rhs => rw [List.range_succ_eq_map, List.map_cons, List.map_map]
  rfl

/-- The first entries of the rows are the differences at the first value. -/
theorem headD_finiteDifferences_map_range (Y : ℕ → G) {n : ℕ} (hn : 0 < n) :
    (finiteDifferences ((List.range n).map Y)).map (fun row => row.headD 0) =
      (List.range n).map fun k => (fwdDiff 1)^[k] Y 0 := by
  rw [finiteDifferences_map_range Y hn, List.map_map]
  apply List.map_congr_left
  intro k hk
  obtain ⟨m, hm⟩ := Nat.exists_eq_succ_of_ne_zero
    (Nat.sub_ne_zero_of_lt (List.mem_range.mp hk))
  simp [hm, List.range_succ_eq_map]

end Finite

end NumericalMethods
