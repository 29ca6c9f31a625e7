import Mathlib.Data.List.FinRange
import NumericalMethods.Interpolation
import NumericalMethods.Proofs.ByIndex.Reading

/-!
# The tables of differences by index

The stages of the divided differences go over indices and overwrite one list.
They stay inside the lists exactly if every node has a value, or there is no
stage.  The rows of finite differences are appended to a table, each computed
from the row before it, and that row is always there.
-/

namespace NumericalMethods

variable {α : Type}

/-! ## Divided differences -/

section Divided

variable [Sub α] [Div α]

/-- One stage of the divided differences, from the last index downwards. -/
def dividedStageByIndex (x : List α) (gap : ℕ) (d : List α) :
    Except (Failure α) (List α) :=
  (List.range' gap (x.length - gap)).reverse.foldlM (fun d i => do
    let entry ← readAt d i
    let left ← readBefore d i 1
    let node ← readAt x i
    let first ← readBefore x i gap
    writeAt d i ((entry - left) / (node - first))) d

def dividedDifferencesByIndex (x y : List α) : Except (Failure α) (List α) :=
  (List.range' 1 (x.length - 1)).foldlM
    (fun d gap => dividedStageByIndex x gap d) y

omit [Sub α] [Div α] in
theorem readAt_toList_append
    {n i : ℕ} (v : Vector α n) (rest : List α) (hi : i < n) :
    (readAt (v.toList ++ rest) i : Except (Failure α) α) = .ok v[i] := by
  refine readAt_of_getElem? ?_
  rw [List.getElem?_append_left (by simpa using hi)]
  simp [hi]

omit [Sub α] [Div α] in
theorem writeAt_toList_append
    {n i : ℕ} (v : Vector α n) (rest : List α) (hi : i < n) (entry : α) :
    (writeAt (v.toList ++ rest) i entry : Except (Failure α) (List α)) =
      .ok ((v.set i entry hi).toList ++ rest) := by
  rw [writeAt_of_lt (by simp; omega),
    List.set_append_left _ _ (by simpa using hi), Vector.toList_set]

theorem filter_le_range (n gap : ℕ) :
    (List.range n).filter (fun i => gap ≤ i) = List.range' gap (n - gap) := by
  have hbelow : ∀ m ≤ gap, (List.range m).filter (fun i => gap ≤ i) = [] := by
    intro m hm
    rw [List.filter_eq_nil_iff]
    intro i hi
    have := List.mem_range.mp hi
    simp only [decide_eq_true_eq]
    omega
  rcases Nat.le_total n gap with hle | hle
  · rw [hbelow n hle, Nat.sub_eq_zero_of_le hle]
    rfl
  · obtain ⟨more, rfl⟩ := Nat.exists_eq_add_of_le hle
    have habove : (List.range' gap more).filter (fun i => gap ≤ i) =
        List.range' gap more := by
      rw [List.filter_eq_self]
      intro i hi
      exact decide_eq_true (List.mem_range'_1.mp hi).1
    rw [range_add_eq_append, List.filter_append, hbelow gap le_rfl, habove,
      Nat.add_sub_cancel_left, List.nil_append]

/-- The indices a stage visits. -/
theorem map_val_filter_finRange (n gap : ℕ) :
    ((List.finRange n).reverse.filter fun i => gap ≤ i.val).map Fin.val =
      (List.range' gap (n - gap)).reverse := by
  rw [← filter_le_range, ← List.map_coe_finRange_eq_range, List.filter_map,
    List.filter_reverse, List.map_reverse]
  rfl

/-- Where every node has a value, a stage stays inside its lists. -/
theorem dividedStageByIndex_toList_append
    {n gap : ℕ} (hgap : 1 ≤ gap) (x d : Vector α n) (rest : List α) :
    (dividedStageByIndex x.toList gap (d.toList ++ rest) : Except
      (Failure α) (List α)) =
      .ok ((dividedStage x gap d).toList ++ rest) := by
  rw [dividedStageByIndex, Vector.length_toList, ← map_val_filter_finRange]
  refine foldlM_eq_ok Fin.val (fun d : Vector α n => d.toList ++ rest) ?_ d
  intro i hi d
  have hgapLe : gap ≤ i.val := by simpa using (List.mem_filter.mp hi).2
  have hnode : ∀ j, (hj : j < n) →
      (readAt x.toList j : Except (Failure α) α) = .ok x[j] := by
    intro j hj
    simpa using readAt_toList_append (n := n) x [] hj
  rw [readAt_toList_append d rest i.isLt, readBefore_of_le (hgap.trans hgapLe),
    readAt_toList_append d rest (by omega), hnode i i.isLt,
    readBefore_of_le hgapLe, hnode _ (by omega)]
  exact writeAt_toList_append d rest i.isLt _

theorem dividedDifferencesByIndex_toList_append {n : ℕ} (x y : Vector α n)
    (rest : List α) :
    (dividedDifferencesByIndex x.toList (y.toList ++ rest) : Except
      (Failure α) (List α)) =
      .ok ((dividedDifferences x y).toList ++ rest) := by
  rw [dividedDifferencesByIndex, Vector.length_toList,
    ← List.map_id (List.range' 1 (n - 1))]
  refine foldlM_eq_ok id (fun d : Vector α n => d.toList ++ rest) ?_ y
  intro gap hgap d
  exact dividedStageByIndex_toList_append (List.mem_range'_1.mp hgap).1 x d rest

/-- The last index of the first stage lies beyond the values if there are
too few. -/
theorem dividedStageByIndex_of_length_lt
    {x y : List α} (hnodes : 2 ≤ x.length) (hlt : y.length < x.length) :
    (dividedStageByIndex x 1 y : Except (Failure α) (List α)) =
      .error (.abort .indexOutOfRange) := by
  obtain ⟨m, hm⟩ := Nat.exists_eq_add_of_le' hnodes
  have hindices : (List.range' 1 (x.length - 1)).reverse =
      (m + 1) :: (List.range' 1 m).reverse := by
    rw [hm, Nat.add_sub_assoc (by omega), List.range'_1_concat,
      List.reverse_concat, Nat.add_comm 1 m]
  rw [dividedStageByIndex, hindices, List.foldlM_cons, readAt_of_le (by omega)]
  rfl

/-- The loop over indices has the divided differences of lists, and aborts where
there are none. -/
theorem dividedDifferencesByIndex_eq (x y : List α) :
    (dividedDifferencesByIndex x y : Except (Failure α) (List α)) =
      ofReading (dividedDifferences? x y) := by
  rw [dividedDifferences?]
  by_cases hle : x.length ≤ y.length
  · let nodes : Vector α x.length := ⟨x.toArray, List.size_toArray⟩
    let values : Vector α x.length := ⟨(y.take x.length).toArray, by simp [hle]⟩
    have hvalues : y = values.toList ++ y.drop x.length := by simp [values]
    rw [dif_pos hle]
    conv_lhs => rw [hvalues]
    exact dividedDifferencesByIndex_toList_append nodes values (y.drop x.length)
  · rw [dif_neg hle, dividedDifferencesByIndex]
    by_cases hfew : x.length < 2
    · rw [if_pos hfew]
      have hnone : x.length - 1 = 0 := by omega
      rw [hnone]
      rfl
    · rw [if_neg hfew]
      obtain ⟨m, hm⟩ := Nat.exists_eq_add_of_le' (Nat.not_lt.mp hfew)
      have hstages : List.range' 1 (x.length - 1) = 1 :: List.range' 2 m := by
        rw [hm]
        rfl
      rw [hstages, List.foldlM_cons,
        dividedStageByIndex_of_length_lt (by omega) (by omega)]
      rfl

end Divided

/-! ## Finite differences -/

section Finite

variable [Sub α]

/-- The table of finite differences, each row appended to the ones before. -/
def finiteDifferencesByIndex (y : List α) :
    Except (Failure α) (List (List α)) :=
  (List.range' 1 (y.length - 1)).foldlM (fun table k => do
    let previous ← readBefore table k 1
    return table ++ [neighbourDifferences previous]) [y]

/-- Row `k` of the table is made by taking differences `k` times. -/
theorem cons_differenceRows_eq_map (count : ℕ) (y : List α) :
    y :: differenceRows count y =
      (List.range (count + 1)).map fun k => neighbourDifferences^[k] y := by
  induction count generalizing y with
  | zero => rfl
  | succ count ih =>
      rw [differenceRows, ih, List.range_succ_eq_map (n := count + 1),
        List.map_cons, List.map_map]
      rfl

theorem length_iterate_neighbourDifferences (k : ℕ) (y : List α) :
    (neighbourDifferences^[k] y).length = y.length - k := by
  induction k with
  | zero => rfl
  | succ k ih =>
      rw [Function.iterate_succ_apply', neighbourDifferences,
        List.length_zipWith, List.length_tail, ih]
      omega

/-- There is a row for each value, one entry shorter than the one before. -/
theorem finiteDifferences_eq_map {y : List α} (hy : y ≠ []) :
    finiteDifferences y = (List.range y.length).map fun k =>
      neighbourDifferences^[k] y := by
  have hpositive : 0 < y.length := List.length_pos_of_ne_nil hy
  rw [finiteDifferences, cons_differenceRows_eq_map,
    Nat.sub_add_cancel hpositive]

theorem finiteDifferencesByIndex_eq_ok (y : List α) :
    (finiteDifferencesByIndex y : Except (Failure α) (List (List α))) =
      .ok (finiteDifferences y) := by
  rw [finiteDifferencesByIndex, finiteDifferences]
  generalize y.length - 1 = count
  induction count with
  | zero => rfl
  | succ count ih =>
      have hprevious : (readBefore ((List.range (count + 1)).map fun k =>
          neighbourDifferences^[k] y) (1 + count) 1 : Except
            (Failure α) (List α)) =
          .ok (neighbourDifferences^[count] y) := by
        rw [readBefore_of_le (Nat.le_add_right 1 count),
          Nat.add_sub_cancel_left]
        exact readAt_map _ (List.getElem?_range (Nat.lt_succ_self count))
      rw [List.range'_1_concat, List.foldlM_append, ih, ok_bind,
        List.foldlM_cons, cons_differenceRows_eq_map,
        cons_differenceRows_eq_map, hprevious, List.range_succ (n := count + 1),
        List.map_append, List.map_singleton, Function.iterate_succ_apply']
      rfl

end Finite

end NumericalMethods
