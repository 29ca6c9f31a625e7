import NumericalMethods.Proofs.ByIndex.Differences
import NumericalMethods.Proofs.Failure
import NumericalMethods.Proofs.Interpolation.Selection

/-!
# Interpolation by index

The three forms of the interpolating polynomial read nodes, values and tables by
index.  The tables have one entry, or one row, for each node, and no row is
empty, so no form reads beyond the end of a list, at whatever point it is
evaluated.
-/

namespace NumericalMethods
namespace Interpolation

variable {α : Type} [Scalar α]

/-! ## The form of Lagrange -/

def lagrangeByIndex (x y : List α) (point : α) : Except (Failure α) α :=
  (List.range x.length).foldlM (fun sum i => do
    let value ← readAt y i
    let term ← (List.range x.length).foldlM (fun term j =>
      if i = j then return term
      else do
        let other ← readAt x j
        let node ← readAt x i
        return term * ((point - other) / (node - other))) value
    return sum + term) 0

theorem lagrangeByIndex_eq_ok (nodes : List (α × α)) (point : α) :
    lagrangeByIndex (nodes.map Prod.fst) (nodes.map Prod.snd) point =
      .ok (lagrange nodes point) := by
  rw [lagrangeByIndex, List.length_map]
  refine foldlM_range_eq_ok (fun i node hnode sum => ?_) 0
  have hterm : (List.range nodes.length).foldlM (fun term j =>
      if i = j then (return term : Except (Failure α) α)
      else do
        let other ← readAt (nodes.map Prod.fst) j
        let node ← readAt (nodes.map Prod.fst) i
        return term * ((point - other) / (node - other))) node.2 =
      .ok (lagrangeTerm nodes point i node) := by
    refine foldlM_range_eq_ok (fun j other hother term => ?_) node.2
    by_cases hij : i = j
    · simp only [if_pos hij]
      rfl
    · simp only [if_neg hij]
      rw [readAt_map _ hother, readAt_map _ hnode]
      rfl
  rw [readAt_map _ hnode, ok_bind, hterm]
  rfl

/-! ## The form of Newton -/

def newtonFormByIndex (x coefficients : List α) (point : α) :
    Except (Failure α) α := do
  let last ← readBefore coefficients coefficients.length 1
  (List.range (coefficients.length - 1)).reverse.foldlM (fun value i => do
    let node ← readAt x i
    let coefficient ← readAt coefficients i
    return value * (point - node) + coefficient) last

/-- The loop visits the first node last. -/
theorem newtonFormByIndex_cons
    (node : α) (x : List α) (first second : α) (coefficients : List α)
    (point : α) :
    newtonFormByIndex (node :: x) (first :: second :: coefficients) point = (do
      let value ← newtonFormByIndex x (second :: coefficients) point
      return value * (point - node) + first) := by
  have hlast :
      (readBefore (first :: second :: coefficients)
        (coefficients.length + 2) 1 :
      Except (Failure α) α) =
        readBefore (second :: coefficients) (coefficients.length + 1) 1 := rfl
  have hindices : (List.range (coefficients.length + 1)).reverse =
      (List.range coefficients.length).reverse.map Nat.succ ++ [0] := by
    rw [List.range_succ_eq_map, List.reverse_cons, List.map_reverse]
  simp only [newtonFormByIndex, List.length_cons, Nat.add_sub_cancel,
    hlast, hindices, List.foldlM_append, List.foldlM_map, List.foldlM_cons,
    List.foldlM_nil, bind_assoc, bind_pure]
  rfl

theorem newtonFormByIndex_eq_ok {nodes : List (α × α)} (hne : nodes ≠ [])
    (point : α) :
    newtonFormByIndex (nodes.map Prod.fst) (nodes.map Prod.snd) point =
      .ok (newtonForm point nodes) := by
  induction nodes with
  | nil => exact absurd rfl hne
  | cons node rest ih =>
      cases rest with
      | nil => rfl
      | cons next rest =>
          have hrest := ih (List.cons_ne_nil next rest)
          simp only [List.map_cons] at hrest ⊢
          rw [newtonFormByIndex_cons, hrest, ok_bind, newtonForm]
          rfl

/-! ## The forward form -/

/-- One term of the forward form, from row `k` of the table. -/
def forwardStepByIndex (t : α) (state : α × α) (row : List α × ℕ) :
    Except (Failure α) (α × α) := do
  let term := state.1 * ((t - Scalar.ofNat (row.2 - 1)) / Scalar.ofNat row.2)
  let difference ← readAt row.1 0
  return (term, state.2 + term * difference)

def forwardFormByIndex (x : List α) (table : List (List α)) (point : α) :
    Except (Failure α) α := do
  if x.length = 1 then
    let row ← readAt table 0
    readAt row 0
  else
    let x1 ← readAt x 1
    let x0 ← readAt x 0
    let row ← readAt table 0
    let start ← readAt row 0
    let result ← (table.zipIdx.drop 1).foldlM
      (forwardStepByIndex ((point - x0) / (x1 - x0))) (1, start)
    return result.2

theorem readAt_zero {row : List α} (hrow : row ≠ []) :
    (readAt row 0 : Except (Failure α) α) = .ok (row.headD 0) := by
  cases row with
  | nil => exact absurd rfl hrow
  | cons entry row => rfl

theorem foldlM_forwardStepByIndex
    (t : α) (first : List α) {rows : List (List α)}
    (hrows : ∀ row ∈ rows, row ≠ []) (state : α × α) :
    ((first :: rows).zipIdx.drop 1).foldlM (forwardStepByIndex t) state =
      .ok ((rows.map fun row => row.headD 0).zipIdx.foldl
        (forwardStep t) state) := by
  have hbehind : (first :: rows).zipIdx.drop 1 =
      rows.zipIdx.map fun row => (row.1, row.2 + 1) := by
    rw [List.zipIdx_cons, List.drop_one, List.tail_cons, List.zipIdx_succ]
  rw [hbehind, List.zipIdx_map, List.foldl_map]
  refine foldlM_eq_ok _ id (fun row hrow state => ?_) state
  have hne : row.1 ≠ [] := hrows _ (List.fst_mem_of_mem_zipIdx hrow)
  rw [forwardStepByIndex, readAt_zero hne]
  rfl

theorem forwardFormByIndex_eq_ok
    {x first : List α} {rows : List (List α)}
    (hlength : x.length = rows.length + 1) (hfirst : first ≠ [])
    (hrows : ∀ row ∈ rows, row ≠ []) (point : α) :
    forwardFormByIndex x (first :: rows) point =
      .ok (forwardForm x ((first :: rows).map fun row => row.headD 0)
        point) := by
  rw [forwardFormByIndex]
  match x, rows, hlength with
  | [_], [], _ => exact readAt_zero hfirst
  | x0 :: x1 :: x, row :: rows, _ =>
      have hnext : (readAt (x0 :: x1 :: x) 1 : Except (Failure α) α) =
          .ok x1 := rfl
      have hnode : (readAt (x0 :: x1 :: x) 0 : Except (Failure α) α) =
          .ok x0 := rfl
      have hrow :
          (readAt (first :: row :: rows) 0 : Except (Failure α) (List α)) =
            .ok first :=
        rfl
      rw [if_neg (by simp), hnext, ok_bind, hnode, ok_bind, hrow, ok_bind,
        readAt_zero hfirst, ok_bind, foldlM_forwardStepByIndex _ _ hrows]
      rfl

/-! ## Selected nodes -/

/-- The indices of points in the ascending order of their abscissas. -/
def ascendingOrder (points : List (α × α)) : List (Fin points.length) :=
  (List.finRange points.length).mergeSort fun i j =>
    Scalar.precedes points[i].1 points[j].1

theorem ascending_eq_map_ascendingOrder (points : List (α × α)) :
    ascending points = (ascendingOrder points).map fun i => points[i] := by
  have hmap : (ascendingOrder points).map (fun i => points[i]) =
      ((List.finRange points.length).map fun i => points[i]).mergeSort
        fun p q => Scalar.precedes p.1 q.1 :=
    List.map_mergeSort fun _ _ _ _ => rfl
  have hall : ((List.finRange points.length).map fun i => points[i]) = points :=
    List.map_getElem_finRange points
  rw [hmap, hall]
  rfl

/-- The indices nearest to an abscissa among those in an order, which are found
by their places in the order. -/
def nearestOrder (points : List (α × α))
    (order : List (Fin points.length)) (point : α) (amount : ℕ) :
    List (Fin points.length) :=
  let distance (k : Fin order.length) : α :=
    Scalar.abs (points[order[k]].1 - point)
  let byDistance := (List.finRange order.length).mergeSort fun k l =>
    Scalar.precedes (distance k) (distance l)
  ((byDistance.take amount).mergeSort fun k l => decide (k ≤ l)).map fun k =>
    order[k]

theorem nearest_eq_map_nearestOrder
    (points : List (α × α)) (order : List (Fin points.length)) (point : α)
    (amount : ℕ) :
    nearest (order.map fun i => points[i]) point amount =
      (nearestOrder points order point amount).map fun i => points[i] := by
  let entry (k : Fin order.length) : (α × α) × ℕ := (points[order[k]], k.val)
  have hentries : (order.map fun i => points[i]).zipIdx =
      (List.finRange order.length).map entry := by
    apply List.ext_getElem
    · simp
    · intro k hk hk'
      simp [entry]
  let byDistance := (List.finRange order.length).mergeSort fun k l =>
    Scalar.precedes (Scalar.abs (points[order[k]].1 - point))
      (Scalar.abs (points[order[l]].1 - point))
  have hsorted : ((List.finRange order.length).map entry).mergeSort (fun p q =>
      Scalar.precedes (Scalar.abs (p.1.1 - point))
        (Scalar.abs (q.1.1 - point))) =
        byDistance.map entry :=
    (List.map_mergeSort (f := entry) fun _ _ _ _ => rfl).symm
  have hkept : ((byDistance.take amount).map entry).mergeSort
      (fun p q => decide (p.2 ≤ q.2)) =
      ((byDistance.take amount).mergeSort fun k l =>
        decide (k ≤ l)).map entry :=
    (List.map_mergeSort (f := entry) fun _ _ _ _ => rfl).symm
  rw [nearest, hentries]
  dsimp only
  rw [hsorted, ← List.map_take, hkept, nearestOrder, List.map_map, List.map_map]
  rfl

/-- The indices of the nodes to interpolate with. -/
def selectedOrder (points : List (α × α)) (point : α) (amount : Option ℕ) :
    List (Fin points.length) :=
  let order := ascendingOrder points
  match amount with
  | none => order
  | some amount =>
    if amount < order.length then
      nearestOrder points order point amount
    else order

/-- The nodes are the points at the selected indices, and there is one. -/
theorem points_of_selectNodes_eq_ok
    {data nodes : DataSet α} {point : α} {amount : Option ℕ}
    (hnodes : selectNodes data point amount = .ok nodes) :
    nodes.points =
        (selectedOrder data.points point amount).map (fun i => data.points[i]) ∧
      nodes.points ≠ [] := by
  have hlength : (ascending data.points).length = data.points.length :=
    (ascending_perm data.points).length_eq
  have horder : (ascendingOrder data.points).length = data.points.length := by
    simp [ascendingOrder]
  simp only [selectNodes] at hnodes
  by_cases hempty : data.isEmpty = true
  · simp [hempty] at hnodes
  · have hpositive : 0 < data.points.length := by
      rw [List.length_pos_iff]
      simpa [DataSet.isEmpty] using hempty
    have hne : ascending data.points ≠ [] := by
      rw [← List.length_pos_iff, hlength]
      exact hpositive
    cases hshared : sharedAbscissa? (ascending data.points) with
    | some x => simp [hempty, hshared] at hnodes
    | none =>
        rcases amount with _ | _ | amount
        · simp only [hempty, hshared] at hnodes
          cases hnodes
          exact ⟨ascending_eq_map_ascendingOrder _, hne⟩
        · simp [hempty, hshared] at hnodes
        · simp only [hempty, hshared] at hnodes
          cases hnodes
          by_cases hfewer : amount + 1 < data.points.length
          · have hkept :=
              length_nearest (ascending data.points) point (amount + 1)
            refine ⟨?_, ?_⟩
            · simp only [selectedOrder, hlength, horder, if_pos hfewer]
              rw [ascending_eq_map_ascendingOrder]
              exact nearest_eq_map_nearestOrder _ _ _ _
            · simp only [hlength, if_pos hfewer]
              apply List.ne_nil_of_length_pos
              omega
          · simp only [selectedOrder, hlength, horder, if_neg hfewer]
            exact ⟨ascending_eq_map_ascendingOrder _, hne⟩

/-- Whether the distances of neighbours agree with the first one, for which the
first two nodes are read. -/
def isEquallySpacedByIndex (x : List α) : Except (Failure α) Bool := do
  if x.length < 3 then return true
  else
    let x1 ← readAt x 1
    let x0 ← readAt x 0
    let h := x1 - x0
    return (List.zipWith (fun a b => Scalar.abs ((b - a) - h)) x
      x.tail).all fun v =>
      decide (v ≤ 1e-9 * Scalar.abs h)

theorem isEquallySpacedByIndex_eq_ok (x : List α) :
    isEquallySpacedByIndex x = .ok (isEquallySpaced x) := by
  match x with
  | [] | [_] | [_, _] => rfl
  | x0 :: x1 :: x2 :: x =>
      rw [isEquallySpacedByIndex, if_neg (by simp)]
      rfl

/-! ## Results -/

def evaluateAtByIndex (method : InterpolationMethod) (nodes : DataSet α)
    (divided : List α) (table : List (List α)) (x : α) : Except (Failure α) α :=
  match method with
  | .lagrange => lagrangeByIndex nodes.x nodes.y x
  | .newtonSeparated => newtonFormByIndex nodes.x divided x
  | .newtonFinite => forwardFormByIndex nodes.x table x

omit [Scalar α] in
theorem dividedDifferencesByIndex_dataSet [Sub α] [Div α] (d : DataSet α) :
    (dividedDifferencesByIndex d.x d.y : Except (Failure α) (List α)) =
      .ok d.dividedDifferences := by
  let points : Vector (α × α) d.points.length := ⟨d.points.toArray, rfl⟩
  have hx : (points.map Prod.fst).toList = d.x := by simp [points, DataSet.x]
  have hy : (points.map Prod.snd).toList = d.y := by simp [points, DataSet.y]
  have h :=
    dividedDifferencesByIndex_toList_append (points.map Prod.fst)
      (points.map Prod.snd) []
  rwa [List.append_nil, List.append_nil, hx, hy] at h

omit [Scalar α] in
/-- The nodes with the coefficients that the form of Newton gives them. -/
theorem exists_pairs_of_ne_nil [Sub α] [Div α] {nodes : DataSet α}
    (hne : nodes.points ≠ []) :
    ∃ pairs, pairs ≠ [] ∧ pairs = nodes.x.zip nodes.dividedDifferences ∧
      pairs.map Prod.fst = nodes.x ∧
      pairs.map Prod.snd = nodes.dividedDifferences := by
  have hlength : nodes.x.length = nodes.dividedDifferences.length := by
    simp [DataSet.x, DataSet.dividedDifferences]
  refine ⟨_, ?_, rfl, List.map_fst_zip hlength.le, List.map_snd_zip hlength.ge⟩
  rw [← List.length_pos_iff, List.length_zip, ← hlength, Nat.min_self]
  simpa [DataSet.x] using List.length_pos_of_ne_nil hne

omit [Scalar α] in
/-- The rows of the table, one for each node and none of them empty. -/
theorem exists_rows_of_ne_nil [Sub α] {nodes : DataSet α}
    (hne : nodes.points ≠ []) :
    ∃ first rows, nodes.finiteDifferences = first :: rows ∧
      nodes.x.length = rows.length + 1 ∧ first ≠ [] ∧
      ∀ row ∈ rows, row ≠ [] := by
  have hy : nodes.y ≠ [] := by simpa [DataSet.y] using hne
  have hlength : nodes.y.length = nodes.x.length := by
    simp [DataSet.x, DataSet.y]
  have hrows : ∀ row ∈ finiteDifferences nodes.y, row ≠ [] := by
    intro row hrow
    rw [finiteDifferences_eq_map hy] at hrow
    obtain ⟨k, hk, rfl⟩ := List.mem_map.mp hrow
    rw [← List.length_pos_iff, length_iterate_neighbourDifferences]
    exact Nat.sub_pos_of_lt (List.mem_range.mp hk)
  have hcount : (finiteDifferences nodes.y).length = nodes.x.length := by
    rw [finiteDifferences_eq_map hy, List.length_map,
      List.length_range, hlength]
  rw [finiteDifferences] at hrows hcount
  exact ⟨nodes.y, _, rfl, hcount.symm, hy,
    fun row hrow => hrows row (List.mem_cons_of_mem _ hrow)⟩

theorem evaluateAtByIndex_eq_ok
    {nodes : DataSet α} (hne : nodes.points ≠ [])
    (method : InterpolationMethod) (x : α) :
    evaluateAtByIndex method nodes nodes.dividedDifferences
      nodes.finiteDifferences x =
      .ok (evaluateAt method nodes nodes.dividedDifferences
        nodes.finiteDifferences x) := by
  cases method with
  | lagrange => exact lagrangeByIndex_eq_ok nodes.points x
  | newtonSeparated =>
      obtain ⟨pairs, hpairs, hzip, hx, hdivided⟩ := exists_pairs_of_ne_nil hne
      have h := newtonFormByIndex_eq_ok hpairs x
      rwa [hx, hdivided, hzip] at h
  | newtonFinite =>
      obtain ⟨first, rows, htable, hcount, hfirst, hrows⟩ :=
        exists_rows_of_ne_nil hne
      rw [htable]
      exact forwardFormByIndex_eq_ok hcount hfirst hrows x

theorem exists_nodes_of_interpolate_eq_ok
    {method : InterpolationMethod} {data : DataSet α} {point : α}
    {amount : Option ℕ} {r : InterpolationResult α}
    (hr : interpolate method data point amount = .ok r) :
    selectNodes data point amount = .ok r.nodes ∧
      r.differenceTable = r.nodes.finiteDifferences ∧
      r.dividedDifferences = r.nodes.dividedDifferences := by
  rw [interpolate] at hr
  split at hr
  · cases hr
  · obtain ⟨nodes, hnodes, hr⟩ := bind_eq_ok_iff.mp hr
    by_cases hspacing :
      (decide (method = .newtonFinite) && !isEquallySpaced nodes.x) = true
    · rw [if_pos hspacing] at hr
      cases hr
    · rw [if_neg hspacing] at hr
      cases hr
      exact ⟨hnodes, rfl, rfl⟩

/-- A result was computed inside its lists, and so is every value of its
polynomial. -/
theorem interpolate_byIndex
    {method : InterpolationMethod} {data : DataSet α} {point : α}
    {amount : Option ℕ} {r : InterpolationResult α}
    (hr : interpolate method data point amount = .ok r) :
    finiteDifferencesByIndex r.nodes.y = .ok r.differenceTable ∧
    dividedDifferencesByIndex r.nodes.x r.nodes.y = .ok r.dividedDifferences ∧
    ∀ x, evaluateAtByIndex r.method r.nodes r.dividedDifferences
      r.differenceTable x =
      .ok (r.evaluate x) := by
  obtain ⟨hnodes, htable, hdivided⟩ := exists_nodes_of_interpolate_eq_ok hr
  have hne := (points_of_selectNodes_eq_ok hnodes).2
  refine ⟨?_, ?_, ?_⟩
  · rw [htable]
    exact finiteDifferencesByIndex_eq_ok r.nodes.y
  · rw [hdivided]
    exact dividedDifferencesByIndex_dataSet r.nodes
  · intro x
    rw [InterpolationResult.evaluate, htable, hdivided]
    exact evaluateAtByIndex_eq_ok hne r.method x

end Interpolation
end NumericalMethods
