import NumericalMethods.Interpolation
import NumericalMethods.Proofs.Binary64.Sorting
import NumericalMethods.Proofs.Interpolation.Selection

/-!
# The order of the data

The points of a data set may be given in any order: the interpolation selects
the same nodes and reports the same range, or fails with the same error.  Points
are sorted by a key that tells their abscissas apart, and an abscissa that
occurs twice is noticed, signed zeros included, before the order of its points
could matter.
-/

namespace NumericalMethods

open Binary64 List

namespace DataSet

/-- The coordinates of a data set that was made from lists are finite. -/
theorem isFinite_of_ofLists
    {x y : List Float} {data : DataSet Float} (h : ofLists x y = .ok data) :
    ∀ p ∈ data.points, p.1.isFinite = true ∧ p.2.isFinite = true := by
  rw [ofLists] at h
  split at h
  · cases h
  · split at h
    · rename_i hfinite
      rw [Bool.and_eq_true, all_eq_true, all_eq_true] at hfinite
      cases h
      intro p hp
      exact ⟨hfinite.1 _ (of_mem_zip hp).1, hfinite.2 _ (of_mem_zip hp).2⟩
    · cases h

/-- Finite points make up a data set. -/
theorem ofLists_map
    {points : List (Float × Float)}
    (hfinite : ∀ p ∈ points, p.1.isFinite = true ∧ p.2.isFinite = true) :
    ofLists (points.map Prod.fst) (points.map Prod.snd) = .ok ⟨points⟩ := by
  have hx : (points.map Prod.fst).all Scalar.isFinite = true := by
    rw [all_map, all_eq_true]
    exact fun p hp => (hfinite p hp).1
  have hy : (points.map Prod.snd).all Scalar.isFinite = true := by
    rw [all_map, all_eq_true]
    exact fun p hp => (hfinite p hp).2
  have hzip : (points.map Prod.fst).zip (points.map Prod.snd) = points :=
    (zip_of_prod rfl rfl).symm
  rw [ofLists, if_neg (by simp),
    if_pos (Bool.and_eq_true_iff.mpr ⟨hx, hy⟩), hzip]

end DataSet

namespace Interpolation

/-! ## Sorted points -/

theorem pairwise_ascending (points : List (Float × Float)) :
    (ascending points).Pairwise fun p q => Scalar.precedes p.1 q.1 = true := by
  apply pairwise_mergeSort
  · intro p q r hpq hqr
    exact precedes_trans hpq hqr
  · intro p q
    exact precedes_total p.1 q.1

/-- The sorted abscissas are known from the points in any order. -/
theorem map_fst_ascending_eq_of_perm
    {points points' : List (Float × Float)} (h : points' ~ points) :
    (ascending points').map Prod.fst = (ascending points).map Prod.fst := by
  have hperm : ascending points' ~ ascending points :=
    (ascending_perm points').trans (h.trans (ascending_perm points).symm)
  apply Perm.eq_of_pairwise (fun _ _ _ _ => precedes_antisymm)
  · exact pairwise_map.mpr (pairwise_ascending points')
  · exact pairwise_map.mpr (pairwise_ascending points)
  · exact hperm.map Prod.fst

/-- Whether an abscissa is shared depends on the abscissas alone. -/
theorem sharedAbscissa?_congr {α : Type} [Scalar α]
    {points points' : List (α × α)}
    (h : points'.map Prod.fst = points.map Prod.fst) :
    sharedAbscissa? points' = sharedAbscissa? points := by
  induction points generalizing points' with
  | nil => rw [map_eq_nil_iff.mp h]
  | cons p rest ih =>
      cases points' with
      | nil => cases h
      | cons p' rest' =>
          obtain ⟨hp, hrest⟩ := cons.inj h
          have htail := ih hrest
          cases rest with
          | nil => rw [map_eq_nil_iff.mp hrest]; rfl
          | cons q rest =>
              cases rest' with
              | nil => cases hrest
              | cons q' rest' =>
                  rw [sharedAbscissa?, sharedAbscissa?, htail, hp,
                    (cons.inj hrest).1]

/-- If no neighbours share an abscissa, then no points do. -/
theorem pairwise_value_ne_of_sharedAbscissa?_eq_none
    {points : List (Float × Float)}
    (hsorted : points.Pairwise fun p q => Scalar.precedes p.1 q.1 = true)
    (hfinite : ∀ p ∈ points, p.1.isFinite = true)
    (hnone : sharedAbscissa? points = none) :
    points.Pairwise fun p q => value p.1 ≠ value q.1 := by
  induction points with
  | nil => exact .nil
  | cons p rest ih =>
      cases rest with
      | nil => exact pairwise_singleton _ _
      | cons q rest =>
          obtain ⟨hp, hrest⟩ := pairwise_cons.mp hsorted
          have hfinitep : p.1.isFinite = true := hfinite p (by simp)
          have hfiniteq : q.1.isFinite = true := hfinite q (by simp)
          have hne : ¬ (p.1 == q.1) = true := by
            intro h
            rw [sharedAbscissa?, if_pos h] at hnone
            cases hnone
          rw [sharedAbscissa?, if_neg hne] at hnone
          have hlt : value p.1 < value q.1 :=
            lt_of_le_of_ne
              (value_le_of_precedes hfinitep hfiniteq (hp q mem_cons_self))
              fun h => hne ((beq_iff_value_eq hfinitep hfiniteq).mpr h)
          refine pairwise_cons.mpr
            ⟨?_, ih hrest (fun r hr => hfinite r (mem_cons_of_mem _ hr)) hnone⟩
          intro r hr
          rcases mem_cons.mp hr with rfl | hlater
          · exact hlt.ne
          · have hle : value q.1 ≤ value r.1 :=
              value_le_of_precedes hfiniteq (hfinite r (mem_cons_of_mem _ hr))
                ((pairwise_cons.mp hrest).1 r hlater)
            exact (hlt.trans_le hle).ne

section Distinct

variable {points points' : List (Float × Float)}

/-- Then a point is known by its abscissa. -/
theorem eq_of_value_eq_of_sharedAbscissa?_eq_none
    (hfinite : ∀ p ∈ points, p.1.isFinite = true)
    (hnone : sharedAbscissa? (ascending points) = none) :
    ∀ p ∈ points, ∀ q ∈ points, value p.1 = value q.1 → p = q := by
  let R (p q : Float × Float) : Prop := value p.1 = value q.1 → p = q
  have hsymm : Std.Symm R := ⟨fun p q h hvalue => (h hvalue.symm).symm⟩
  have hpairwise : (ascending points).Pairwise R :=
    (pairwise_value_ne_of_sharedAbscissa?_eq_none (pairwise_ascending points)
      (fun p hp => hfinite p ((ascending_perm points).subset hp)) hnone).imp
        fun hne hvalue => absurd hvalue hne
  intro p hp q hq
  exact hpairwise.forall_of_forall (fun _ _ _ => rfl)
    ((ascending_perm points).symm.subset hp)
      ((ascending_perm points).symm.subset hq)

theorem ascending_eq_of_perm
    (hfinite : ∀ p ∈ points, p.1.isFinite = true)
    (hnone : sharedAbscissa? (ascending points) = none) (h : points' ~ points) :
    ascending points' = ascending points := by
  have hperm : ascending points' ~ ascending points :=
    (ascending_perm points').trans (h.trans (ascending_perm points).symm)
  refine Perm.eq_of_pairwise ?_ (pairwise_ascending points')
    (pairwise_ascending points) hperm
  intro p q hp hq hpq hqp
  apply eq_of_value_eq_of_sharedAbscissa?_eq_none hfinite hnone
  · exact h.subset ((ascending_perm points').subset hp)
  · exact (ascending_perm points).subset hq
  · rw [precedes_antisymm hpq hqp]

/-- The range does not depend on the order of distinct abscissas. -/
theorem range?_eq_of_perm
    (hfinite : ∀ p ∈ points, p.1.isFinite = true)
    (hnone : sharedAbscissa? (ascending points) = none) (h : points' ~ points) :
    (DataSet.mk points').range? = (DataSet.mk points).range? := by
  have hx : (DataSet.mk points').x ~ (DataSet.mk points).x := h.map Prod.fst
  have hdistinct : ∀ a ∈ (DataSet.mk points).x, ∀ b ∈ (DataSet.mk points).x,
      value a = value b → a = b := by
    intro a ha b hb hvalue
    obtain ⟨p, hp, rfl⟩ := mem_map.mp ha
    obtain ⟨q, hq, rfl⟩ := mem_map.mp hb
    rw [eq_of_value_eq_of_sharedAbscissa?_eq_none hfinite hnone p
      hp q hq hvalue]
  have hfinite' : ∀ a ∈ (DataSet.mk points).x, a.isFinite = true := by
    intro a ha
    obtain ⟨p, hp, rfl⟩ := mem_map.mp ha
    exact hfinite p hp
  rw [DataSet.range?, DataSet.range?]
  revert hx hdistinct hfinite'
  generalize (DataSet.mk points').x = l'
  generalize (DataSet.mk points).x = l
  intro hperm hdistinct hfinite'
  cases l with
  | nil => rw [perm_nil.mp hperm]
  | cons first rest =>
      cases l' with
      | nil => exact absurd (nil_perm.mp hperm) (cons_ne_nil _ _)
      | cons first' rest' =>
          have hsmallest : rest'.foldl Scalar.smaller first' =
            rest.foldl Scalar.smaller first :=
            chooses_smaller.foldl_eq_of_perm hfinite' hdistinct hperm
          have hlargest : rest'.foldl Scalar.larger first' =
            rest.foldl Scalar.larger first :=
            chooses_larger.foldl_eq_of_perm hfinite'
              (fun a ha b hb hvalue =>
                hdistinct a ha b hb (neg_inj.mp hvalue)) hperm
          simp only [hsmallest, hlargest]

end Distinct

/-! ## Interpolation -/

/-- Either the same abscissa is rejected, or the same nodes are selected and the
data have the same range. -/
theorem selectNodes_of_perm
    {points points' : List (Float × Float)}
    (hfinite : ∀ p ∈ points, p.1.isFinite = true) (h : points' ~ points)
    (point : Float) (amount : Option ℕ) :
    (∃ error, selectNodes ⟨points'⟩ point amount = .error error ∧
        selectNodes ⟨points⟩ point amount = .error error) ∨
      selectNodes ⟨points'⟩ point amount = selectNodes ⟨points⟩ point amount ∧
        (DataSet.mk points').range? = (DataSet.mk points).range? := by
  have hempty : (DataSet.mk points').isEmpty = (DataSet.mk points).isEmpty := by
    rw [DataSet.isEmpty, DataSet.isEmpty, Bool.eq_iff_iff, List.isEmpty_iff,
      List.isEmpty_iff]
    exact ⟨fun hnil => perm_nil.mp (hnil ▸ h.symm),
      fun hnil => perm_nil.mp (hnil ▸ h)⟩
  have hshared := sharedAbscissa?_congr (map_fst_ascending_eq_of_perm h)
  rw [selectNodes, selectNodes, hempty]
  by_cases hnoNodes : (DataSet.mk points).isEmpty = true
  · left
    exact ⟨_, if_pos hnoNodes, if_pos hnoNodes⟩
  · rw [if_neg hnoNodes, if_neg hnoNodes]
    cases hfirst : sharedAbscissa? (ascending points) with
    | some x =>
        left
        refine ⟨.duplicateNodes x, ?_, ?_⟩
        · simp only [hshared, hfirst]
        · simp only [hfirst]
    | none =>
        right
        have hsorted := ascending_eq_of_perm hfinite hfirst h
        exact ⟨by simp only [hsorted], range?_eq_of_perm hfinite hfirst h⟩

/-- Interpolating the points of a data set in another order leads to the same
outcome. -/
theorem interpolate_of_perm
    {x y : List Float} {data : DataSet Float}
    (hdata : DataSet.ofLists x y = .ok data) {points : List (Float × Float)}
    (hpoints : points ~ data.points) :
    ∃ data', DataSet.ofLists (points.map Prod.fst) (points.map Prod.snd) =
        .ok data' ∧
      ∀ method point amount,
        interpolate method data' point amount =
          interpolate method data point amount := by
  have hfinite := DataSet.isFinite_of_ofLists hdata
  refine ⟨⟨points⟩, DataSet.ofLists_map fun p hp =>
    hfinite p (hpoints.subset hp), ?_⟩
  intro method point amount
  rcases selectNodes_of_perm (fun p hp => (hfinite p hp).1) hpoints
    point amount with
    ⟨error, hfails, hfails'⟩ | ⟨hnodes, hrange⟩
  · simp only [interpolate, hfails, hfails']
    rfl
  · simp only [interpolate, hnodes, hrange]

/-- Three points, given in ascending order instead. -/
theorem interpolate_of_perm_ascending :
    DataSet.ofLists [2.0, 0.0, 1.0] [4.0, -1.0, 0.5] =
        .ok ⟨[(2.0, 4.0), (0.0, -1.0), (1.0, 0.5)]⟩ ∧
      [(0.0, -1.0), (1.0, 0.5), (2.0, 4.0)] ~
        ([(2.0, 4.0), (0.0, -1.0), (1.0, 0.5)] : List (Float × Float)) ∧
      ∃ data', DataSet.ofLists [0.0, 1.0, 2.0] [-1.0, 0.5, 4.0] = .ok data' ∧
        ∀ method point amount, interpolate method data' point amount =
          interpolate method ⟨[(2.0, 4.0), (0.0, -1.0), (1.0, 0.5)]⟩
            point amount := by
  have hdata : DataSet.ofLists [2.0, 0.0, 1.0] [4.0, -1.0, 0.5] =
      .ok (⟨[(2.0, 4.0), (0.0, -1.0), (1.0, 0.5)]⟩ : DataSet Float) := by rfl
  have hperm : [(0.0, -1.0), (1.0, 0.5), (2.0, 4.0)] ~
      ([(2.0, 4.0), (0.0, -1.0), (1.0, 0.5)] : List (Float × Float)) :=
    @perm_append_comm _ [(0.0, -1.0), (1.0, 0.5)] [(2.0, 4.0)]
  exact ⟨hdata, hperm, interpolate_of_perm hdata hperm⟩

end Interpolation
end NumericalMethods
