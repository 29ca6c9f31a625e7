import NumericalMethods.Proofs.Interpolation.Agreement

/-!
# The nodes nearest to a point

Over exact scalars the selected nodes are a window of the sorted data: no node
between two of them is left out.  The nodes are sorted by their distance from
the point, those at the same distance staying in ascending order, and the first
ones are kept; the distance from a point is smaller between two abscissas than
at one of them, so what is kept has no gaps.  Hence nodes selected from equally
spaced ones are equally spaced.
-/

namespace NumericalMethods.Interpolation

open List

/-! ## Sublists without gaps -/

section Windows

variable {K : Type} [LinearOrder K] {kept sorted : List (K × K)}

/-- The abscissas ascend. -/
def Ascends (points : List (K × K)) : Prop :=
  points.Pairwise fun p q => p.1 < q.1

theorem Ascends.nodup_map_fst (hsorted : Ascends sorted) :
    (sorted.map Prod.fst).Nodup :=
  pairwise_map.mpr (hsorted.imp ne_of_lt)

theorem ascends_of_pairwise_le
    (hle : sorted.Pairwise fun p q => p.1 ≤ q.1)
    (hdistinct : (sorted.map Prod.fst).Nodup) :
    Ascends sorted :=
  (hle.and (pairwise_map.mp hdistinct)).imp fun h => lt_of_le_of_ne h.1 h.2

/-- Positions in ascending points are ordered as their abscissas. -/
theorem le_iff_fst_le_fst
    (hsorted : Ascends sorted) {i j : ℕ} {p q : K × K}
    (hp : sorted[i]? = some p) (hq : sorted[j]? = some q) :
    i ≤ j ↔ p.1 ≤ q.1 := by
  obtain ⟨hi, rfl⟩ := List.getElem?_eq_some_iff.mp hp
  obtain ⟨hj, rfl⟩ := List.getElem?_eq_some_iff.mp hq
  have hlt := pairwise_iff_getElem.mp hsorted
  constructor
  · intro hij
    rcases Nat.eq_or_lt_of_le hij with rfl | hij
    · exact le_rfl
    · exact (hlt i j hi hj hij).le
  · intro hle
    by_contra hji
    exact absurd hle (not_le.mpr (hlt j i hj hi (not_le.mp hji)))

theorem prefix_of_sublist
    (hsorted : Ascends sorted) (hkept : kept <+ sorted)
    (houtside : ∀ p ∈ sorted, p ∈ kept ∨ ∀ q ∈ kept, q.1 < p.1) :
    kept <+: sorted := by
  induction hkept with
  | slnil => exact prefix_rfl
  | @cons kept rest p hkept ih =>
      obtain ⟨hp, -⟩ := pairwise_cons.mp hsorted
      have hnil : kept = [] := by
        refine eq_nil_iff_forall_not_mem.mpr fun q hq => ?_
        rcases houtside p mem_cons_self with hmem | habove
        · exact lt_irrefl _ (hp p (hkept.subset hmem))
        · exact lt_asymm (hp q (hkept.subset hq)) (habove q hq)
      rw [hnil]
      exact nil_prefix
  | @cons_cons kept rest p hkept ih =>
      obtain ⟨hp, hrest⟩ := pairwise_cons.mp hsorted
      refine (prefix_cons_inj p).mpr (ih hrest fun q hq => ?_)
      rcases houtside q (mem_cons_of_mem p hq) with hmem | habove
      · rcases mem_cons.mp hmem with rfl | hmem
        · exact absurd (hp q hq) (lt_irrefl _)
        · exact .inl hmem
      · exact .inr fun r hr => habove r (mem_cons_of_mem p hr)

/-- Points that are left out only below or above the kept ones leave a
window. -/
theorem infix_of_sublist
    (hsorted : Ascends sorted) (hkept : kept <+ sorted)
    (houtside : ∀ p ∈ sorted, p ∈ kept ∨ (∀ q ∈ kept, p.1 < q.1) ∨
      ∀ q ∈ kept, q.1 < p.1) :
    kept <:+: sorted := by
  induction hkept with
  | slnil => exact infix_rfl
  | @cons kept rest p hkept ih =>
      obtain ⟨-, hrest⟩ := pairwise_cons.mp hsorted
      exact infix_cons (ih hrest fun q hq => houtside q (mem_cons_of_mem p hq))
  | @cons_cons kept rest p hkept ih =>
      refine (prefix_of_sublist hsorted (hkept.cons_cons p) fun q hq =>
        ?_).isInfix
      obtain ⟨hp, -⟩ := pairwise_cons.mp hsorted
      rcases houtside q hq with hmem | hbelow | habove
      · exact .inl hmem
      · rcases mem_cons.mp hq with rfl | hq
        · exact .inl mem_cons_self
        · exact absurd (hp q hq) (lt_asymm (hbelow p mem_cons_self))
      · exact .inr habove

end Windows

/-! ## Sorting by distance -/

section Distance

variable {K : Type} [Field K] [LinearOrder K] {point : K}
  {sorted : List (K × K)}

/-- Points in the order of their distance from an abscissa. -/
def byDistance (point : K) (sorted : List (K × K)) : List (K × K) :=
  sorted.mergeSort fun p q => decide (|p.1 - point| ≤ |q.1 - point|)

/-- A point is at most as far as another one, and has the smaller abscissa if it
is as far. -/
def Nearer (point : K) (q p : K × K) : Prop :=
  |q.1 - point| ≤ |p.1 - point| ∧ (|q.1 - point| = |p.1 - point| → q.1 < p.1)

theorem byDistance_perm (point : K) (sorted : List (K × K)) :
    byDistance point sorted ~ sorted :=
  mergeSort_perm _ _

/-- Points at one distance stay in their order. -/
theorem filter_byDistance (point : K) (sorted : List (K × K)) (distance : K) :
    (byDistance point sorted).filter (fun p => |p.1 - point| = distance) =
      sorted.filter fun p => |p.1 - point| = distance := by
  have htied : (sorted.filter fun p => |p.1 - point| = distance).Pairwise
      fun p q =>
      decide (|p.1 - point| ≤ |q.1 - point|) = true := by
    refine pairwise_of_forall_mem_list fun p hp q hq => ?_
    have hpd := of_decide_eq_true (mem_filter.mp hp).2
    have hqd := of_decide_eq_true (mem_filter.mp hq).2
    exact decide_eq_true (hpd.trans hqd.symm).le
  have hsublist : (sorted.filter fun p => |p.1 - point| = distance) <+
      byDistance point sorted := by
    refine sublist_mergeSort ?_ ?_ htied filter_sublist
    · intro p q r hpq hqr
      simp only [decide_eq_true_eq] at *
      exact hpq.trans hqr
    · intro p q
      simpa using le_total |p.1 - point| |q.1 - point|
  have hfiltered := hsublist.filter fun p => |p.1 - point| = distance
  rw [filter_filter] at hfiltered
  simp only [Bool.and_self] at hfiltered
  refine (hfiltered.eq_of_length ?_).symm
  exact ((byDistance_perm point sorted).filter _).length_eq.symm

theorem pairwise_byDistance (point : K) (hsorted : Ascends sorted) :
    (byDistance point sorted).Pairwise (Nearer point) := by
  rw [pairwise_iff_forall_sublist]
  intro q p hpair
  have hle : |q.1 - point| ≤ |p.1 - point| := by
    have hpairwise :=
      pairwise_mergeSort'
        (fun p q : K × K => |p.1 - point| ≤ |q.1 - point|) sorted
    exact pairwise_iff_forall_sublist.mp hpairwise hpair
  refine ⟨hle, fun htied => ?_⟩
  have hkept := hpair.filter fun r => |r.1 - point| = |q.1 - point|
  rw [filter_byDistance] at hkept
  have hboth : [q, p].filter (fun r => |r.1 - point| = |q.1 - point|) =
      [q, p] := by
    simp [htied]
  rw [hboth] at hkept
  exact pairwise_iff_forall_sublist.mp hsorted (hkept.trans filter_sublist)

/-- Between two abscissas the distance is smaller than at one of them. -/
theorem abs_sub_lt_or [IsStrictOrderedRing K]
    (point : K) {a x b : K} (hax : a < x) (hxb : x < b) :
    |x - point| < |a - point| ∨ |x - point| < |b - point| := by
  rcases le_total point x with hle | hle
  · right
    rw [abs_of_nonneg (sub_nonneg.mpr hle),
      abs_of_pos (sub_pos.mpr (hle.trans_lt hxb))]
    linarith
  · left
    rw [abs_of_nonpos (sub_nonpos.mpr hle),
      abs_of_neg (sub_neg.mpr (hax.trans_le hle))]
    linarith

/-- A point that all of some points are nearer than is not between two
of them. -/
theorem forall_lt_or_forall_lt [IsStrictOrderedRing K]
    {kept : List (K × K)} {p : K × K} (hnearer : ∀ q ∈ kept, Nearer point q p)
    (hne : ∀ q ∈ kept, q.1 ≠ p.1) :
    (∀ q ∈ kept, p.1 < q.1) ∨ ∀ q ∈ kept, q.1 < p.1 := by
  by_contra hbetween
  simp only [not_or, not_forall, not_lt] at hbetween
  obtain ⟨⟨a, ha, hap⟩, b, hb, hpb⟩ := hbetween
  rcases abs_sub_lt_or point (lt_of_le_of_ne hap (hne a ha))
    (lt_of_le_of_ne hpb (hne b hb).symm) with hlt | hlt
  · exact absurd (hnearer a ha).1 (not_le.mpr hlt)
  · exact absurd (hnearer b hb).1 (not_le.mpr hlt)

end Distance

/-! ## The selection -/

section Selection

variable {K : Type} [Field K] [LinearOrder K] [ExactArithmetic K] {point : K}
  {sorted : List (K × K)} {data : DataSet K}

/-- The nearest points without their positions: the first ones by distance,
sorted again. -/
theorem nearest_eq (hsorted : Ascends sorted) (point : K) (amount : ℕ) :
    nearest sorted point amount =
      ((byDistance point sorted).take amount).mergeSort fun p q =>
        decide (p.1 ≤ q.1) := by
  let indexed : List ((K × K) × ℕ) := sorted.zipIdx.mergeSort fun p q =>
    Scalar.precedes (Scalar.abs (p.1.1 - point)) (Scalar.abs (q.1.1 - point))
  have hindexed : indexed.map Prod.fst = byDistance point sorted := by
    rw [byDistance, ← zipIdx_map_fst 0 sorted]
    exact map_mergeSort fun _ _ _ _ => rfl
  have hmem : ∀ a ∈ indexed.take amount, a ∈ sorted.zipIdx := fun a ha =>
    (mergeSort_perm _ _).subset ((take_sublist amount indexed).subset ha)
  have hnearest : nearest sorted point amount =
      ((indexed.take amount).mergeSort fun p q => decide (p.2 ≤ q.2)).map
        Prod.fst := rfl
  rw [hnearest, ← hindexed, ← map_take]
  refine map_mergeSort fun a ha b hb => ?_
  exact decide_eq_decide.mpr (le_iff_fst_le_fst hsorted
    (mem_zipIdx_iff_getElem?.mp (hmem a ha))
      (mem_zipIdx_iff_getElem?.mp (hmem b hb)))

theorem nearest_perm (hsorted : Ascends sorted) (point : K) (amount : ℕ) :
    nearest sorted point amount ~ (byDistance point sorted).take amount := by
  rw [nearest_eq hsorted]
  exact mergeSort_perm _ _

theorem nearest_sublist (hsorted : Ascends sorted) (point : K) (amount : ℕ) :
    nearest sorted point amount <+ sorted := by
  have hsubperm := nearest_subperm sorted point amount
  have hdistinct : (DataSet.mk (nearest sorted point amount)).x.Nodup :=
    nodup_x_of_subperm (show _ <+~ (DataSet.mk sorted).points from hsubperm)
      hsorted.nodup_map_fst
  have hascends : Ascends (nearest sorted point amount) := by
    have hle := pairwise_mergeSort' (fun p q : K × K => p.1 ≤ q.1)
      ((byDistance point sorted).take amount)
    rw [← nearest_eq hsorted] at hle
    exact ascends_of_pairwise_le hle hdistinct
  have hantisymm : Std.Antisymm fun p q : K × K => p.1 < q.1 :=
    ⟨fun _ _ hlt hgt => absurd hgt (lt_asymm hlt)⟩
  exact sublist_of_subperm_of_pairwise hsubperm hascends hsorted

/-- A point is among the nearest, or they are all nearer than it. -/
theorem mem_nearest_or_forall_nearer
    (hsorted : Ascends sorted) (point : K) (amount : ℕ) {p : K × K}
    (hp : p ∈ sorted) :
    p ∈ nearest sorted point amount ∨ ∀ q ∈ nearest sorted point amount,
    Nearer point q p := by
  have hpairwise := pairwise_byDistance point hsorted
  rw [← take_append_drop amount (byDistance point sorted), pairwise_append]
    at hpairwise
  have hmem := (byDistance_perm point sorted).symm.subset hp
  rw [← take_append_drop amount (byDistance point sorted), mem_append] at hmem
  rcases hmem with hfirst | hlater
  · exact .inl ((nearest_perm hsorted point amount).symm.subset hfirst)
  · refine .inr fun q hq => ?_
    exact hpairwise.2.2 q
      ((nearest_perm hsorted point amount).subset hq) p hlater

theorem exists_append_nearest [IsStrictOrderedRing K]
    (hsorted : Ascends sorted) (point : K) (amount : ℕ) :
    ∃ before after, before ++ nearest sorted point amount ++ after = sorted ∧
      ∀ p ∈ before ++ after, ∀ q ∈ nearest sorted point amount,
        Nearer point q p := by
  have hsublist := nearest_sublist hsorted point amount
  have hinfix : nearest sorted point amount <:+: sorted := by
    refine infix_of_sublist hsorted hsublist fun p hp => ?_
    by_cases hmem : p ∈ nearest sorted point amount
    · exact .inl hmem
    · right
      have hnearer :=
        (mem_nearest_or_forall_nearer hsorted point amount hp).resolve_left hmem
      refine forall_lt_or_forall_lt hnearer fun q hq heq => hmem ?_
      rwa [← inj_on_of_nodup_map hsorted.nodup_map_fst
        (hsublist.subset hq) hp heq]
  obtain ⟨before, after, happend⟩ := hinfix
  have hperm : nearest sorted point amount ++ (before ++ after) ~ sorted := by
    have hfront : nearest sorted point amount ++ before ++ after ~ sorted :=
      (perm_append_comm.append_right after).trans (.of_eq happend)
    rwa [append_assoc] at hfront
  have hapart :=
    (nodup_append.mp (hperm.nodup_iff.mpr hsorted.nodup_map_fst.of_map)).2.2
  refine ⟨before, after, happend, fun p hp => ?_⟩
  refine (mem_nearest_or_forall_nearer hsorted point amount ?_).resolve_left
    fun hmem => ?_
  · exact hperm.subset (mem_append_right _ hp)
  · exact hapart p hmem p hp rfl

theorem ascends_ascending (hdistinct : data.x.Nodup) :
    Ascends (ascending data.points) := by
  have hle : (ascending data.points).Pairwise fun p q => p.1 ≤ q.1 :=
    pairwise_mergeSort' (fun p q : K × K => p.1 ≤ q.1) data.points
  exact ascends_of_pairwise_le hle
    (((ascending_perm data.points).map Prod.fst).nodup_iff.mpr hdistinct)

theorem exists_append_selection [IsStrictOrderedRing K]
    (hsorted : Ascends sorted) (point : K) (amount : Option ℕ) :
    ∃ before after, before ++ selection sorted point amount ++ after = sorted ∧
      (selection sorted point amount).length =
        min (amount.getD sorted.length) sorted.length ∧
      ∀ p ∈ before ++ after, ∀ q ∈ selection sorted point amount,
        Nearer point q p := by
  cases amount with
  | none => exact ⟨[], [], by simp [selection], by simp [selection], by simp⟩
  | some amount =>
      by_cases hfewer : amount < sorted.length
      · obtain ⟨before, after, happend, hnearer⟩ :=
          exists_append_nearest hsorted point amount
        simp only [selection, if_pos hfewer]
        exact ⟨before, after, happend,
          length_nearest sorted point amount, hnearer⟩
      · simp only [selection, if_neg hfewer]
        exact ⟨[], [], by simp, by simpa using not_lt.mp hfewer, by simp⟩

end Selection

/-- The selected nodes are a window of the sorted data with as many points as
are asked for.  A point that is left out is at least as far from the point of
interpolation as every node, and above every node that is as far.  Nodes from
equally spaced data are equally spaced, and the forward form takes them. -/
theorem selectNodes_window
    {K : Type} [Field K] [LinearOrder K] [IsStrictOrderedRing K]
    [ExactArithmetic K]
    {data : DataSet K} (hne : data.points ≠ []) (hdistinct : data.x.Nodup)
    (point : K) {amount : Option ℕ} (hamount : amount ≠ some 0) :
    ∃ before nodes after : List (K × K),
      selectNodes data point amount = .ok ⟨nodes⟩ ∧
      nodes.length = min (amount.getD data.length) data.length ∧
      before ++ nodes ++ after ~ data.points ∧
      (before ++ nodes ++ after).Pairwise (fun p q => p.1 < q.1) ∧
      (∀ p ∈ before ++ after, ∀ q ∈ nodes, |q.1 - point| ≤ |p.1 - point| ∧
        (|q.1 - point| = |p.1 - point| → q.1 < p.1)) ∧
      ∀ h, ((before ++ nodes ++ after).map Prod.fst).IsChain
          (fun a b => b - a = h) →
        (nodes.map Prod.fst).IsChain (fun a b => b - a = h) ∧
        ∃ r, interpolate .newtonFinite data point amount = .ok r ∧
          r.nodes = ⟨nodes⟩ := by
  have hperm := ascending_perm data.points
  have hsorted := ascends_ascending hdistinct
  have hnodes := selectNodes_eq_ok hne hdistinct point hamount
  obtain ⟨before, after, happend, hlength, hnearer⟩ :=
    exists_append_selection hsorted point amount
  rw [hperm.length_eq] at hlength
  refine ⟨before, _, after, hnodes, hlength, .trans (.of_eq happend) hperm,
    ?_, hnearer, ?_⟩
  · rw [happend]
    exact hsorted
  · intro h hchain
    rw [map_append, map_append] at hchain
    have hwindow := hchain.infix (infix_append _ _ _)
    obtain ⟨r, hr, hrNodes, -⟩ := exists_interpolate_eq_ok .newtonFinite hnodes
      fun _ => isEquallySpaced_of_equallySpaced ⟨h, hwindow⟩
    exact ⟨hwindow, r, hr, hrNodes⟩

/-- Three of four equally spaced nodes around a point in the middle: of the
outer ones, which are equally far, the smaller one. -/
theorem selectNodes_window_middle :
    let data : DataSet ℚ := ⟨[(3, 1), (0, 5), (1, 2), (2, 7)]⟩
    data.points ≠ [] ∧ data.x.Nodup ∧ some 3 ≠ some 0 ∧
    ∃ r, selectNodes data (3 / 2) (some 3) = .ok ⟨[(0, 5), (1, 2), (2, 7)]⟩ ∧
      interpolate .newtonFinite data (3 / 2) (some 3) = .ok r ∧
      r.nodes = ⟨[(0, 5), (1, 2), (2, 7)]⟩ := by
  intro data
  have hne : data.points ≠ [] := by simp [data]
  have hdistinct : data.x.Nodup := by decide
  have hamount : some 3 ≠ some 0 := by decide
  have hselected : selectNodes data (3 / 2) (some 3) =
      .ok ⟨[(0, 5), (1, 2), (2, 7)]⟩ := by
    norm_num [data, selectNodes, ascending, nearest, mergeSort,
      MergeSort.Internal.splitInTwo, sharedAbscissa?, DataSet.isEmpty, zipIdx,
      abs_of_pos, abs_of_neg]
  obtain ⟨before, nodes, after, hnodes, -, hperm, hsorted, -, hspaced⟩ :=
    selectNodes_window hne hdistinct (3 / 2) hamount
  obtain rfl : nodes = [(0, 5), (1, 2), (2, 7)] :=
    congrArg DataSet.points (Except.ok.inj (hnodes.symm.trans hselected))
  have hascending : before ++ [(0, 5), (1, 2), (2, 7)] ++ after =
      [(0, 5), (1, 2), (2, 7), (3, 1)] := by
    refine Perm.eq_of_pairwise
      (fun p q _ _ hpq hqp => absurd hqp (lt_asymm hpq)) hsorted
      (by decide) (hperm.trans (by decide))
  obtain ⟨-, r, hr, hrNodes⟩ := hspaced 1 (by rw [hascending]; norm_num)
  exact ⟨hne, hdistinct, hamount, r, hselected, hr, hrNodes⟩

end NumericalMethods.Interpolation
