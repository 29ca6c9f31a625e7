import NumericalMethods.Proofs.ByIndex.Differences
import NumericalMethods.Proofs.Interpolation.Differences

/-!
# Divided differences in one vector

All stages of the divided differences overwrite the same vector, one entry at
each visit.  A table of divided differences over all runs of nodes has its first
row left there at the end.  On the way every visit still finds both entries it
reads as the stage before left them, because a stage goes on to the left of the
entries it has overwritten.
-/

namespace NumericalMethods

variable {α : Type} [Sub α] [Div α] {n : ℕ}

/-- A table of divided differences: `D i j` is the one over the nodes `i`,
…, `j`. -/
structure IsDifferenceTable (x y : Vector α n) (D : ℕ → ℕ → α) : Prop where
  diagonal : ∀ i (hi : i < n), D i i = y[i]
  quotient : ∀ i j (hij : i < j) (hj : j < n),
    D i j = (D (i + 1) j - D i (j - 1)) / (x[j] - x[i])

/-- The entries of a vector, with the first one behind the end. -/
def entryAt {β : Type} (v : Vector β n) (hn : 0 < n) (i : ℕ) : β :=
  if hi : i < n then v[i] else v[0]

omit [Sub α] [Div α] in
theorem entryAt_of_lt (v : Vector α n) {i : ℕ} (hn : 0 < n) (hi : i < n) :
    entryAt v hn i = v[i] :=
  dif_pos hi

/-! ## Visits -/

/-- The entries a stage visits, in their order. -/
def stageEntries (n gap : ℕ) : List (Fin n) :=
  (List.finRange n).reverse.filter fun i => gap ≤ i.val

/-- The visits of the first stages, each with the gap of its stage and its
entry. -/
def visitsOf (n stages : ℕ) : List (ℕ × Fin n) :=
  (List.range' 1 stages).flatMap fun gap =>
    (stageEntries n gap).map fun i => (gap, i)

/-- The visits of all stages. -/
def visits (n : ℕ) : List (ℕ × Fin n) :=
  visitsOf n (n - 1)

/-- The vector after some visits. -/
def afterVisits (x y : Vector α n) (made : List (ℕ × Fin n)) : Vector α n :=
  made.foldl (fun d v => d.set v.2.val (dividedEntry x v.1 d v.2) v.2.isLt) y

omit [Sub α] [Div α] in
theorem mem_stageEntries {gap : ℕ} {i : Fin n} : i ∈ stageEntries n gap ↔
    gap ≤ i.val := by
  simp [stageEntries]

theorem pairwise_stageEntries (n gap : ℕ) :
    (stageEntries n gap).Pairwise fun i j => j < i :=
  (List.pairwise_reverse.mpr (List.pairwise_lt_finRange n)).filter _

theorem mem_visitsOf {stages : ℕ} {v : ℕ × Fin n} :
    v ∈ visitsOf n stages ↔ 1 ≤ v.1 ∧ v.1 < 1 + stages ∧ v.1 ≤ v.2.val := by
  obtain ⟨gap, i⟩ := v
  simp only [visitsOf, List.mem_flatMap, List.mem_map, List.mem_range'_1,
    mem_stageEntries]
  constructor
  · rintro ⟨gap', ⟨hpositive, hle⟩, i', hi', h⟩
    cases h
    exact ⟨hpositive, hle, hi'⟩
  · rintro ⟨hpositive, hle, hi⟩
    exact ⟨gap, ⟨hpositive, hle⟩, i, hi, rfl⟩

theorem visitsOf_succ (n stages : ℕ) :
    visitsOf n (stages + 1) =
      visitsOf n stages ++ (stageEntries n (1 + stages)).map fun i =>
        (1 + stages, i) := by
  rw [visitsOf, List.range'_1_concat, List.flatMap_append,
    List.flatMap_singleton, visitsOf]

/-- The stages before `gap` are complete and stage `gap` has come to an entry,
with smaller ones yet to come. -/
def ReachesEntry (made : List (ℕ × Fin n)) (gap : ℕ) (i : Fin n)
    (later : List (ℕ × Fin n)) :
    Prop :=
  ∃ before after, stageEntries n gap = before ++ i :: after ∧
    made = visitsOf n (gap - 1) ++ before.map (fun k => (gap, k)) ∧
    ∀ v ∈ later, v.1 = gap → v.2 ∈ after

omit [Sub α] [Div α] in
theorem leftBy_le (k : ℕ) (i : Fin n) : leftBy k i ≤ i :=
  Fin.le_def.mpr (Nat.sub_le _ _)

/-- A stage goes on to the left. -/
theorem ReachesEntry.lt_of_mem_later
    {made later : List (ℕ × Fin n)} {gap : ℕ} {i : Fin n}
    (h : ReachesEntry made gap i later) : ∀ v ∈ later, v.1 = gap → v.2 < i := by
  obtain ⟨before, after, hentries, -, hafter⟩ := h
  have hdesc := hentries ▸ pairwise_stageEntries n gap
  intro v hv hgap
  exact List.rel_of_pairwise_cons (List.pairwise_append.mp hdesc).2.1
    (hafter v hv hgap)

theorem reachesEntry_of_stage
    {stages gap : ℕ} {i : Fin n} {part later : List (ℕ × Fin n)}
    (h : (stageEntries n (1 + stages)).map (fun k => (1 + stages, k)) =
      part ++ (gap, i) :: later) :
    ReachesEntry (visitsOf n stages ++ part) gap i later := by
  obtain ⟨before, rest, hentries, rfl, hrest⟩ := List.map_eq_append_iff.mp h
  obtain ⟨i', after, rfl, hi, rfl⟩ := List.map_eq_cons_iff.mp hrest
  cases hi
  refine ⟨before, after, hentries, by rw [Nat.add_sub_cancel_left], ?_⟩
  intro v hv _
  obtain ⟨k, hk, rfl⟩ := List.mem_map.mp hv
  exact hk

theorem reachesEntry_of_visitsOf
    {stages gap : ℕ} {i : Fin n} {made later : List (ℕ × Fin n)}
    (h : visitsOf n stages = made ++ (gap, i) :: later) :
    ReachesEntry made gap i later := by
  induction stages generalizing later with
  | zero => simp [visitsOf] at h
  | succ stages ih =>
      rw [visitsOf_succ] at h
      rcases List.append_eq_append_iff.mp
        h with ⟨part, rfl, hstage⟩ | ⟨part, hbefore, hlater⟩
      · exact reachesEntry_of_stage hstage
      · cases part with
        | nil =>
            have hstage : (stageEntries n (1 + stages)).map
                (fun k => (1 + stages, k)) =
                [] ++ (gap, i) :: later := hlater.symm
            have hreach := reachesEntry_of_stage hstage
            rwa [hbefore, List.append_nil, List.append_nil] at hreach
        | cons v part =>
            obtain ⟨rfl, rfl⟩ := List.cons.inj hlater
            have hmem : (gap, i) ∈ visitsOf n stages := hbefore ▸ by simp
            have hle := (mem_visitsOf.mp hmem).2.1
            obtain ⟨before, after, hentries, hmade, hafter⟩ := ih hbefore
            refine ⟨before, after, hentries, hmade, ?_⟩
            intro v hv hgap
            rcases List.mem_append.mp hv with hv | hv
            · exact hafter v hv hgap
            · obtain ⟨k, -, rfl⟩ := List.mem_map.mp hv
              exact absurd hgap (Nat.ne_of_gt hle)

/-! ## What a visit finds -/

theorem afterVisits_append_map
    (x y : Vector α n) (made : List (ℕ × Fin n)) (gap : ℕ)
    (entries : List (Fin n)) :
    afterVisits x y (made ++ entries.map fun k => (gap, k)) =
      entries.foldl (fun d i => d.set i.val (dividedEntry x gap d i) i.isLt)
        (afterVisits x y made) := by
  rw [afterVisits, List.foldl_append, List.foldl_map, afterVisits]

theorem afterVisits_visitsOf (x y : Vector α n) (stages : ℕ) :
    afterVisits x y (visitsOf n stages) =
      (List.range' 1 stages).foldl (fun d gap => dividedStage x gap d) y := by
  induction stages with
  | zero => rfl
  | succ stages ih =>
      rw [visitsOf_succ, afterVisits_append_map, ih, List.range'_1_concat,
        List.foldl_append]
      rfl

/-- The visits of all stages are the loop. -/
theorem afterVisits_visits (x y : Vector α n) :
    afterVisits x y (visits n) = dividedDifferences x y :=
  afterVisits_visitsOf x y (n - 1)

namespace IsDifferenceTable

variable {x y : Vector α n} {D : ℕ → ℕ → α}

/-- The entries of a table are the divided differences by recursion on the
number of nodes. -/
theorem dividedDifference_eq
    (hD : IsDifferenceTable x y D) {X Y : ℕ → α}
    (hX : ∀ i : Fin n, X i = x.get i) (hY : ∀ i : Fin n, Y i = y.get i)
    {i k : ℕ} (hik : i + k < n) :
    dividedDifference X Y i k = D i (i + k) := by
  induction k generalizing i with
  | zero => exact (hY ⟨i, hik⟩).trans (hD.diagonal i hik).symm
  | succ k ih =>
      have hlast : X (i + k + 1) = x[i + (k + 1)] := hX ⟨i + (k + 1), hik⟩
      have hfirst : X i = x[i] := hX ⟨i, by omega⟩
      have hnext : i + 1 + k = i + (k + 1) := by omega
      have hprevious : i + (k + 1) - 1 = i + k := by omega
      rw [dividedDifference, ih (by omega), ih (by omega), hlast, hfirst, hnext,
        hD.quotient i (i + (k + 1)) (by omega) hik, hprevious]

/-- The stages leave the divided differences over as many nodes as they are, or
over all nodes up to an entry. -/
theorem get_afterVisits_visitsOf (hD : IsDifferenceTable x y D) (stages : ℕ)
    (k : Fin n) :
    (afterVisits x y (visitsOf n stages)).get k =
      D (k - min k.val stages) k := by
  have hX : ∀ i : Fin n, entryAt x k.pos i = x.get i :=
    fun i => entryAt_of_lt x k.pos i.isLt
  have hY : ∀ i : Fin n, entryAt y k.pos i = y.get i :=
    fun i => entryAt_of_lt y k.pos i.isLt
  rw [afterVisits_visitsOf, get_foldl_dividedStage hX hY,
    hD.dividedDifference_eq hX hY (by omega),
    Nat.sub_add_cancel (Nat.min_le_left _ _)]

/-- When a stage comes to an entry, that entry and its left neighbour are as the
stage before left them. -/
theorem get_afterVisits_of_reachesEntry
    (hD : IsDifferenceTable x y D) {made later : List (ℕ × Fin n)} {gap : ℕ}
    {i k : Fin n} (hreach : ReachesEntry made gap i later) (hk : k ≤ i) :
    (afterVisits x y made).get k = D (k - min k.val (gap - 1)) k := by
  obtain ⟨before, after, hentries, rfl, -⟩ := hreach
  have hdesc := hentries ▸ pairwise_stageEntries n gap
  obtain ⟨hbefore, -, hcross⟩ := List.pairwise_append.mp hdesc
  have hnot : k ∉ before :=
    fun hmem => absurd (hcross k hmem i List.mem_cons_self) (not_lt.mpr hk)
  rw [afterVisits_append_map, get_foldl_dividedEntry x gap hbefore, if_neg hnot,
    hD.get_afterVisits_visitsOf]

end IsDifferenceTable

theorem exists_isDifferenceTable (x y : Vector α n) (hn : 0 < n) :
    ∃ D, IsDifferenceTable x y D := by
  refine ⟨fun i j =>
    dividedDifference (entryAt x hn) (entryAt y hn) i (j - i), ?_, ?_⟩
  · intro i hi
    rw [Nat.sub_self, dividedDifference, entryAt_of_lt y hn hi]
  · intro i j hij hj
    obtain ⟨k, rfl⟩ := Nat.exists_eq_add_of_lt hij
    have hgap : i + k + 1 - i = k + 1 := by omega
    have hnext : i + k + 1 - (i + 1) = k := by omega
    have hprevious : i + k + 1 - 1 - i = k := by omega
    rw [hgap, hnext, hprevious, dividedDifference, entryAt_of_lt x hn hj,
      entryAt_of_lt x hn (hij.trans hj)]

theorem dividedDifferences?_toList (x y : Vector α n) :
    dividedDifferences? x.toList y.toList =
      some (dividedDifferences x y).toList := by
  have hloop := dividedDifferencesByIndex_toList_append x y []
  rw [dividedDifferencesByIndex_eq, List.append_nil, List.append_nil] at hloop
  cases hvalue : dividedDifferences? x.toList y.toList with
  | none =>
      rw [hvalue] at hloop
      cases hloop
  | some d =>
      rw [hvalue] at hloop
      rw [Except.ok.inj hloop]

/-- The loop over two lists of the same length returns the first row of every
table of their divided differences.  At each visit of the loop the two entries
it reads are those that the table combines into the new one, and no later visit
of the same stage reads the entry that is overwritten. -/
theorem dividedDifferences_inPlace (x y : Vector α n) :
    (0 < n → ∃ D, IsDifferenceTable x y D) ∧
    ∀ D, IsDifferenceTable x y D →
      dividedDifferences? x.toList y.toList = some ((List.range n).map (D 0)) ∧
      dividedDifferences? x.toList y.toList =
        some (afterVisits x y (visits n)).toList ∧
      ∀ made gap i later, visits n = made ++ (gap, i) :: later →
        1 ≤ gap ∧ gap ≤ i.val ∧
        (afterVisits x y made).get i = D (i - gap + 1) i ∧
        (afterVisits x y made).get (leftBy 1 i) = D (i - gap) (i - 1) ∧
        ∀ v ∈ later, v.1 = gap → v.2 < i := by
  refine ⟨exists_isDifferenceTable x y, fun D hD => ⟨?_, ?_, ?_⟩⟩
  · have hrow : (dividedDifferences x y).toList = (List.range n).map (D 0) := by
      refine List.ext_getElem (by simp) fun k hk _ => ?_
      have hkn : k < n := by simpa using hk
      have hentry := hD.get_afterVisits_visitsOf (n - 1) ⟨k, hkn⟩
      have hmin : k - min k (n - 1) = 0 := by omega
      rw [← visits, afterVisits_visits, hmin] at hentry
      simpa [Vector.get] using hentry
    rw [dividedDifferences?_toList, hrow]
  · rw [afterVisits_visits, dividedDifferences?_toList]
  · intro made gap i later h
    have hmem : (gap, i) ∈ visitsOf n (n - 1) := by
      rw [← visits, h]
      simp
    obtain ⟨hpositive, -, hle⟩ : 1 ≤ gap ∧ gap < 1 + (n - 1) ∧ gap ≤ i.val :=
      mem_visitsOf.mp hmem
    have hreach := reachesEntry_of_visitsOf h
    have hself := hD.get_afterVisits_of_reachesEntry hreach le_rfl
    have hleft := hD.get_afterVisits_of_reachesEntry hreach (leftBy_le 1 i)
    have hselfStart : i.val - min i.val (gap - 1) = i - gap + 1 := by omega
    have hleftStart : i.val - 1 - min (i.val - 1) (gap - 1) =
        i - gap := by omega
    rw [hselfStart] at hself
    rw [leftBy, hleftStart] at hleft
    exact ⟨hpositive, hle, hself, hleft, hreach.lt_of_mem_later⟩

/-- The table of three values of a parabola. -/
theorem dividedDifferences_inPlace_parabola :
    ∃ D, IsDifferenceTable (#v[0, 1, 3] : Vector ℚ 3) #v[1, 2, 10] D ∧
      dividedDifferences? [0, 1, 3] [1, 2, 10] = some [D 0 0, D 0 1, D 0 2] ∧
      (afterVisits (#v[0, 1, 3] : Vector ℚ 3) #v[1, 2, 10] [(1, 2)]).get 1 =
        D 1 1 := by
  obtain ⟨hexists, htable⟩ :=
    dividedDifferences_inPlace (#v[0, 1, 3] : Vector ℚ 3) #v[1, 2, 10]
  obtain ⟨D, hD⟩ := hexists (by decide)
  obtain ⟨hrow, -, hvisits⟩ := htable D hD
  have hsplit : visits 3 = [(1, 2)] ++ (1, 1) :: [(2, 2)] := by decide
  exact ⟨D, hD, hrow, (hvisits [(1, 2)] 1 1 [(2, 2)] hsplit).2.2.1⟩

end NumericalMethods
