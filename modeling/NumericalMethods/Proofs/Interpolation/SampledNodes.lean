import NumericalMethods.Engine
import NumericalMethods.Proofs.Binary64.ErrorBounds
import NumericalMethods.Proofs.Failure
import NumericalMethods.Proofs.Interpolation.OrderOfData

/-!
# Interpolating sampled functions

The nodes at which a function is sampled are rounded.  They ascend, but
neighbours may coincide, and their distances may differ by more than the check
for equal spacing allows.  So the interpolation of a sampled function has two
ways to fail.  Neither is met unless the step is small against an end of the
interval, where the rounding of a node is no longer small against the step.
-/

namespace NumericalMethods

open Binary64 List

namespace DataSet

/-! ## The nodes of a sample -/

section Nodes

variable (start stop : Float) (count : ℕ)

def sampleStep : Float :=
  (stop - start) / Float.ofNat (count - 1)

def sampleNode (i : ℕ) : Float :=
  start + sampleStep start stop count * Float.ofNat i

/-- Two neighbours are rounded to the same number. -/
def NodesCoincide : Prop :=
  ∃ i, i + 1 < count ∧
    (sampleNode start stop count i == sampleNode start stop count (i + 1)) =
      true

/-- The ends of the interval are at most `2 ^ k` steps away from zero. -/
def StepResolves (k : ℕ) : Prop :=
  |value start| ≤ 2 ^ k * value (sampleStep start stop count) ∧
    |value stop| ≤ 2 ^ k * value (sampleStep start stop count)

/-- The nodes of a sample that was made. -/
structure IsSample (data : DataSet Float) : Prop where
  two_le : 2 ≤ count
  count_lt : count < 2 ^ 64
  isFinite_start : start.isFinite = true
  isFinite_stop : stop.isFinite = true
  lt : value start < value stop
  x_eq : data.x = (range count).map (sampleNode start stop count)
  isFinite_node : ∀ i < count, (sampleNode start stop count i).isFinite = true

end Nodes

variable {start stop : Float} {count : ℕ} {data : DataSet Float}

theorem isSample_of_sample_eq_ok
    {f : ScalarFunction Float} (h : sample f start stop count = .ok data) :
    IsSample start stop count data := by
  rw [sample] at h
  by_cases hfew : count < 2
  · rw [if_pos hfew] at h
    cases h
  · rw [if_neg hfew] at h
    by_cases hinterval : (!(Scalar.isFinite start && Scalar.isFinite stop) ||
        decide (stop ≤ start)) = true
    · rw [if_pos hinterval] at h
      cases h
    · rw [if_neg hinterval] at h
      simp only [Bool.or_eq_true, Bool.not_eq_true', Bool.and_eq_false_iff,
        decide_eq_true_eq, not_or, Bool.not_eq_false] at hinterval
      obtain ⟨⟨hstart, hstop⟩, hle⟩ := hinterval
      obtain ⟨hfits, h⟩ := reserve_bind_eq_ok_iff.mp h
      have hlists := liftError_eq_ok_iff.mp h
      have hx : data.x = (range count).map (sampleNode start stop count) := by
        rw [ofLists] at hlists
        split at hlists
        · cases hlists
        · split at hlists
          · cases hlists
            exact map_fst_zip (by simp)
          · cases hlists
      refine ⟨by omega, ?_, hstart, hstop, ?_, hx, ?_⟩
      · have hblock : largestBlock < 2 ^ 64 := by decide
        omega
      · exact not_le.mp fun hvalue =>
          hle ((le_iff_value_le hstop hstart).mpr hvalue)
      · intro i hi
        have hmem : sampleNode start stop count i ∈ data.x := by
          rw [hx]
          exact mem_map_of_mem (mem_range.mpr hi)
        obtain ⟨p, hp, hfst⟩ := mem_map.mp hmem
        rw [← hfst]
        exact (isFinite_of_ofLists hlists p hp).1

namespace IsSample

variable (h : IsSample start stop count data)
include h

theorem isFinite_step : (sampleStep start stop count).isFinite = true := by
  have hnode := h.isFinite_node 1 h.two_le
  exact (isFinite_of_isFinite_mul (isFinite_of_isFinite_add hnode).2).1

theorem isFinite_sub : (stop - start).isFinite = true :=
  isFinite_of_isFinite_div h.isFinite_step

theorem value_sub : value (stop - start) = nearest (value stop - value start) :=
  (rounds_sub h.isFinite_stop h.isFinite_start).value_eq h.isFinite_sub

theorem one_le_value_count : 1 ≤ value (Float.ofNat (count - 1)) := by
  have hcount := h.two_le
  have hlt := h.count_lt
  rw [value_ofNat (by omega)]
  calc (1 : ℚ) = nearest (1 : ℕ) := by
        rw [nearest_natCast_of_lt (by decide), Nat.cast_one]
    _ ≤ nearest (count - 1 : ℕ) :=
      nearest_mono (by exact_mod_cast (by omega : 1 ≤ count - 1))

theorem value_step :
    value (sampleStep start stop count) =
      nearest (value (stop - start) / value (Float.ofNat (count - 1))) := by
  have hlt := h.count_lt
  have hone := h.one_le_value_count
  have hround :=
    rounds_div h.isFinite_sub (isFinite_ofNat (n := count - 1) (by omega))
    (by linarith)
  exact hround.value_eq h.isFinite_step

theorem step_nonneg : 0 ≤ value (sampleStep start stop count) := by
  have hone := h.one_le_value_count
  have hsub : 0 ≤ value (stop - start) := by
    rw [h.value_sub]
    exact nearest_nonneg (by linarith [h.lt])
  rw [h.value_step]
  exact nearest_nonneg (by positivity)

theorem value_node {i : ℕ} (hi : i < count) :
    value (sampleNode start stop count i) =
      nearest
        (value start +
          nearest (value (sampleStep start stop count) * nearest i)) := by
  have hlt := h.count_lt
  have hnode := h.isFinite_node i hi
  have hproduct : (sampleStep start stop count * Float.ofNat i).isFinite =
    true :=
    (isFinite_of_isFinite_add hnode).2
  have hi' : i < 2 ^ 65 := by omega
  rw [← value_ofNat hi',
    ← (rounds_mul h.isFinite_step (isFinite_ofNat hi')).value_eq hproduct]
  exact (rounds_add h.isFinite_start hproduct).value_eq hnode

/-- The nodes ascend, since every operation is rounded monotonically. -/
theorem value_node_le {i j : ℕ} (hij : i ≤ j) (hj : j < count) :
    value (sampleNode start stop count i) ≤
      value (sampleNode start stop count j) := by
  rw [h.value_node (hij.trans_lt hj), h.value_node hj]
  apply nearest_mono
  apply add_le_add_right
  apply nearest_mono
  apply mul_le_mul_of_nonneg_left _ h.step_nonneg
  exact nearest_mono (by exact_mod_cast hij)

/-! ## Rounding errors of the nodes -/

section Errors

variable {M : ℚ} (hstart : |value start| ≤ M) (hstop : |value stop| ≤ M)
include hstart hstop

/-- The last node is not far beyond the end. -/
theorem step_mul_le : value (sampleStep start stop count) * (count - 1 : ℕ) ≤
    5 * M := by
  have hlt := h.count_lt
  have hone := h.one_le_value_count
  have hnonneg := h.step_nonneg
  have hM : 0 ≤ M := (abs_nonneg _).trans hstart
  have hlength : |value stop - value start| ≤ 2 * M := by
    have := abs_sub (value stop) (value start)
    linarith
  have hmultiple : IsMultiple (value stop - value start) :=
    (isMultiple_value h.isFinite_stop).sub (isMultiple_value h.isFinite_start)
  have hsub : value (stop - start) ≤ 2 * M + 2 * M / 2 ^ 53 := by
    have herror := abs_le.mp (hmultiple.abs_nearest_sub_le_of_abs_le hlength)
    have hle := (le_abs_self _).trans hlength
    rw [h.value_sub]
    linarith [herror.2]
  have hcount : ((count - 1 : ℕ) : ℚ) - (count - 1 : ℕ) / 2 ^ 53 ≤
      value (Float.ofNat (count - 1)) := by
    rw [value_ofNat (by omega)]
    have herror :=
      abs_le.mp ((isMultiple_natCast (count - 1)).abs_nearest_sub_le)
    rw [Nat.abs_cast] at herror
    linarith [herror.1]
  have hdivided : value (sampleStep start stop count) *
      value (Float.ofNat (count - 1)) ≤
      2 * value (stop - start) := by
    have hsubNonneg : 0 ≤ value (stop - start) := by
      rw [h.value_sub]
      exact nearest_nonneg (by linarith [h.lt])
    have hle := nearest_le_two_mul
      (q := value (stop - start) / value (Float.ofNat (count - 1)))
      (by positivity)
    rw [← h.value_step, ← mul_div_assoc, le_div_iff₀ (by linarith)] at hle
    exact hle
  have hwhole := mul_le_mul_of_nonneg_left hcount hnonneg
  rw [mul_sub, ← mul_div_assoc] at hwhole
  linarith

variable {k : ℕ} (hM : M ≤ 2 ^ k * value (sampleStep start stop count))
include hM

theorem step_pos : 0 < value (sampleStep start stop count) := by
  have hlt := h.lt
  by_contra hnot
  have hzero : value (sampleStep start stop count) = 0 :=
    le_antisymm (not_lt.mp hnot) h.step_nonneg
  rw [hzero, mul_zero] at hM
  have hstart' := abs_le.mp (hstart.trans hM)
  have hstop' := abs_le.mp (hstop.trans hM)
  linarith [hstart'.1, hstop'.2]

variable (hk : k ≤ 48)
include hk

/-- A node is off by a few units in the last place of the larger end. -/
theorem abs_value_node_sub_le {i : ℕ} (hi : i < count) :
    |value (sampleNode start stop count i) -
        (value start + value (sampleStep start stop count) * i)| ≤
          12 * M / 2 ^ 53 := by
  have hpos := h.step_pos hstart hstop hM
  have hspan := h.step_mul_le hstart hstop
  have hi' : (i : ℚ) ≤ (count - 1 : ℕ) := by
    exact_mod_cast (by omega : i ≤ count - 1)
  have hreach : value (sampleStep start stop count) * i ≤ 5 * M :=
    (mul_le_mul_of_nonneg_left hi' hpos.le).trans hspan
  have hexact : nearest i = i := by
    have hpower : (2 : ℚ) ^ k ≤ 2 ^ 48 := pow_le_pow_right₀ one_le_two hk
    have hbound : (i : ℚ) ≤ 5 * 2 ^ 48 := by
      apply le_of_mul_le_mul_left _ hpos
      have := mul_le_mul_of_nonneg_right hpower hpos.le
      linarith
    apply nearest_natCast_of_lt
    have hbound' : i ≤ 5 * 2 ^ 48 := by exact_mod_cast hbound
    omega
  have hstepMultiple := isMultiple_value h.isFinite_step
  have hbounded : |value (sampleStep start stop count) * i| ≤ 5 * M := by
    rwa [abs_of_nonneg (by positivity)]
  have hproduct :=
    (hstepMultiple.mul_natCast i).abs_nearest_sub_le_of_abs_le hbounded
  have hsum : |value start + nearest
      (value (sampleStep start stop count) * i)| ≤ 7 * M := by
    have := abs_le.mp hproduct
    have hstart' := abs_le.mp hstart
    have hnonneg : 0 ≤ nearest (value (sampleStep start stop count) * i) :=
      nearest_nonneg (by positivity)
    rw [abs_le]
    constructor
    · linarith [hstart'.1]
    · linarith [hstart'.2, this.2]
  have hrounded := ((isMultiple_value h.isFinite_start).add
    (isMultiple_nearest _)).abs_nearest_sub_le_of_abs_le hsum
  rw [h.value_node hi, hexact]
  have hboth := abs_add_le
    (nearest (value start + nearest (value (sampleStep start stop count) * i)) -
      (value start + nearest (value (sampleStep start stop count) * i)))
    (nearest (value (sampleStep start stop count) * i) -
      value (sampleStep start stop count) * i)
  refine le_trans (le_of_eq ?_)
    (hboth.trans ((add_le_add hrounded hproduct).trans (le_of_eq ?_)))
  · congr 1
    ring
  · ring

/-- So the distance of neighbours is the step up to twice as much. -/
theorem abs_value_node_succ_sub_le {i : ℕ} (hi : i + 1 < count) :
    |value (sampleNode start stop count (i + 1)) -
      value (sampleNode start stop count i) -
        value (sampleStep start stop count)| ≤ 24 * M / 2 ^ 53 := by
  have hnode :=
    h.abs_value_node_sub_le hstart hstop hM hk (by omega : i < count)
  have hnext := h.abs_value_node_sub_le hstart hstop hM hk hi
  rw [Nat.cast_succ] at hnext
  rw [abs_le] at hnode hnext ⊢
  constructor
  · linarith [hnode.2, hnext.1]
  · linarith [hnode.1, hnext.2]

end Errors

/-- Neighbours are kept apart if the ends are not too many steps away
from zero. -/
theorem not_nodesCoincide (hresolves : StepResolves start stop count 48) :
    ¬ NodesCoincide start stop count := by
  rintro ⟨i, hi, hbeq⟩
  have hstart := hresolves.1
  have hstop := hresolves.2
  have hpos := h.step_pos hstart hstop le_rfl
  have hvalue := (beq_iff_value_eq (h.isFinite_node i (by omega))
    (h.isFinite_node (i + 1) hi)).mp hbeq
  have hdistance := h.abs_value_node_succ_sub_le hstart hstop le_rfl le_rfl hi
  rw [hvalue, sub_self, zero_sub, abs_neg, abs_of_pos hpos] at hdistance
  linarith

/-! ## Equal spacing -/

/-- With three nodes the step is at most half of the range of the format. -/
theorem step_le (hthree : 2 < count) :
    value (sampleStep start stop count) ≤ 2 ^ 1023 := by
  have hlt := h.count_lt
  have hsub := (le_abs_self _).trans (abs_value_lt h.isFinite_sub).le
  have hcount : 2 ≤ value (Float.ofNat (count - 1)) := by
    rw [value_ofNat (by omega)]
    calc (2 : ℚ) = nearest (2 : ℕ) := by
          rw [nearest_natCast_of_lt (by decide), Nat.cast_ofNat]
      _ ≤ nearest (count - 1 : ℕ) :=
          nearest_mono (by exact_mod_cast (by omega : 2 ≤ count - 1))
  have hself : nearest (2 ^ 1023) = 2 ^ 1023 := by
    have hpower : (2 ^ 1023 : ℚ) = (1 : ℤ) * 2 ^ (1023 : ℤ) := by
      rw [Int.cast_one, one_mul]
      rfl
    exact nearest_of_abs_lt hpower (by decide) (by decide)
  rw [h.value_step, ← hself]
  apply nearest_mono
  rw [div_le_iff₀ (by linarith)]
  calc value (stop - start) ≤ 2 ^ 1024 := hsub
    _ = 2 ^ 1023 * 2 := pow_succ 2 1023
    _ ≤ 2 ^ 1023 * value (Float.ofNat (count - 1)) :=
        mul_le_mul_of_nonneg_left hcount (by positivity)

section Spacing

variable (hresolves : StepResolves start stop count 16)
include hresolves

theorem step_pos_of_resolves : 0 < value (sampleStep start stop count) :=
  h.step_pos hresolves.1 hresolves.2 le_rfl

variable (hthree : 2 < count)
include hthree

/-- The computed distance of neighbours. -/
theorem distance_of_resolves {i : ℕ} (hi : i + 1 < count) :
    (sampleNode start stop count (i + 1) -
      sampleNode start stop count i).isFinite = true ∧
      |value (sampleNode start stop count (i + 1) -
        sampleNode start stop count i) -
        value (sampleStep start stop count)| ≤
        (24 * 2 ^ 16 + 2) / 2 ^ 53 * value (sampleStep start stop count) := by
  have hpos := h.step_pos_of_resolves hresolves
  have hle := h.step_le hthree
  have hnode := h.isFinite_node i (by omega)
  have hnext := h.isFinite_node (i + 1) hi
  have hdistance :=
    h.abs_value_node_succ_sub_le hresolves.1 hresolves.2 le_rfl (by decide) hi
  have hbounds := abs_le.mp hdistance
  have hexact : |value (sampleNode start stop count (i + 1)) -
      value (sampleNode start stop count i)| ≤
      (1 + 1 / 2 ^ 8) * value (sampleStep start stop count) := by
    rw [abs_le]
    constructor
    · linarith [hbounds.1]
    · linarith [hbounds.2]
  have hfinite : (sampleNode start stop count (i + 1) -
      sampleNode start stop count i).isFinite = true := by
    apply (rounds_sub hnext hnode).isFinite_of_abs_le_three_mul
    have hpower : (2 : ℚ) ^ 1023 = 2 * 2 ^ 1022 := pow_succ' 2 1022
    have hpositive : (0 : ℚ) < 2 ^ 1022 := by positivity
    rw [hpower] at hle
    generalize (2 : ℚ) ^ 1022 = bound at hle hpositive ⊢
    linarith
  have hrounded := ((isMultiple_value hnext).sub
    (isMultiple_value hnode)).abs_nearest_sub_le_of_abs_le hexact
  rw [← (rounds_sub hnext hnode).value_eq hfinite] at hrounded
  have hrounded' := abs_le.mp hrounded
  refine ⟨hfinite, ?_⟩
  rw [abs_le]
  constructor
  · linarith [hbounds.1, hrounded'.1]
  · linarith [hbounds.2, hrounded'.2]

/-- The distances agree with the first one up to a billionth of it. -/
theorem abs_distance_sub_le {i : ℕ} (hi : i + 1 < count) :
    Float.abs
      ((sampleNode start stop count (i + 1) - sampleNode start stop count i) -
        (sampleNode start stop count 1 - sampleNode start stop count 0)) ≤
      1e-9 * Float.abs
        (sampleNode start stop count 1 - sampleNode start stop count 0) := by
  have hpos := h.step_pos_of_resolves hresolves
  obtain ⟨hfinite, hdistance⟩ := h.distance_of_resolves hresolves hthree hi
  obtain ⟨hfirst, hdistance'⟩ :=
    h.distance_of_resolves hresolves hthree (by omega : 0 + 1 < count)
  rw [Nat.zero_add] at hfirst hdistance'
  generalize sampleNode start stop count (i + 1) -
    sampleNode start stop count i = a at *
  generalize sampleNode start stop count 1 -
    sampleNode start stop count 0 = b at *
  generalize value (sampleStep start stop count) = step at *
  have hbounds := abs_le.mp hdistance
  have hbounds' := abs_le.mp hdistance'
  have hspread : |value a - value b| ≤
      2 * ((24 * 2 ^ 16 + 2) / 2 ^ 53 * step) := by
    rw [abs_le]
    constructor
    · linarith [hbounds.1, hbounds'.2]
    · linarith [hbounds.2, hbounds'.1]
  have hsub : (a - b).isFinite = true := by
    apply (rounds_sub hfinite hfirst).isFinite_of_abs_le hfirst
    rw [abs_of_pos (by linarith [hbounds'.1] : 0 < value b)]
    linarith [hbounds'.1]
  have hrounded := ((isMultiple_value hfinite).sub
    (isMultiple_value hfirst)).abs_nearest_sub_le_of_abs_le hspread
  rw [← (rounds_sub hfinite hfirst).value_eq hsub] at hrounded
  have hrounded' := abs_le.mp hrounded
  have hspread' := abs_le.mp hspread
  have hbound : |value (a - b)| ≤ value (1e-9 : Float) * |value b| := by
    rw [value_billionth,
      abs_of_pos (by linarith [hbounds'.1] : 0 < value b), abs_le]
    constructor
    · linarith [hrounded'.1, hspread'.1, hbounds'.1]
    · linarith [hrounded'.2, hspread'.2, hbounds'.1]
  have hproduct : (1e-9 * Float.abs b).isFinite = true := by
    apply (rounds_mul (x := 1e-9) rfl
      (isFinite_abs hfirst)).isFinite_of_abs_le hfirst
    rw [value_abs hfirst, abs_mul, abs_abs, value_billionth]
    have := abs_nonneg (value b)
    rw [abs_of_pos (by positivity)]
    linarith
  rw [le_iff_value_le (isFinite_abs hsub) hproduct, value_abs hsub,
    (rounds_mul (x := 1e-9) rfl (isFinite_abs hfirst)).value_eq hproduct,
    value_abs hfirst, ← nearest_value hsub, abs_nearest]
  exact nearest_mono hbound

end Spacing

end IsSample
end DataSet

namespace Interpolation

open DataSet

/-! ## The checks of the nodes -/

/-- The check for equal spacing, node by node. -/
theorem isEquallySpaced_map_range {α : Type} [Scalar α]
    {node : ℕ → α} {count : ℕ} (h : 2 < count → ∀ i, i + 1 < count →
      Scalar.abs ((node (i + 1) - node i) - (node 1 - node 0)) ≤
        1e-9 * Scalar.abs (node 1 - node 0)) :
    isEquallySpaced ((range count).map node) = true := by
  rcases count with _ | _ | _ | n
  · rfl
  · rfl
  · rfl
  · obtain ⟨rest, hrest⟩ : ∃ rest, (range (n + 3)).map node =
        node 0 :: node 1 :: node 2 :: rest := by
      simp [range_succ_eq_map]
    rw [hrest, isEquallySpaced, ← hrest, all_eq_true]
    intro v hv
    obtain ⟨i, hi, rfl⟩ := getElem_of_mem hv
    simp only [length_zipWith, length_tail, length_map, length_range] at hi
    simp only [getElem_zipWith, getElem_tail, getElem_map, getElem_range]
    exact decide_eq_true (h (by omega) i (by omega))

theorem sharedAbscissa?_eq_none_of_pairwise {points : List (Float × Float)}
    (h : points.Pairwise fun p q => ¬ (p.1 == q.1) = true) :
    sharedAbscissa? points = none := by
  induction points with
  | nil => rfl
  | cons p rest ih =>
      cases rest with
      | nil => rfl
      | cons q rest =>
          obtain ⟨hp, hrest⟩ := pairwise_cons.mp h
          rw [sharedAbscissa?, if_neg (hp q mem_cons_self)]
          exact ih hrest

section Sample

variable {start stop : Float} {count : ℕ} {data : DataSet Float}
variable (h : IsSample start stop count data)
include h

theorem isFinite_of_isSample : ∀ p ∈ data.points, p.1.isFinite = true := by
  intro p hp
  have hmem : p.1 ∈ data.x := mem_map_of_mem hp
  rw [h.x_eq] at hmem
  obtain ⟨i, hi, hnode⟩ := mem_map.mp hmem
  rw [← hnode]
  exact h.isFinite_node i (mem_range.mp hi)

/-- Nodes that are kept apart ascend strictly. -/
theorem pairwise_value_lt (hapart : ¬ NodesCoincide start stop count) :
    data.points.Pairwise fun p q => value p.1 < value q.1 := by
  have hnodes : data.x.Pairwise fun a b => value a < value b := by
    rw [h.x_eq, pairwise_map, pairwise_iff_getElem]
    intro i j hi hj hij
    rw [length_range] at hi hj
    rw [getElem_range, getElem_range]
    have hne : value (sampleNode start stop count i) ≠
        value (sampleNode start stop count (i + 1)) := fun hvalue =>
      hapart ⟨i, by omega, (beq_iff_value_eq (h.isFinite_node i hi)
        (h.isFinite_node (i + 1) (by omega))).mpr hvalue⟩
    exact (lt_of_le_of_ne (h.value_node_le i.le_succ (by omega)) hne).trans_le
      (h.value_node_le hij hj)
  rw [DataSet.x, pairwise_map] at hnodes
  exact hnodes

theorem ascending_of_isSample (hapart : ¬ NodesCoincide start stop count) :
    ascending data.points = data.points := by
  apply mergeSort_of_pairwise
  refine (pairwise_value_lt h hapart).imp_of_mem ?_
  intro p q hp hq hlt
  exact precedes_of_value_lt (isFinite_of_isSample h p hp)
    (isFinite_of_isSample h q hq) hlt

/-- Nodes that coincide are noticed, and no others are. -/
theorem sharedAbscissa?_of_isSample :
    sharedAbscissa? (ascending data.points) = none ↔
      ¬ NodesCoincide start stop count := by
  constructor
  · rintro hnone ⟨i, hi, hbeq⟩
    have hne : (ascending data.points).Pairwise fun p q =>
        value p.1 ≠ value q.1 :=
      pairwise_value_ne_of_sharedAbscissa?_eq_none (pairwise_ascending _)
        (fun p hp =>
          isFinite_of_isSample h p ((ascending_perm _).subset hp)) hnone
    have hnodes : data.x.Pairwise fun a b => value a ≠ value b :=
      pairwise_map.mpr (((ascending_perm _).pairwise_iff Ne.symm).mp hne)
    rw [h.x_eq, pairwise_map, pairwise_iff_getElem] at hnodes
    have hdistinct :=
      hnodes i (i + 1) (by simpa using by omega) (by simpa using hi)
      i.lt_succ_self
    rw [getElem_range, getElem_range] at hdistinct
    exact hdistinct ((beq_iff_value_eq (h.isFinite_node i (by omega))
      (h.isFinite_node (i + 1) hi)).mp hbeq)
  · intro hapart
    rw [ascending_of_isSample h hapart]
    apply sharedAbscissa?_eq_none_of_pairwise
    refine (pairwise_value_lt h hapart).imp_of_mem ?_
    intro p q hp hq hlt hbeq
    exact hlt.ne ((beq_iff_value_eq (isFinite_of_isSample h p hp)
      (isFinite_of_isSample h q hq)).mp hbeq)

theorem isEmpty_of_isSample : data.isEmpty = false := by
  have hcount := h.two_le
  have hlength : data.points.length = count := by
    rw [← length_map (f := Prod.fst), ← DataSet.x, h.x_eq, length_map,
      length_range]
  rw [DataSet.isEmpty, List.isEmpty_eq_false_iff]
  rintro hnil
  rw [hnil, length_nil] at hlength
  omega

theorem selectNodes_of_nodesCoincide
    (hcoincide : NodesCoincide start stop count) (point : Float) :
    ∃ x, selectNodes data point none = .error (.duplicateNodes x) := by
  cases hshared : sharedAbscissa? (ascending data.points) with
  | none => exact absurd hcoincide ((sharedAbscissa?_of_isSample h).mp hshared)
  | some x =>
      refine ⟨x, ?_⟩
      simp only [selectNodes, isEmpty_of_isSample h, hshared,
        if_neg Bool.false_ne_true]

theorem selectNodes_of_not_nodesCoincide
    (hapart : ¬ NodesCoincide start stop count) (point : Float) :
    selectNodes data point none = .ok data := by
  have hshared := (sharedAbscissa?_of_isSample h).mpr hapart
  rw [ascending_of_isSample h hapart] at hshared
  simp only [selectNodes, isEmpty_of_isSample h, if_neg Bool.false_ne_true,
    ascending_of_isSample h hapart, hshared]

theorem isEquallySpaced_of_isSample
    (hresolves : StepResolves start stop count 16) :
    isEquallySpaced data.x = true := by
  rw [h.x_eq]
  apply isEquallySpaced_map_range
  intro hthree i hi
  exact h.abs_distance_sub_le hresolves hthree hi

/-- The ways in which the interpolation of a sample can end. -/
theorem interpolate_cases {point : Float} (hpoint : point.isFinite = true)
    (method : InterpolationMethod) :
    (NodesCoincide start stop count ∧
        ∃ x, interpolate method data point none = .error (.duplicateNodes x)) ∨
      (¬ NodesCoincide start stop count ∧ method = .newtonFinite ∧
        isEquallySpaced data.x = false ∧
        interpolate method data point none = .error .unequalSpacing) ∨
      (¬ NodesCoincide start stop count ∧
        (method = .newtonFinite → isEquallySpaced data.x = true) ∧
        ∃ result, interpolate method data point none = .ok result ∧
          result.nodes = data) := by
  have hguard : (!Scalar.isFinite point) = false := by
    rw [Bool.not_eq_false']
    exact hpoint
  by_cases hcoincide : NodesCoincide start stop count
  · left
    obtain ⟨x, hx⟩ := selectNodes_of_nodesCoincide h hcoincide point
    refine ⟨hcoincide, x, ?_⟩
    simp only [interpolate, hguard, hx]
    rfl
  · right
    have hnodes := selectNodes_of_not_nodesCoincide h hcoincide point
    by_cases hspacing :
      (decide (method = .newtonFinite) && !isEquallySpaced data.x) = true
    · left
      have hfails := Bool.and_eq_true_iff.mp hspacing
      rw [decide_eq_true_iff, Bool.not_eq_true'] at hfails
      refine ⟨hcoincide, hfails.1, hfails.2, ?_⟩
      simp only [interpolate, hguard, hnodes, bind, Except.bind,
        hspacing, if_true, Bool.false_eq_true, if_false]
      rfl
    · right
      refine ⟨hcoincide, ?_, ?_⟩
      · intro hmethod
        simpa [hmethod] using hspacing
      · rw [Bool.not_eq_true] at hspacing
        simp only [interpolate, hguard, hnodes, bind, Except.bind, hspacing,
          Bool.false_eq_true, if_false]
        exact ⟨_, rfl, rfl⟩

end Sample

/-! ## The outcome -/

/-- The interpolation of a sample fails exactly if neighbouring nodes
coincide, or if the forward form is asked for and their distances are too
different.  Neither happens where the ends of the interval are not too many
steps away from zero. -/
theorem interpolate_of_sample
    {f : ScalarFunction Float} {start stop point : Float} {count : ℕ}
    {data : DataSet Float}
    (hdata : DataSet.sample f start stop count = .ok data)
    (hpoint : point.isFinite = true) (method : InterpolationMethod) :
    ((∃ result, interpolate method data point none = .ok result ∧
      result.nodes = data) ↔
        ¬ NodesCoincide start stop count ∧
          (method = .newtonFinite → isEquallySpaced data.x = true)) ∧
      ((∃ x, interpolate method data point none = .error (.duplicateNodes x)) ↔
        NodesCoincide start stop count) ∧
      (interpolate method data point none = .error .unequalSpacing ↔
        method = .newtonFinite ∧ ¬ NodesCoincide start stop count ∧
          isEquallySpaced data.x = false) ∧
      (StepResolves start stop count 48 → ¬ NodesCoincide start stop count) ∧
      (StepResolves start stop count 16 → isEquallySpaced data.x = true) ∧
      ∀ (engine : Engine Float) (sample : Registry.Sample),
        sample.function = f →
        engine.interpolateFunction method.id sample.id start stop count point =
          liftError (interpolate method data point none) := by
  have h := isSample_of_sample_eq_ok hdata
  refine ⟨?_, ?_, ?_, h.not_nodesCoincide, isEquallySpaced_of_isSample h, ?_⟩
  · rcases interpolate_cases h hpoint method with ⟨hcoincide, x, hx⟩ |
      ⟨hapart, hmethod, hspacing, hfails⟩ | ⟨hapart, hspacing, hok⟩
    · simp [hx, hcoincide]
    · refine iff_of_false ?_ fun h => ?_
      · rintro ⟨result, hok, -⟩
        rw [hfails] at hok
        cases hok
      · rw [h.2 hmethod] at hspacing
        cases hspacing
    · exact iff_of_true hok ⟨hapart, hspacing⟩
  · rcases interpolate_cases h hpoint method with ⟨hcoincide, hfails⟩ |
      ⟨hapart, hmethod, hspacing, hfails⟩ | ⟨hapart, hspacing, result, hok, -⟩
    · exact iff_of_true hfails hcoincide
    · simp [hfails, hapart]
    · simp [hok, hapart]
  · rcases interpolate_cases h hpoint method with ⟨hcoincide, x, hx⟩ |
      ⟨hapart, hmethod, hspacing, hfails⟩ | ⟨hapart, hspacing, result, hok, -⟩
    · simp [hx, hcoincide]
    · exact iff_of_true hfails ⟨hmethod, hapart, hspacing⟩
    · simp only [hok, reduceCtorEq, false_iff, not_and]
      intro hmethod _
      simp [hspacing hmethod]
  · rintro engine sample rfl
    have hmethod : InterpolationMethod.lookup (α := Float) method.id =
        .ok method := by
      cases method <;> rfl
    have hsample : Registry.Sample.lookup (α := Float) sample.id =
        .ok sample := by
      cases sample <;> rfl
    simp only [Engine.interpolateFunction, Engine.sampleFunction,
      hmethod, hsample]
    change (DataSet.sample sample.function start stop count >>= fun data =>
      liftError (interpolate method data point none)) = _
    rw [hdata]
    rfl

/-- The identity, sampled at three nodes of the unit interval. -/
theorem interpolate_of_sample_identity :
    DataSet.sample { evaluate := fun x : Float => x } 0 1 3 =
        .ok ⟨[(0, 0), (0.5, 0.5), (1, 1)]⟩ ∧
      (0.25 : Float).isFinite = true ∧ StepResolves 0 1 3 16 ∧
      ∃ result,
        interpolate .newtonFinite ⟨[(0, 0), (0.5, 0.5), (1, 1)]⟩
          (0.25 : Float) none =
        .ok result ∧ result.nodes = ⟨[(0, 0), (0.5, 0.5), (1, 1)]⟩ := by
  have hdata : DataSet.sample { evaluate := fun x : Float => x } 0 1 3 =
      .ok ⟨[(0, 0), (0.5, 0.5), (1, 1)]⟩ := by rfl
  have hpoint : (0.25 : Float).isFinite = true := rfl
  have hvalues : value 0 = 0 ∧ value 1 = 1 ∧
      value (sampleStep 0 1 3) = 1 / 2 := by
    have hone : (1 : Float).toModel.unpack =
        .finite .positive (2 ^ 52) (-52) (by decide) := by rfl
    have hstep : (sampleStep 0 1 3).toModel.unpack =
        .finite .positive (2 ^ 52) (-53) (by decide) := by rfl
    refine ⟨rfl, ?_, ?_⟩
    · rw [value_of_unpack_eq hone, signFactor]
      norm_num
    · rw [value_of_unpack_eq hstep, signFactor]
      norm_num
  have hresolves : ∀ k, 1 ≤ k → StepResolves 0 1 3 k := by
    intro k hk
    have hpower : (2 : ℚ) ^ 1 ≤ 2 ^ k := pow_le_pow_right₀ one_le_two hk
    rw [StepResolves, hvalues.1, hvalues.2.1, hvalues.2.2, abs_zero, abs_one]
    constructor
    · positivity
    · linarith
  obtain ⟨hok, -, -, hapart, hspacing, -⟩ :=
    interpolate_of_sample hdata hpoint .newtonFinite
  exact ⟨hdata, hpoint, hresolves 16 (by decide),
    hok.mpr ⟨hapart (hresolves 48 (by decide)),
      fun _ => hspacing (hresolves 16 (by decide))⟩⟩

end Interpolation
end NumericalMethods
