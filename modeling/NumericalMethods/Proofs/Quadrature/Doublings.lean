import Mathlib.Algebra.Order.Group.Nat
import NumericalMethods.Proofs.Iteration
import NumericalMethods.Quadrature

/-!
# The doublings on one piece

The run on a piece takes the value of the rule on a count of subintervals, on
twice that count, on four times that count, and so on.  The count behind `k`
doublings, the value there and its estimate do not depend on when the run ends.
So a run is described by the number of its doublings and by one of four endings:
a value that is not finite, an estimate below the tolerance, or a next count
that would exceed the cap, as a machine word or beyond the machine words.  From
a first count beyond them there is no run.

Nothing but the values on the counts that are reached has an influence
on the run.
-/

namespace NumericalMethods
namespace Quadrature

/-- `k` doublings of a count stay below a cap exactly when the last of
them does. -/
theorem le_doublings_iff {n : ℕ} (hn : 0 < n) (k cap : ℕ) :
    k ≤ doublings n cap ↔ k = 0 ∨ n * 2 ^ k ≤ cap := by
  rw [doublings]
  split
  · have hexceeds : cap < n * 2 ^ k :=
      lt_of_lt_of_le ‹cap < n› (Nat.le_mul_of_pos_right n (Nat.two_pow_pos k))
    omega
  · have hquotient : cap / n ≠ 0 := by
      rw [Nat.div_ne_zero_iff]
      omega
    rw [Nat.le_log2 hquotient, Nat.le_div_iff_mul_le hn, Nat.mul_comm]
    constructor
    · exact .inr
    · rintro (rfl | h)
      · omega
      · exact h

variable {α : Type}

/-- What a run on a piece comes to. -/
abbrev PieceOutcome (α : Type) : Type :=
  Except (Interruption α) (Run (QuadratureStep α) (Estimate α))

/-- The doublings on one piece. -/
structure Doublings (α : Type) where
  /-- The value of the rule on a number of subintervals. -/
  value : ℕ → α
  /-- The number of subintervals before the first doubling. -/
  start : ℕ
  cap : ℕ
  /-- What a difference of two values is divided by. -/
  divisor : α
  tolerance : α
  /-- The ends of the piece. -/
  ends : α × α

/-- The doublings of a rule on a piece. -/
def onPiece [Scalar α] (settings : Settings α) (rule : QuadratureRule)
    (f : α → α) (tolerance : α) (part : α × α) : Doublings α where
  value := rule.composite f part.1 part.2
  start := rule.startingCount settings.initialSubintervals
  cap := settings.maxSubintervals
  divisor := Scalar.rungeDivisor rule.order
  tolerance := tolerance
  ends := part

namespace Doublings

/-- The number of subintervals behind `k` doublings. -/
def count (d : Doublings α) (k : ℕ) : ℕ :=
  d.start * 2 ^ k

@[simp]
theorem count_zero (d : Doublings α) : d.count 0 = d.start := by
  simp [count]

theorem count_succ (d : Doublings α) (k : ℕ) :
    d.count (k + 1) = 2 * d.count k := by
  rw [count, count, Nat.pow_succ, Nat.mul_comm 2, Nat.mul_assoc]

theorem count_mono (d : Doublings α) : Monotone d.count := fun _ _ h =>
  Nat.mul_le_mul_left _ (Nat.pow_le_pow_right Nat.two_pos h)

def valueAt (d : Doublings α) (k : ℕ) : α :=
  d.value (d.count k)

variable [Scalar α]

/-- The estimated error behind `k` doublings. -/
def errorAt (d : Doublings α) : ℕ → α
  | 0 => Scalar.infinity
  | k + 1 => Scalar.abs (d.valueAt (k + 1) - d.valueAt k) / d.divisor

def estimate (d : Doublings α) (k : ℕ) : Estimate α :=
  ⟨d.count k, d.valueAt k, d.errorAt k⟩

/-- What `k` doublings leave in the trace. -/
def entries (d : Doublings α) (k : ℕ) : List (QuadratureStep α) :=
  (List.range k).map fun i =>
    ⟨d.count (i + 1), d.valueAt (i + 1), d.errorAt (i + 1)⟩

/-- The run of doublings. -/
def run (d : Doublings α) : PieceOutcome α :=
  if Machine.countBound ≤ d.start then .error (.abort .countOverflow)
  else if Scalar.isFinite (d.value d.start) then
    conclude (iterate (double d.value d.divisor d.tolerance d.ends.1 d.ends.2)
      (doublings d.start d.cap) ⟨d.start, d.value d.start, Scalar.infinity⟩)
  else .error (.breakdown (.integrandNotFinite d.ends.1 d.ends.2) [])

/-- The value behind `k` doublings is taken: the first count is a machine word,
the values before were finite, no estimate was below the tolerance, and the
count does not exceed the cap. -/
structure Reaches (d : Doublings α) (k : ℕ) : Prop where
  start_lt : d.start < Machine.countBound
  isFinite : ∀ i < k, Scalar.isFinite (d.valueAt i) = true
  notBelow : ∀ i < k, i ≠ 0 → ¬ d.errorAt i < d.tolerance
  count_le : k ≠ 0 → d.count k ≤ d.cap

/-- How a run can end with the value behind `k` doublings. -/
inductive Ends (d : Doublings α) (k : ℕ) : PieceOutcome α → Prop where
  /-- The value is not finite. -/
  | notFinite : Scalar.isFinite (d.valueAt k) = false →
      Ends d k
        (.error
          (.breakdown (.integrandNotFinite d.ends.1 d.ends.2)
            (d.entries (k - 1))))
  /-- The estimate is below the tolerance. -/
  | settled : Scalar.isFinite (d.valueAt k) = true → k ≠ 0 →
      d.errorAt k < d.tolerance →
      Ends d k (.ok ⟨d.entries k, d.estimate k, true⟩)
  /-- The next count would exceed the cap. -/
  | capped : Scalar.isFinite (d.valueAt k) = true →
      (k ≠ 0 → ¬ d.errorAt k < d.tolerance) →
      d.cap < d.count (k + 1) → d.count (k + 1) < Machine.countBound →
      Ends d k (.ok ⟨d.entries k, d.estimate k, false⟩)
  /-- The next count would exceed the cap, and it is no machine word. -/
  | overflowed : Scalar.isFinite (d.valueAt k) = true →
      (k ≠ 0 → ¬ d.errorAt k < d.tolerance) →
      d.cap < d.count (k + 1) → Machine.countBound ≤ d.count (k + 1) →
      Ends d k (.error (.abort .countOverflow))

variable {d : Doublings α} {k : ℕ}

@[simp]
theorem length_entries (d : Doublings α) (k : ℕ) :
    (d.entries k).length = k := by
  simp [entries]

theorem entries_succ (d : Doublings α) (k : ℕ) :
    d.entries (k + 1) =
      d.entries k ++
        [⟨d.count (k + 1), d.valueAt (k + 1), d.errorAt (k + 1)⟩] := by
  rw [entries, entries, List.range_succ, List.map_append, List.map_singleton]

/-- What one doubling does. -/
theorem double_estimate (d : Doublings α) (k : ℕ) :
    double d.value d.divisor d.tolerance d.ends.1 d.ends.2 (d.estimate k) =
      if Scalar.isFinite (d.valueAt (k + 1)) then
        if d.errorAt (k + 1) < d.tolerance then
          .last ⟨d.count (k + 1), d.valueAt (k + 1), d.errorAt (k + 1)⟩
            (d.estimate (k + 1))
        else .step ⟨d.count (k + 1), d.valueAt (k + 1), d.errorAt (k + 1)⟩
          (d.estimate (k + 1))
      else .fail (.integrandNotFinite d.ends.1 d.ends.2) := by
  simp only [double, estimate, errorAt, valueAt, count_succ]

/-- A doubling that ends the run ends it with the value it took. -/
theorem ends_of_double (d : Doublings α) (k : ℕ) :
    match double d.value d.divisor d.tolerance d.ends.1 d.ends.2
        (d.estimate k) with
    | .halt => False
    | .fail cause => d.Ends (k + 1) (.error (.breakdown cause (d.entries k)))
    | .step .. => True
    | .last entry next =>
        d.Ends (k + 1) (.ok ⟨d.entries k ++ [entry], next, true⟩) := by
  rw [double_estimate]
  cases hfinite : Scalar.isFinite (d.valueAt (k + 1)) with
  | false => exact .notFinite hfinite
  | true =>
      by_cases hbelow : d.errorAt (k + 1) < d.tolerance
      · rw [if_pos rfl, if_pos hbelow]
        simpa only [entries_succ] using Ends.settled hfinite
          k.succ_ne_zero hbelow
      · rw [if_pos rfl, if_neg hbelow]
        trivial

/-- Steps of a run are doublings whose values are finite and whose estimates are
not below the tolerance. -/
theorem eq_of_steps
    {made : List (QuadratureStep α)} {s : Estimate α}
    (hsteps : Steps (double d.value d.divisor d.tolerance d.ends.1 d.ends.2)
      (d.estimate 0) made s) :
    ∃ k, made = d.entries k ∧ s = d.estimate k ∧
      ∀ i < k, Scalar.isFinite (d.valueAt (i + 1)) = true ∧
        ¬ d.errorAt (i + 1) < d.tolerance := by
  induction hsteps with
  | refl => exact ⟨0, rfl, rfl, by simp⟩
  | snoc _ hround ih =>
      obtain ⟨k, rfl, rfl, hsteps⟩ := ih
      rw [double_estimate] at hround
      split at hround
      · split at hround
        · cases hround
        · obtain ⟨rfl, rfl⟩ := Round.step.inj hround
          refine ⟨k + 1, (d.entries_succ k).symm, rfl, ?_⟩
          intro i hi
          rcases Nat.eq_or_lt_of_le (Nat.le_of_lt_succ hi) with rfl | hlt
          · exact ⟨‹_›, ‹_›⟩
          · exact hsteps i hlt
      · cases hround

/-- Doublings with finite values and estimates that are not below the tolerance
reach every count below the cap. -/
theorem reaches_of_forall
    (hword : d.start < Machine.countBound)
    (hfirst : Scalar.isFinite (d.valueAt 0) = true) {m : ℕ}
    (hsteps : ∀ i < m, Scalar.isFinite (d.valueAt (i + 1)) = true ∧
      ¬ d.errorAt (i + 1) < d.tolerance)
    (hk : k ≤ m + 1) (hcap : k ≠ 0 → d.count k ≤ d.cap) : d.Reaches k where
  start_lt := hword
  isFinite i hi := by
    cases i with
    | zero => exact hfirst
    | succ i => exact (hsteps i (by omega)).1
  notBelow i hi hne := by
    cases i with
    | zero => exact absurd rfl hne
    | succ i => exact (hsteps i (by omega)).2
  count_le := hcap

/-- The run from a finite first value on ends with the value on some count it
reached. -/
theorem exists_ends_iterate
    (hstart : 0 < d.start) (hword : d.start < Machine.countBound)
    (hfirst : Scalar.isFinite (d.valueAt 0) = true) :
    ∃ k, d.Reaches k ∧ d.Ends k
      (conclude
        (iterate (double d.value d.divisor d.tolerance d.ends.1 d.ends.2)
        (doublings d.start d.cap) (d.estimate 0))) := by
  have hbound : ∀ k, k ≤ doublings d.start d.cap ↔
      k = 0 ∨ d.count k ≤ d.cap := fun k =>
    le_doublings_iff hstart k d.cap
  have hnext : ∀ k, (∀ i < k, Scalar.isFinite (d.valueAt (i + 1)) = true ∧
      ¬ d.errorAt (i + 1) < d.tolerance) →
        (d.entries k).length < doublings d.start d.cap →
      d.Reaches (k + 1) := by
    intro k hgood hlength
    rw [length_entries, Nat.lt_iff_add_one_le, hbound] at hlength
    exact reaches_of_forall hword hfirst hgood le_rfl fun hne =>
      hlength.resolve_left hne
  cases hrun : iterate (double d.value d.divisor d.tolerance d.ends.1 d.ends.2)
      (doublings d.start d.cap) (d.estimate 0) with
  | error stopped =>
      obtain ⟨cause, made⟩ := stopped
      obtain ⟨s, hsteps, hlength, hfail⟩ :=
        exists_steps_of_iterate_eq_error hrun
      obtain ⟨k, rfl, rfl, hgood⟩ := eq_of_steps hsteps
      have hends := d.ends_of_double k
      rw [hfail] at hends
      exact ⟨k + 1, hnext k hgood hlength, hends⟩
  | ok run =>
      obtain ⟨made, s, hsteps, hending⟩ := exists_steps_of_iterate_eq_ok hrun
      obtain ⟨k, rfl, rfl, hgood⟩ := eq_of_steps hsteps
      have hends := d.ends_of_double k
      cases hending with
      | halted _ hround =>
          rw [hround] at hends
          exact hends.elim
      | settled hlength hround =>
          rw [hround] at hends
          rw [conclude, if_neg (by simp)]
          exact ⟨k + 1, hnext k hgood hlength, hends⟩
      | capped hlength =>
          rw [length_entries] at hlength
          have hlast := (hbound k).mp hlength.le
          have hexceeds : d.cap < d.count (k + 1) := by
            have hnot := (hbound (k + 1)).not.mp (by omega)
            omega
          have hfinite : Scalar.isFinite (d.valueAt k) = true := by
            cases k with
            | zero => exact hfirst
            | succ k => exact (hgood k k.lt_succ_self).1
          have hnotBelow : k ≠ 0 → ¬ d.errorAt k < d.tolerance := by
            intro hne
            obtain ⟨k, rfl⟩ := Nat.exists_eq_succ_of_ne_zero hne
            exact (hgood k k.lt_succ_self).2
          refine ⟨k,
            reaches_of_forall hword hfirst hgood k.le_succ
              hlast.resolve_left, ?_⟩
          have hdouble : d.count (k + 1) = 2 * (d.estimate k).subintervals :=
            d.count_succ k
          rw [conclude]
          split
          · next hlarge =>
            exact .overflowed hfinite hnotBelow hexceeds (hdouble ▸ hlarge.2)
          · next hfits =>
            have hlt : d.count (k + 1) < Machine.countBound := by
              simpa [hdouble] using hfits
            exact .capped hfinite hnotBelow hexceeds hlt

/-- Every run from a machine word ends with the value on some count it
reached. -/
theorem exists_ends (hstart : 0 < d.start)
    (hword : d.start < Machine.countBound) :
    ∃ k, d.Reaches k ∧ d.Ends k d.run := by
  have hvalue : d.value d.start = d.valueAt 0 := by rw [valueAt, count_zero]
  have hestimate : (⟨d.start, d.valueAt 0, Scalar.infinity⟩ : Estimate α) =
      d.estimate 0 := by
    rw [estimate, count_zero, errorAt]
  rw [run, if_neg (Nat.not_le.mpr hword), hvalue, hestimate]
  cases hfirst : Scalar.isFinite (d.valueAt 0) with
  | true => exact exists_ends_iterate hstart hword hfirst
  | false => exact ⟨0, ⟨hword, by simp, by simp, by simp⟩, .notFinite hfirst⟩

/-! ## What a run depends on -/

/-- What is reached is reached through all counts before. -/
theorem Reaches.of_le {i : ℕ} (h : d.Reaches k) (hi : i ≤ k) : d.Reaches i where
  start_lt := h.start_lt
  isFinite j hj := h.isFinite j (hj.trans_le hi)
  notBelow j hj := h.notBelow j (hj.trans_le hi)
  count_le hne := (d.count_mono hi).trans (h.count_le (by omega))

/-- A run goes no further than to the count it ends with. -/
theorem Reaches.le_of_ends
    {last : ℕ} {outcome : PieceOutcome α}
    (hk : d.Reaches k) (hends : d.Ends last outcome) : k ≤ last := by
  by_contra hlt
  rw [not_le] at hlt
  cases hends with
  | notFinite hvalue => simp [hk.isFinite last hlt] at hvalue
  | settled _ hne hbelow => exact hk.notBelow last hlt hne hbelow
  | capped _ _ hexceeds | overflowed _ _ hexceeds =>
      have hle : d.count (last + 1) ≤ d.cap :=
        (d.count_mono hlt).trans (hk.count_le (by omega))
      omega

/-- The count a run ends with decides its outcome. -/
theorem Ends.unique
    {outcome other : PieceOutcome α}
    (h : d.Ends k outcome) (h' : d.Ends k other) : outcome = other := by
  cases h with
  | notFinite hvalue => cases h' <;> simp_all
  | settled hvalue hne hbelow => cases h' <;> simp_all
  | capped hvalue hnot _ hlt =>
      cases h' with
      | notFinite hvalue' => simp [hvalue] at hvalue'
      | settled _ hne hbelow => exact absurd hbelow (hnot hne)
      | capped => rfl
      | overflowed _ _ _ hle => exact absurd hle (Nat.not_le.mpr hlt)
  | overflowed hvalue hnot _ hle =>
      cases h' with
      | notFinite hvalue' => simp [hvalue] at hvalue'
      | settled _ hne hbelow => exact absurd hbelow (hnot hne)
      | capped _ _ _ hlt => exact absurd hle (Nat.not_le.mpr hlt)
      | overflowed => rfl

/-- The outcome of a run, by the count it ends with. -/
theorem run_eq_iff_of_lt
    (hstart : 0 < d.start) (hword : d.start < Machine.countBound)
    {outcome : PieceOutcome α} :
    d.run = outcome ↔ ∃ k, d.Reaches k ∧ d.Ends k outcome := by
  obtain ⟨last, hlast, hends⟩ := exists_ends hstart hword
  constructor
  · rintro rfl
    exact ⟨last, hlast, hends⟩
  · rintro ⟨k, hk, hends'⟩
    obtain rfl :=
      Nat.le_antisymm (hk.le_of_ends hends) (hlast.le_of_ends hends')
    exact hends.unique hends'

theorem run_of_le (hlarge : Machine.countBound ≤ d.start) :
    d.run = .error (.abort .countOverflow) :=
  if_pos hlarge

/-- The outcome of a run, from whatever count. -/
theorem run_eq_iff
    (hstart : 0 < d.start) {outcome : PieceOutcome α} :
    d.run = outcome ↔
      Machine.countBound ≤ d.start ∧ outcome = .error (.abort .countOverflow) ∨
        ∃ k, d.Reaches k ∧ d.Ends k outcome := by
  by_cases hlarge : Machine.countBound ≤ d.start
  · have hnone : ¬ ∃ k, d.Reaches k ∧ d.Ends k outcome := by
      rintro ⟨k, hk, -⟩
      exact Nat.not_lt.mpr hlarge hk.start_lt
    rw [run_of_le hlarge, or_iff_left hnone, and_iff_right hlarge, eq_comm]
  · rw [run_eq_iff_of_lt hstart (Nat.not_le.mp hlarge),
      or_iff_right fun h => hlarge h.1]

/-- Values on counts that are not reached have no influence on a run. -/
theorem run_congr
    (hstart : 0 < d.start) {value : ℕ → α}
    (hvalue : ∀ k, d.Reaches k → value (d.count k) = d.valueAt k) :
    { d with value := value }.run = d.run := by
  by_cases hlarge : Machine.countBound ≤ d.start
  · rw [run_of_le hlarge]
    exact run_of_le hlarge
  have hword := Nat.not_le.mp hlarge
  obtain ⟨k, hk, hends⟩ := exists_ends hstart hword
  have hsame : ∀ i ≤ k, { d with value := value }.valueAt i = d.valueAt i :=
    fun i hi =>
    hvalue i (hk.of_le hi)
  have herror : ∀ i ≤ k, { d with value := value }.errorAt i = d.errorAt i := by
    intro i hi
    cases i with
    | zero => rfl
    | succ i => rw [errorAt, errorAt, hsame _ hi, hsame i (by omega)]
  have hentries : ∀ i ≤ k, { d with value := value }.entries i =
      d.entries i := by
    intro i hi
    refine List.map_congr_left fun j hj => ?_
    have hj := List.mem_range.mp hj
    rw [hsame _ (by omega), herror _ (by omega)]
    rfl
  have hestimate : { d with value := value }.estimate k = d.estimate k := by
    rw [estimate, estimate, hsame k le_rfl, herror k le_rfl]
    rfl
  refine (run_eq_iff_of_lt (d := { d with value := value }) hstart hword).mpr
    ⟨k, ⟨hword, ?_, ?_, hk.count_le⟩, ?_⟩
  · intro i hi
    rw [hsame i hi.le]
    exact hk.isFinite i hi
  · intro i hi
    rw [herror i hi.le]
    exact hk.notBelow i hi
  · generalize d.run = outcome at hends
    cases hends with
    | notFinite hfinite =>
        rw [← hentries (k - 1) (by omega)]
        exact .notFinite (by rwa [hsame k le_rfl])
    | settled hfinite hne hbelow =>
        rw [← hentries k le_rfl, ← hestimate]
        exact .settled (by rwa [hsame k le_rfl]) hne (by rwa [herror k le_rfl])
    | capped hfinite hnot hexceeds hlt =>
        rw [← hentries k le_rfl, ← hestimate]
        exact .capped (by rwa [hsame k le_rfl])
          (by rwa [herror k le_rfl]) hexceeds hlt
    | overflowed hfinite hnot hexceeds hle =>
        exact .overflowed (by rwa [hsame k le_rfl])
          (by rwa [herror k le_rfl]) hexceeds hle

end Doublings

theorem startingCount_pos (rule : QuadratureRule) (initial : ℕ) :
    0 < rule.startingCount initial := by
  rw [QuadratureRule.startingCount]
  split <;> omega

variable [Scalar α]

/-- What the run on a piece comes to, by the number of its doublings. -/
def ComesTo (settings : Settings α) (rule : QuadratureRule) (f : α → α)
    (tolerance : α) (part : α × α) (outcome : PieceOutcome α) : Prop :=
  ∃ k, (onPiece settings rule f tolerance part).Reaches k ∧
    (onPiece settings rule f tolerance part).Ends k outcome

theorem refinePiece_eq_iff
    {settings : Settings α} {rule : QuadratureRule} {f : α → α} {tolerance : α}
    {part : α × α} {outcome : PieceOutcome α} :
    refinePiece settings rule f part.1 part.2 tolerance = outcome ↔
      Machine.countBound ≤ rule.startingCount settings.initialSubintervals ∧
          outcome = .error (.abort .countOverflow) ∨
        ComesTo settings rule f tolerance part outcome :=
  Doublings.run_eq_iff (d := onPiece settings rule f tolerance part)
    (startingCount_pos _ _)

/-- A run that did not leave the machine words is one of doublings. -/
theorem comesTo_of_refinePiece_eq
    {settings : Settings α} {rule : QuadratureRule} {f : α → α} {tolerance : α}
    {part : α × α} {outcome : PieceOutcome α}
    (hrun : refinePiece settings rule f part.1 part.2 tolerance = outcome)
    (hne : outcome ≠ .error (.abort .countOverflow)) :
    ComesTo settings rule f tolerance part outcome :=
  (refinePiece_eq_iff.mp hrun).resolve_left fun h => hne h.2

/-- A run can break down for one reason only. -/
theorem cause_eq_of_refinePiece_eq_error
    {settings : Settings α} {rule : QuadratureRule} {f : α → α}
    {a b tolerance : α} {cause : Breakdown α} {made : List (QuadratureStep α)}
    (hrun : refinePiece settings rule f a b tolerance =
      .error (.breakdown cause made)) :
    cause = .integrandNotFinite a b := by
  have hcomes : ComesTo settings rule f tolerance (a, b)
      (.error (.breakdown cause made)) :=
    comesTo_of_refinePiece_eq hrun (by simp)
  obtain ⟨k, -, hends⟩ := hcomes
  cases hends
  rfl

/-- A run on a piece settles exactly when its estimate is below the
tolerance. -/
theorem settled_iff_of_refinePiece_eq_ok
    {settings : Settings α} {rule : QuadratureRule} {f : α → α}
    {a b tolerance : α} {run : Run (QuadratureStep α) (Estimate α)}
    (htolerance : ¬ (Scalar.infinity : α) < tolerance)
    (hrun : refinePiece settings rule f a b tolerance = .ok run) :
    run.settled = true ↔ run.state.rungeError < tolerance := by
  have hcomes : ComesTo settings rule f tolerance (a, b) (.ok run) :=
    comesTo_of_refinePiece_eq hrun (by simp)
  obtain ⟨k, -, hends⟩ := hcomes
  cases hends with
  | settled _ _ hbelow => exact iff_of_true rfl hbelow
  | capped _ hnot _ _ =>
      refine iff_of_false Bool.false_ne_true ?_
      cases k with
      | zero => exact htolerance
      | succ k => exact hnot k.succ_ne_zero

end Quadrature
end NumericalMethods
