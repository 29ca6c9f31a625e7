import Mathlib.Algebra.Ring.Parity
import Mathlib.Data.Set.Insert
import NumericalMethods.Proofs.Config.Validation
import NumericalMethods.Proofs.Quadrature.Doublings
import NumericalMethods.Scalar.Binary64

/-!
# Counts of subintervals

A doubling is made only if the doubled count does not exceed the cap.  The first
count is not compared with the cap.  It is the configured one, which a usable
configuration keeps below the cap; but for parabolas an odd one is raised by
one, and then it exceeds the cap where the configuration has both at the same
odd number.  Where that is the largest count, the sum is no machine word, and no
value is taken.
-/

namespace NumericalMethods
namespace Quadrature

theorem even_startingCount (initial : ℕ) :
    Even (QuadratureRule.simpson.startingCount initial) := by
  rw [QuadratureRule.startingCount, if_pos rfl, Nat.even_iff]
  omega

/-- The first count exceeds a cap above the configured count only by being
made even. -/
theorem lt_startingCount_iff
    {rule : QuadratureRule} {initial cap : ℕ} (hpos : 0 < initial)
    (hcap : initial ≤ cap) :
    cap < rule.startingCount initial ↔
      rule = .simpson ∧ initial = cap ∧ Odd cap := by
  rw [QuadratureRule.startingCount, Nat.max_eq_left hpos, Nat.odd_iff]
  split
  · constructor
    · intro h
      exact ⟨‹_›, by omega, by omega⟩
    · rintro ⟨-, rfl, hodd⟩
      omega
  · constructor
    · omega
    · rintro ⟨hsimpson, -⟩
      exact absurd hsimpson ‹_›

variable {α : Type} [Scalar α]

/-- The numbers of subintervals on which the value of the rule is taken on a
piece. -/
def countsTaken (settings : Settings α) (rule : QuadratureRule) (f : α → α)
    (tolerance : α) (part : α × α) : Set ℕ :=
  {n | ∃ k, (onPiece settings rule f tolerance part).Reaches k ∧
    n = (onPiece settings rule f tolerance part).count k}

variable {settings : Settings α} {rule : QuadratureRule} {f : α → α}
  {tolerance : α} {part : α × α}

theorem even_of_mem_countsTaken
    {n : ℕ} (hn : n ∈ countsTaken settings .simpson f tolerance part) :
    Even n := by
  obtain ⟨k, -, rfl⟩ := hn
  exact (even_startingCount settings.initialSubintervals).mul_right _

/-- A count is the first one or does not exceed the cap. -/
theorem eq_or_le_of_mem_countsTaken
    {n : ℕ} (hn : n ∈ countsTaken settings rule f tolerance part) :
    n = rule.startingCount settings.initialSubintervals ∨
    n ≤ settings.maxSubintervals := by
  obtain ⟨k, hreaches, rfl⟩ := hn
  by_cases hk : k = 0
  · subst hk
    exact .inl (Doublings.count_zero _)
  · exact .inr (hreaches.count_le hk)

theorem pos_of_mem_countsTaken
    {n : ℕ} (hn : n ∈ countsTaken settings rule f tolerance part) : 0 < n := by
  obtain ⟨k, -, rfl⟩ := hn
  exact Nat.mul_pos (startingCount_pos _ _) (Nat.two_pow_pos k)

theorem startingCount_mem_countsTaken
    (hword : rule.startingCount settings.initialSubintervals <
      Machine.countBound) :
    rule.startingCount settings.initialSubintervals ∈
      countsTaken settings rule f tolerance part :=
  ⟨0, ⟨hword, by simp, by simp, by simp⟩,
    ((onPiece settings rule f tolerance part).count_zero).symm⟩

/-- Without a machine word to start with there is neither a value nor a run. -/
theorem countsTaken_eq_empty
    (hlarge : Machine.countBound ≤
      rule.startingCount settings.initialSubintervals) :
    countsTaken settings rule f tolerance part = ∅ ∧
      refinePiece settings rule f part.1 part.2 tolerance =
        .error (.abort .countOverflow) := by
  constructor
  · refine Set.eq_empty_of_forall_notMem ?_
    rintro n ⟨k, hreaches, -⟩
    exact Nat.not_lt.mpr hlarge hreaches.start_lt
  · exact refinePiece_eq_iff.mpr (.inl ⟨hlarge, rfl⟩)

/-- The counts do not exceed the cap of a usable configuration, with one
exception: where an odd first count is the cap itself, parabolas take one
subinterval more, and no other count.  If that is one more than the largest
count, they take none, and the run aborts.  On parabolas all counts are even.
Values on counts that are not taken have no influence. -/
theorem countsTaken_of_validate
    {c : Config α} (hvalid : c.validate = .ok ())
    (rule : QuadratureRule) (f : α → α) (tolerance : α) (part : α × α) :
    (rule = .simpson → ∀ n ∈ countsTaken c.quadrature rule f tolerance part,
      Even n) ∧
    (¬ (rule = .simpson ∧ c.initialSubintervals = c.maxSubintervals ∧
      Odd c.maxSubintervals) →
      ∀ n ∈ countsTaken c.quadrature rule f tolerance part,
        n ≤ c.maxSubintervals) ∧
    (rule = .simpson ∧ c.initialSubintervals = c.maxSubintervals ∧
      Odd c.maxSubintervals →
      (c.maxSubintervals + 1 < Machine.countBound →
        countsTaken c.quadrature rule f tolerance part =
          {c.maxSubintervals + 1}) ∧
      (Machine.countBound ≤ c.maxSubintervals + 1 →
        countsTaken c.quadrature rule f tolerance part = ∅ ∧
          refinePiece c.quadrature rule f part.1 part.2 tolerance =
            .error (.abort .countOverflow))) ∧
    ∀ value : ℕ → α, (∀ n ∈ countsTaken c.quadrature rule f tolerance part,
        value n = rule.composite f part.1 part.2 n) →
      { onPiece c.quadrature rule f tolerance part with value := value }.run =
        refinePiece c.quadrature rule f part.1 part.2 tolerance := by
  have husable := Config.usable_of_validate hvalid
  have hstart : c.maxSubintervals <
      rule.startingCount c.initialSubintervals ↔ _ :=
    lt_startingCount_iff husable.initialSubintervals_pos husable.inOrder
  refine ⟨?_, ?_, ?_, ?_⟩
  · rintro rfl n hn
    exact even_of_mem_countsTaken hn
  · intro hnot n hn
    rcases eq_or_le_of_mem_countsTaken hn with rfl | hle
    · exact Nat.not_lt.mp (hstart.not.mpr hnot)
    · exact hle
  · intro hodd
    have hexceeds := hstart.mpr hodd
    have hsucc : rule.startingCount c.initialSubintervals =
        c.maxSubintervals + 1 := by
      obtain ⟨rfl, hinitial, -⟩ := hodd
      have hpos := husable.initialSubintervals_pos
      rw [QuadratureRule.startingCount, if_pos rfl] at hexceeds ⊢
      omega
    rw [← hsucc]
    refine ⟨fun hword => ?_, fun hlarge => countsTaken_eq_empty hlarge⟩
    refine Set.eq_singleton_iff_unique_mem.mpr
      ⟨startingCount_mem_countsTaken hword, ?_⟩
    rintro n ⟨k, hreaches, rfl⟩
    by_cases hk : k = 0
    · subst hk
      exact Doublings.count_zero _
    · have hle := hreaches.count_le hk
      have hmono :=
        Doublings.count_mono (onPiece c.quadrature rule f tolerance part)
          k.zero_le
      rw [Doublings.count_zero] at hmono
      exact absurd (hmono.trans hle) (Nat.not_le.mpr hexceeds)
  · intro value hvalue
    exact Doublings.run_congr (startingCount_pos _ _) fun k hk =>
      hvalue _ ⟨k, hk, rfl⟩

/-- The standard configuration with three subintervals at the start and
at most. -/
def threeSubintervals : Config Float :=
  { Config.standard with initialSubintervals := 3, maxSubintervals := 3 }

/-- The standard configuration with the largest count at the start and
at most. -/
def largestSubintervals : Config Float :=
  { Config.standard with
    initialSubintervals := 2 ^ 64 - 1
    maxSubintervals := 2 ^ 64 - 1 }

/-- Three subintervals are made four on parabolas, and are three on trapezoids;
from the largest count there is no way to an even one. -/
theorem countsTaken_of_validate_threeSubintervals :
    threeSubintervals.validate = .ok () ∧
      countsTaken threeSubintervals.quadrature .simpson id 0.1 (0, 1) = {4} ∧
      (∀ n ∈ countsTaken threeSubintervals.quadrature .trapezoid id 0.1 (0, 1),
        n ≤ 3) ∧
      largestSubintervals.validate = .ok () ∧
      countsTaken largestSubintervals.quadrature .simpson id 0.1 (0, 1) = ∅ ∧
      refinePiece largestSubintervals.quadrature .simpson id 0 1 0.1 =
        .error (.abort .countOverflow) := by
  have hvalid : threeSubintervals.validate = .ok () := by
    decide +kernel
  have hlargest : largestSubintervals.validate = .ok () := by
    decide +kernel
  obtain ⟨-, -, hexceeds, -⟩ :=
    countsTaken_of_validate hvalid .simpson id 0.1 (0, 1)
  obtain ⟨-, hbelow, -, -⟩ :=
    countsTaken_of_validate hvalid .trapezoid id 0.1 (0, 1)
  obtain ⟨-, -, hnone, -⟩ :=
    countsTaken_of_validate hlargest .simpson id 0.1 (0, 1)
  exact ⟨hvalid, (hexceeds ⟨rfl, rfl, by decide⟩).1 (by decide),
    hbelow (by simp), hlargest, (hnone ⟨rfl, rfl, by decide⟩).2 (by decide)⟩

end Quadrature
end NumericalMethods
