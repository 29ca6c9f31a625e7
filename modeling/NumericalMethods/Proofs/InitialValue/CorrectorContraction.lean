import NumericalMethods.Proofs.Contraction
import NumericalMethods.Proofs.InitialValue.Grid
import NumericalMethods.Proofs.InitialValue.LinearGrowth

/-!
# A corrector that contracts

Over exact scalars the corrector at a node is a map of ordinates, and its
successive values are the orbit of the predicted one.  If the right-hand side
satisfies a Lipschitz condition and the step is small enough, this map
contracts.  Then its values move less and less, the accepted one is near every
solution of the implicit equation of the node, and the corrector fails to settle
only if the geometric estimate of its last movement is above the tolerance.
-/

namespace NumericalMethods
namespace InitialValue

variable {K : Type} [Field K] [LinearOrder K] [ExactArithmetic K]

/-! ## Settling as an orbit -/

section Settle

variable {improve : K → K} {tolerance predicted x : K} {cap : ℕ}

/-- The movement of the values of a map behind `k` applications. -/
def movement (improve : K → K) (predicted : K) (k : ℕ) : K :=
  |improve^[k + 1] predicted - improve^[k] predicted|

theorem correct_eq (improve : K → K) (tolerance previous : K) :
    correct improve tolerance previous =
      if |improve previous - previous| ≤ tolerance then
        .last (improve previous) (improve previous)
      else .step (improve previous) (improve previous) := by
  simp [correct]

/-- The values before the last one had all moved by more than the tolerance. -/
theorem eq_iterate_of_steps_correct
    {made : List K} {s : K}
    (hsteps : Steps (correct improve tolerance) predicted made s) :
    s = improve^[made.length] predicted ∧
      ∀ k < made.length, tolerance < movement improve predicted k := by
  induction hsteps with
  | refl => exact ⟨rfl, nofun⟩
  | @snoc made s next entry _ hround ih =>
      obtain ⟨rfl, hlong⟩ := ih
      rw [correct_eq] at hround
      split at hround
      · cases hround
      · rename_i hmoved
        obtain ⟨-, rfl⟩ := Round.step.inj hround
        rw [List.length_append, List.length_singleton,
          Function.iterate_succ_apply']
        refine ⟨rfl, fun k hk => ?_⟩
        rcases Nat.lt_succ_iff_lt_or_eq.mp hk with hlt | rfl
        · exact hlong k hlt
        · rw [movement, Function.iterate_succ_apply']
          exact not_le.mp hmoved

/-- The corrector settles at the first value that moved by no more than the
tolerance, or none of the values within the cap did. -/
theorem settle_cases (improve : K → K) (cap : ℕ) (tolerance predicted x : K) :
    (∃ k < max cap 1,
      settle improve cap tolerance predicted x =
        .ok (improve^[k + 1] predicted) ∧
      movement improve predicted k ≤ tolerance ∧
      ∀ j < k, tolerance < movement improve predicted j) ∨
    settle improve cap tolerance predicted x =
        .error (.correctorUnsettled x (max cap 1)) ∧
      ∀ k < max cap 1, tolerance < movement improve predicted k := by
  simp only [settle]
  cases hrun : iterate (correct improve tolerance) (max cap 1) predicted with
  | error stopped =>
      obtain ⟨s, -, -, hfail⟩ := exists_steps_of_iterate_eq_error hrun
      rw [correct_eq] at hfail
      split at hfail
      · cases hfail
      · cases hfail
  | ok run =>
      obtain ⟨made, s, hsteps, hending⟩ := exists_steps_of_iterate_eq_ok hrun
      obtain ⟨rfl, hlong⟩ := eq_iterate_of_steps_correct hsteps
      cases hending with
      | capped hlength =>
          right
          rw [hlength] at hlong
          exact ⟨rfl, hlong⟩
      | halted _ hround =>
          exact absurd hround (correct_ne_halt improve tolerance _)
      | settled hlength hround =>
          left
          rw [correct_eq] at hround
          split at hround
          · rename_i hmoved
            obtain ⟨-, rfl⟩ := Round.last.inj hround
            refine ⟨made.length, hlength, ?_, ?_, hlong⟩
            · rw [Function.iterate_succ_apply']
              rfl
            · rwa [movement, Function.iterate_succ_apply']
          · cases hround

omit [ExactArithmetic K] in
/-- A value that settles is near every fixed point of a contraction. -/
theorem abs_settled_sub_le
    [IsStrictOrderedRing K] {q z : K} {k : ℕ} (himprove : Contracts improve q)
    (hmoved : movement improve predicted k ≤ tolerance) (hz : improve z = z) :
    |improve^[k + 1] predicted - z| ≤ q / (1 - q) * tolerance := by
  have hratio : 0 ≤ q / (1 - q) :=
    div_nonneg himprove.nonneg (sub_nonneg.mpr himprove.lt_one.le)
  rw [movement, Function.iterate_succ_apply'] at hmoved
  rw [Function.iterate_succ_apply']
  exact (himprove.abs_sub_fixed_le _ hz).trans
    (mul_le_mul_of_nonneg_left hmoved hratio)

end Settle

/-! ## Runs as sequences -/

section Sequence

variable {f : OdeFunction K} {x0 h : K} {y y' : ℕ → K} {m : ℕ}

theorem historyAt_congr (hy : ∀ i ≤ m, y i = y' i) :
    historyAt f x0 h y m = historyAt f x0 h y' m := by
  have hslope : ∀ i ≤ m, slopeAt f x0 h y i = slopeAt f x0 h y' i := by
    intro i hi
    rw [slopeAt, slopeAt, hy i hi]
  have hearlier : (List.range m).reverse.map (slopeAt f x0 h y) =
      (List.range m).reverse.map (slopeAt f x0 h y') := by
    refine List.map_congr_left fun i hi => hslope i ?_
    exact (List.mem_range.mp (List.mem_reverse.mp hi)).le
  rw [historyAt, historyAt, hslope m le_rfl, hearlier]

theorem table_congr (hy : ∀ i ≤ m, y i = y' i) :
    table x0 h y m = table x0 h y' m := by
  refine List.map_congr_left fun i hi => ?_
  rw [hy i (Nat.lt_succ_iff.mp (List.mem_range.mp hi))]

theorem table_succ (x0 h : K) (y : ℕ → K) (m : ℕ) :
    table x0 h y (m + 1) = table x0 h y m ++
      [(node x0 h (m + 1), y (m + 1))] := by
  rw [table, List.range_succ, List.map_append, List.map_singleton, table]

/-- The steps of a run lead along a sequence of ordinates, each of which follows
from those before it. -/
theorem exists_historyAt_of_steps
    {cap : ℕ} {tolerance y0 : K} {made : List (K × K)} {s : History K}
    (hsteps : Steps (milneRound f cap tolerance x0 h)
      ⟨0, ⟨y0, f.rhs x0 y0⟩, []⟩ made s) :
    ∃ y : ℕ → K, y 0 = y0 ∧ s = historyAt f x0 h y made.length ∧
      (x0, y0) :: made = table x0 h y made.length ∧
      ∀ i < made.length,
        nextOrdinate f cap tolerance x0 h (historyAt f x0 h y i) =
          .ok (y (i + 1)) := by
  induction hsteps with
  | refl =>
      exact ⟨fun _ => y0, rfl, by simp [historyAt, slopeAt], by
        simp [table], nofun⟩
  | @snoc made s next entry _ hround ih =>
      obtain ⟨y, hstart, rfl, htable, hnext⟩ := ih
      obtain ⟨z, hz, rfl, rfl⟩ :=
        exists_nextOrdinate_of_milneRound_eq_step hround
      let extended := Function.update y (made.length + 1) z
      have hbefore : ∀ i ≤ made.length, y i = extended i := by
        intro i hi
        exact (Function.update_of_ne (Nat.lt_succ_iff.mpr hi).ne z y).symm
      have hlast : extended (made.length + 1) = z := Function.update_self ..
      have hhistory : ∀ i ≤ made.length,
          historyAt f x0 h y i = historyAt f x0 h extended i := fun i hi =>
        historyAt_congr fun j hj => hbefore j (hj.trans hi)
      rw [List.length_append, List.length_singleton]
      refine ⟨extended, (hbefore 0 (Nat.zero_le _)).symm.trans hstart,
        ?_, ?_, ?_⟩
      · rw [← push_historyAt, ← hhistory _ le_rfl, slopeAt, hlast]
        rfl
      · rw [table_succ, ← table_congr hbefore, ← htable, hlast]
        rfl
      · intro i hi
        rcases Nat.lt_succ_iff_lt_or_eq.mp hi with hlt | rfl
        · rw [← hhistory i hlt.le, hnext i hlt, hbefore (i + 1) hlt]
        · rw [← hhistory _ le_rfl, hz, hlast]

end Sequence

/-! ## The corrector at a node -/

section Corrector

variable (f : OdeFunction K) (x0 h : K) (y : ℕ → K)

/-- The ordinate predicted at node `i + 4`. -/
def predictionAt (i : ℕ) : K :=
  predictor h (y i) (slopeAt f x0 h y (i + 1)).slope
    (slopeAt f x0 h y (i + 2)).slope (slopeAt f x0 h y (i + 3)).slope

/-- The map by which ordinates at node `i + 4` are corrected. -/
def correctorAt (i : ℕ) (z : K) : K :=
  corrector h (y (i + 2)) (slopeAt f x0 h y (i + 2)).slope
    (slopeAt f x0 h y (i + 3)).slope (f.rhs (node x0 h (i + 4)) z)

variable {f x0 h y} {lipschitz : K}

theorem nextOrdinate_eq_settle (cap : ℕ) (tolerance : K) (i : ℕ) :
    nextOrdinate f cap tolerance x0 h (historyAt f x0 h y (i + 3)) =
      settle (correctorAt f x0 h y i) cap tolerance (predictionAt f x0 h y i)
        (node x0 h (i + 4)) :=
  nextOrdinate_historyAt_add i

variable [IsStrictOrderedRing K]

theorem correctorAt_eq (i : ℕ) (z : K) :
    correctorAt f x0 h y i z =
      y (i + 2) + h / 3 * (f.rhs (node x0 h (i + 2)) (y (i + 2)) +
        4 * f.rhs (node x0 h (i + 3)) (y (i + 3)) +
          f.rhs (node x0 h (i + 4)) z) := by
  have hthree : (3.0 : K) = 3 := by norm_num
  have hfour : (4.0 : K) = 4 := by norm_num
  rw [correctorAt, corrector, hthree, hfour]
  rfl

theorem contracts_correctorAt
    (hf : ∀ x u v, |f.rhs x u - f.rhs x v| ≤ lipschitz * |u - v|) (hh : 0 < h)
    (hsmall : h * lipschitz / 3 < 1) (i : ℕ) :
    Contracts (correctorAt f x0 h y i) (h * lipschitz / 3) where
  nonneg := by
    have hlipschitz : 0 ≤ lipschitz := by
      have hunit := (abs_nonneg _).trans (hf 0 1 0)
      rwa [sub_zero, abs_one, mul_one] at hunit
    positivity
  lt_one := hsmall
  abs_apply_sub_le u v := by
    calc |correctorAt f x0 h y i u - correctorAt f x0 h y i v|
        = |h / 3 *
          (f.rhs (node x0 h (i + 4)) u - f.rhs (node x0 h (i + 4)) v)| := by
          rw [correctorAt_eq, correctorAt_eq]
          ring_nf
      _ = h / 3 * |f.rhs (node x0 h (i + 4)) u -
        f.rhs (node x0 h (i + 4)) v| := by
          rw [abs_mul, abs_of_nonneg (div_nonneg hh.le zero_le_three)]
      _ ≤ h / 3 * (lipschitz * |u - v|) := by
          gcongr
          exact hf _ u v
      _ = h * lipschitz / 3 * |u - v| := by ring

end Corrector

/-! ## The points of the method -/

section Points

variable {f : OdeFunction K} {cap : ℕ} {tolerance x0 y0 h : K} {n : ℕ}

/-- A run has a point at each node, or stops where the corrector does not
settle. -/
theorem milnePoints_cases
    (f : OdeFunction K) (cap : ℕ) (x0 y0 h : K) (n : ℕ) (tolerance : K) :
    ∃ (y : ℕ → K) (m : ℕ), y 0 = y0 ∧ m ≤ n ∧
      (∀ i < m, nextOrdinate f cap tolerance x0 h (historyAt f x0 h y i) =
        .ok (y (i + 1))) ∧
      (m = n ∧ milnePoints f cap x0 y0 h n tolerance = .ok (table x0 h y m) ∨
        m < n ∧
          ∃ cause, nextOrdinate f cap tolerance x0 h (historyAt f x0 h y m) =
            .error cause ∧
          milnePoints f cap x0 y0 h n tolerance =
            .error (.breakdown cause (.points (table x0 h y m)))) := by
  have hadvances := advances_milneRound f cap tolerance x0 h
  rw [milnePoints]
  cases hrun : iterate (milneRound f cap tolerance x0 h) n
    ⟨0, ⟨y0, f.rhs x0 y0⟩, []⟩ with
  | ok run =>
      obtain ⟨hsteps, hlength⟩ :=
        steps_of_iterate_eq_ok hrun hadvances.ne_halt hadvances.ne_last
      obtain ⟨y, hstart, -, htable, hnext⟩ := exists_historyAt_of_steps hsteps
      refine ⟨y, _, hstart, hlength.le, hnext, .inl ⟨hlength, ?_⟩⟩
      rw [← htable]
      rfl
  | error stopped =>
      obtain ⟨cause, made⟩ := stopped
      obtain ⟨s, hsteps, hlength, hfail⟩ :=
        exists_steps_of_iterate_eq_error hrun
      obtain ⟨y, hstart, rfl, htable, hnext⟩ := exists_historyAt_of_steps hsteps
      refine ⟨y, _, hstart, hlength.le, hnext, .inr ⟨hlength, cause, ?_, ?_⟩⟩
      · exact nextOrdinate_eq_error_of_milneRound_eq_fail hfail
      · rw [← htable]
        rfl

end Points

/-- Where the right-hand side satisfies a Lipschitz condition and the step is
small enough, the values of the corrector move by at most `r` times the movement
before, at every node it comes to.  The first value that moved by no more than
the tolerance is accepted, and is near every solution of the implicit equation
of its node.  A run stops only at a node where the geometric estimate of the
last movement is above the tolerance. -/
theorem milnePoints_of_lipschitz
    [IsStrictOrderedRing K] {f : OdeFunction K} {lipschitz h : K}
    (hf : ∀ x u v, |f.rhs x u - f.rhs x v| ≤ lipschitz * |u - v|) (hh : 0 < h)
    (hsmall : h * lipschitz / 3 < 1) (cap : ℕ) (x0 y0 : K) (n : ℕ)
    (tolerance : K) :
    let r := h * lipschitz / 3
    ∃ (y : ℕ → K) (m : ℕ), y 0 = y0 ∧
      (∀ i, i + 3 ≤ m → ∀ k,
        movement (correctorAt f x0 h y i) (predictionAt f x0 h y i) (k + 1) ≤
          r * movement (correctorAt f x0 h y i) (predictionAt f x0 h y i) k) ∧
      (∀ i, i + 3 < m →
        (∃ k < max cap 1,
          y (i + 4) =
            (correctorAt f x0 h y i)^[k + 1] (predictionAt f x0 h y i) ∧
          movement (correctorAt f x0 h y i) (predictionAt f x0 h y i) k ≤
            tolerance ∧
          ∀ j < k,
            tolerance <
              movement (correctorAt f x0 h y i) (predictionAt f x0 h y i) j) ∧
        ∀ z, z = y (i + 2) + h / 3 * (f.rhs (node x0 h (i + 2)) (y (i + 2)) +
            4 * f.rhs (node x0 h (i + 3)) (y (i + 3)) +
              f.rhs (node x0 h (i + 4)) z) →
          |y (i + 4) - z| ≤ r / (1 - r) * tolerance) ∧
      (m = n ∧ milnePoints f cap x0 y0 h n tolerance = .ok (table x0 h y m) ∨
        ∃ i, m = i + 3 ∧ m < n ∧
          milnePoints f cap x0 y0 h n tolerance =
            .error (.breakdown
              (.correctorUnsettled (node x0 h (i + 4)) (max cap 1))
              (.points (table x0 h y m))) ∧
          tolerance < r ^ (max cap 1 - 1) *
            |correctorAt f x0 h y i (predictionAt f x0 h y i) -
              predictionAt f x0 h y i|) := by
  intro r
  obtain ⟨y, m, hstart, -, hnext, hend⟩ :=
    milnePoints_cases f cap x0 y0 h n tolerance
  have hcontracts : ∀ i, Contracts (correctorAt f x0 h y i) r :=
    contracts_correctorAt hf hh hsmall
  refine ⟨y, m, hstart, fun i _ k =>
    (hcontracts i).abs_iterate_succ_sub_le _ k, ?_, ?_⟩
  · intro i hi
    have haccepted := hnext (i + 3) hi
    rw [nextOrdinate_eq_settle] at haccepted
    rcases settle_cases (correctorAt f x0 h y i) cap tolerance
      (predictionAt f x0 h y i)
      (node x0 h (i + 4)) with ⟨k, hk, hsettles, hmoved,
        hlong⟩ | ⟨hunsettled, -⟩
    · have hvalue : (correctorAt f x0 h y i)^[k + 1] (predictionAt f x0 h y i) =
        y (i + 4) :=
        Except.ok.inj (hsettles.symm.trans haccepted)
      refine ⟨⟨k, hk, hvalue.symm, hmoved, hlong⟩, fun z hz => ?_⟩
      rw [← hvalue]
      exact abs_settled_sub_le (hcontracts i) hmoved
        ((correctorAt_eq i z).trans hz.symm)
    · rw [hunsettled] at haccepted
      cases haccepted
  · rcases hend with hall | ⟨hmn, cause, hcause, hstops⟩
    · exact .inl hall
    · right
      have hm : 3 ≤ m := by
        by_contra hlt
        rw [nextOrdinate_historyAt_of_lt (not_le.mp hlt)] at hcause
        cases hcause
      obtain ⟨i, rfl⟩ := Nat.exists_eq_add_of_le' hm
      rw [nextOrdinate_eq_settle] at hcause
      rcases settle_cases (correctorAt f x0 h y i) cap tolerance
        (predictionAt f x0 h y i)
        (node x0 h (i + 4)) with ⟨k, -, hsettles, -⟩ | ⟨hunsettled, hlong⟩
      · rw [hsettles] at hcause
        cases hcause
      · obtain rfl := Except.error.inj (hunsettled.symm.trans hcause)
        refine ⟨i, rfl, hmn, hstops, ?_⟩
        exact (hlong (max cap 1 - 1) (by omega)).trans_le
          ((hcontracts i).abs_iterate_sub_le_pow _ _)

/-- Decay in steps of one half: the corrector contracts by a third. -/
theorem milnePoints_of_lipschitz_decay :
    (∀ x u v, |decay.rhs x u - decay.rhs x v| ≤ 2 * |u - v|) ∧
    (1 / 2 * 2 / 3 : ℚ) < 1 ∧
    (∃ y : ℕ → ℚ,
      milnePoints decay 50 0 1 (1 / 2) 4 (1 / 100) = .ok (table 0 (1 / 2) y 4) ∧
      ∀ z, z = y 2 + 1 / 2 / 3 * (-2 * y 2 + 4 * (-2 * y 3) + -2 * z) →
        |y 4 - z| ≤ 1 / 200) ∧
    ∃ y : ℕ → ℚ,
      milnePoints decay 2 0 1 (1 / 2) 9 (1 / 1000) =
        .error (.breakdown (.correctorUnsettled 2 2)
          (.points (table 0 (1 / 2) y 3))) ∧
      1 / 1000 <
        1 / 3 * |correctorAt decay 0 (1 / 2) y 0
          (predictionAt decay 0 (1 / 2) y 0) -
        predictionAt decay 0 (1 / 2) y 0| := by
  have hdecay : ∀ x u v, |decay.rhs x u - decay.rhs x v| ≤ 2 * |u - v| := by
    intro x u v
    have hdifference : decay.rhs x u - decay.rhs x v = -2 * (u - v) := by
      simp only [decay]
      ring
    rw [hdifference, abs_mul]
    norm_num
  have hsmall : (1 / 2 * 2 / 3 : ℚ) < 1 := by norm_num
  have hsettles :
      (milnePoints decay 50 0 1 (1 / 2) 4 (1 / 100)).toOption.isSome =
        true := by
    decide +kernel
  have hstops :
      (keptPoints (milnePoints decay 2 0 1 (1 / 2) 9 (1 / 1000))).length =
        4 := by
    decide +kernel
  refine ⟨hdecay, hsmall, ?_, ?_⟩
  · obtain ⟨y, m, -, -, hnear, hend⟩ :=
      milnePoints_of_lipschitz hdecay (by norm_num) hsmall 50 0 1 4 (1 / 100)
    rcases hend with ⟨rfl, hpoints⟩ | ⟨i, -, -, hfails, -⟩
    · refine ⟨y, hpoints, fun z hz => ?_⟩
      have hdistance := (hnear 0 (by norm_num)).2 z hz
      norm_num at hdistance ⊢
      exact hdistance
    · rw [hfails] at hsettles
      cases hsettles
  · obtain ⟨y, m, -, -, -, hend⟩ :=
      milnePoints_of_lipschitz hdecay (by norm_num) hsmall 2 0 1 9 (1 / 1000)
    rcases hend with ⟨rfl, hpoints⟩ | ⟨i, rfl, -, hfails, hestimate⟩
    · rw [hpoints, keptPoints, length_table] at hstops
      cases hstops
    · rw [hfails, keptPoints] at hstops
      simp only [EngineError.partialTrace?, length_table] at hstops
      obtain rfl : i = 0 := by omega
      refine ⟨y, ?_, ?_⟩
      · rw [hfails]
        norm_num [node]
      · norm_num at hestimate ⊢
        exact hestimate

end InitialValue
end NumericalMethods
