import Mathlib.Data.List.Destutter
import Mathlib.Data.List.Sort
import Mathlib.Order.Bounds.Basic
import NumericalMethods.Proofs.Exact.Rational
import NumericalMethods.Quadrature.Pieces

/-!
# Pieces around singular points

The singular points of an interval are put in ascending order, each of them
once.  A margin on both sides of each is left out, and the pieces are the gaps
between the margins, as far as they are not empty.  Over an ordered field the
pieces ascend, keep the margin from every singular point, and leave nothing else
of the interval out.  They depend on the set of singular points alone.
-/

namespace NumericalMethods
namespace Quadrature

section Gaps

variable {α : Type} [Scalar α]

/-- What is left between the margins around some points, be it empty or not. -/
def gaps (margin upper : α) : (left : α) → List α → List (α × α)
  | left, [] => [(left, upper)]
  | left, p :: points =>
    (left, p - margin) :: gaps margin upper (p + margin) points

/-- The gaps that are not empty. -/
def clearGaps (margin upper left : α) (points : List α) : List (α × α) :=
  (gaps margin upper left points).filter fun part => decide (part.1 < part.2)

theorem mem_clearGaps_iff
    {margin upper left : α} {points : List α} {part : α × α} :
    part ∈ clearGaps margin upper left points ↔
      part ∈ gaps margin upper left points ∧ part.1 < part.2 := by
  rw [clearGaps, List.mem_filter, decide_eq_true_eq]

theorem piecesFrom_eq (g : Integrable α) (margin upper left : α)
    (points : List α) :
    piecesFrom g margin upper left points =
      match points.find? fun p => !hasPrimitive g p with
      | some p => .error (.divergentIntegral p "integrand")
      | none => .ok (clearGaps margin upper left points) := by
  induction points generalizing left with
  | nil => simp [piecesFrom, clearGaps, gaps, List.filter_cons]
  | cons p points ih =>
      rw [piecesFrom, ih]
      by_cases hp : hasPrimitive g p = true
      · rw [if_pos hp, List.find?_cons_of_neg (by simp [hp])]
        cases points.find? fun q => !hasPrimitive g q with
        | some q => rfl
        | none => simp [clearGaps, gaps, List.filter_cons]
      · rw [if_neg hp, List.find?_cons_of_pos (by simp [hp])]

theorem pieces_eq (g : Integrable α) (margin lower upper : α) :
    pieces g margin lower upper =
      match (singularPointsWithin g lower upper).find? fun p =>
          !hasPrimitive g p with
      | some p => .error (.divergentIntegral p "integrand")
      | none =>
        match clearGaps margin upper lower
            (singularPointsWithin g lower upper) with
        | [] => .error (.invalidParameter .intervalTooNarrow)
        | parts => .ok parts := by
  rw [pieces, piecesFrom_eq]
  cases (singularPointsWithin g lower upper).find? fun p =>
    !hasPrimitive g p with
  | some p => rfl
  | none =>
      cases clearGaps margin upper lower
        (singularPointsWithin g lower upper) <;> rfl

/-- Pieces that were found are the gaps that are not empty. -/
theorem eq_clearGaps_of_pieces_eq_ok
    {g : Integrable α} {margin lower upper : α} {parts : List (α × α)}
    (h : pieces g margin lower upper = .ok parts) :
    parts =
      clearGaps margin upper lower (singularPointsWithin g lower upper) := by
  rw [pieces_eq] at h
  split at h
  · cases h
  · split at h
    · cases h
    · exact (Except.ok.inj h).symm

/-- A gap lies between two neighbouring margins, or between one and an end. -/
theorem exists_of_mem_gaps
    {margin upper left : α} {points : List α} {part : α × α}
    (hpart : part ∈ gaps margin upper left points) :
    ∃ before after, points = before ++ after ∧
      part.1 = before.getLast?.elim left (· + margin) ∧
      part.2 = after.head?.elim upper (· - margin) := by
  induction points generalizing left with
  | nil =>
      obtain rfl := List.mem_singleton.mp hpart
      exact ⟨[], [], rfl, rfl, rfl⟩
  | cons p points ih =>
      rcases List.mem_cons.mp hpart with rfl | hpart
      · exact ⟨[], p :: points, rfl, rfl, rfl⟩
      · obtain ⟨before, after, rfl, hfirst, hsecond⟩ := ih hpart
        refine ⟨p :: before, after, rfl, ?_, hsecond⟩
        rw [hfirst, List.getLast?_cons]
        cases before.getLast? with
        | none => rfl
        | some q => rfl

/-- To the right of every point there is a gap up to the next one. -/
theorem mem_gaps_of_append
    {margin upper left p : α} (before after : List α) :
    (p + margin, after.head?.elim upper (· - margin)) ∈
      gaps margin upper left (before ++ p :: after) := by
  induction before generalizing left with
  | nil =>
      refine List.mem_cons_of_mem _ ?_
      cases after with
      | nil => exact List.mem_singleton.mpr rfl
      | cons q after => exact List.mem_cons_self
  | cons q before ih => exact List.mem_cons_of_mem _ ih

end Gaps

/-! ## Singular points in order -/

section Order

theorem eraseRepsBy_loop_eq {α : Type} (r : α → α → Bool) (a : α)
    (xs made : List α) :
    List.eraseRepsBy.loop r a xs made =
      made.reverse ++ xs.destutter' (fun x y => ¬ r x y = true) a := by
  induction xs generalizing a made with
  | nil => simp [List.eraseRepsBy.loop]
  | cons x xs ih =>
      rw [List.eraseRepsBy.loop]
      cases h : r a x with
      | true => rw [ih, List.destutter'_cons_neg xs (by simp [h])]
      | false => simp [ih, List.destutter'_cons_pos (l := xs), h]

theorem eraseReps_eq_destutter {α : Type} [BEq α] (xs : List α) :
    xs.eraseReps = xs.destutter fun x y => ¬ (x == y) = true := by
  cases xs with
  | nil => rfl
  | cons x xs => exact eraseRepsBy_loop_eq _ x xs []

section Destutter

variable {α β : Type} {key : α → β} {r : α → α → Prop} [DecidableRel r]

/-- Of scalars with the same key the first one is kept. -/
theorem exists_mem_destutter'_key_eq
    {a : α} {xs : List α}
    (hkey : ∀ x ∈ a :: xs, ∀ y ∈ a :: xs, ¬ r x y → key x = key y) {p : α}
    (hp : p ∈ a :: xs) : ∃ q ∈ xs.destutter' r a, key q = key p := by
  induction xs generalizing a p with
  | nil =>
      obtain rfl := List.mem_singleton.mp hp
      exact ⟨p, List.mem_destutter' _ _ _, rfl⟩
  | cons x xs ih =>
      have htail : ∀ y ∈ x :: xs, ∀ z ∈ x :: xs, ¬ r y z → key y = key z :=
        fun y hy z hz =>
        hkey y (List.mem_cons_of_mem a hy) z (List.mem_cons_of_mem a hz)
      have hskip : ∀ y ∈ a :: xs, ∀ z ∈ a :: xs, ¬ r y z → key y = key z :=
        fun y hy z hz =>
        hkey y (List.cons_subset_cons a (List.subset_cons_self x xs) hy) z
          (List.cons_subset_cons a (List.subset_cons_self x xs) hz)
      by_cases hax : r a x
      · rw [List.destutter'_cons_pos _ hax]
        rcases List.mem_cons.mp hp with rfl | hp
        · exact ⟨p, List.mem_cons_self, rfl⟩
        · obtain ⟨q, hq, hqp⟩ := ih htail hp
          exact ⟨q, List.mem_cons_of_mem a hq, hqp⟩
      · have hkeyax : key a = key x := hkey a List.mem_cons_self x (by simp) hax
        rw [List.destutter'_cons_neg _ hax]
        rcases List.mem_cons.mp hp with rfl | hp
        · exact ih hskip List.mem_cons_self
        · rcases List.mem_cons.mp hp with rfl | hp
          · rw [← hkeyax]
            exact ih hskip List.mem_cons_self
          · exact ih hskip (List.mem_cons_of_mem a hp)

theorem pairwise_key_lt_destutter
    [LinearOrder β] {xs : List α}
    (hsorted : xs.Pairwise fun x y => key x ≤ key y)
    (hkey : ∀ x ∈ xs, ∀ y ∈ xs, r x y → key x ≠ key y) :
    (xs.destutter r).Pairwise fun x y => key x < key y := by
  have hmem := (List.destutter_sublist r xs).subset
  have hle := hsorted.sublist (List.destutter_sublist r xs)
  have hne := List.isChain_destutter r xs
  generalize xs.destutter r = ys at hmem hle hne
  have : Trans (fun x y : α => key x < key y) (fun x y => key x < key y)
      fun x y => key x < key y := ⟨lt_trans⟩
  rw [List.isChain_iff_forall_rel_of_append_cons_cons] at hne
  rw [← List.isChain_iff_pairwise,
    List.isChain_iff_forall_rel_of_append_cons_cons]
  rintro x y front rest rfl
  have hxy : key x ≤ key y := by
    rw [List.pairwise_append, List.pairwise_cons] at hle
    exact hle.2.1.1 y List.mem_cons_self
  exact lt_of_le_of_ne hxy
    (hkey x (hmem (by simp)) y (hmem (by simp)) (hne rfl))

end Destutter

variable {α β : Type} [Scalar α] [LinearOrder β]

/-- On some scalars sorting follows the order of a key, and scalars are equal
when their keys are. -/
structure SortsBy (key : α → β) (within : α → Prop) : Prop where
  trans : ∀ x y z : α, Scalar.precedes x y = true → Scalar.precedes y z = true →
    Scalar.precedes x z = true
  total : ∀ x y : α, (Scalar.precedes x y || Scalar.precedes y x) = true
  key_le : ∀ x y, within x → within y → Scalar.precedes x y = true →
    key x ≤ key y
  beq_iff : ∀ x y, within x → within y → ((x == y) = true ↔ key x = key y)

variable {key : α → β} {g : Integrable α} {lower upper : α}

/-- The singular points of an interval in the order of their bits. -/
def sortedSingularPoints (g : Integrable α) (lower upper : α) : List α :=
  (g.singularPoints.filter fun p => decide (lower ≤ p) &&
    decide (p ≤ upper)).mergeSort
    Scalar.precedes

theorem singularPointsWithin_eq (g : Integrable α) (lower upper : α) :
    singularPointsWithin g lower upper =
      (sortedSingularPoints g lower upper).destutter fun x y =>
        ¬ (x == y) = true :=
  eraseReps_eq_destutter _

theorem mem_sortedSingularPoints {p : α} :
    p ∈ sortedSingularPoints g lower upper ↔
      p ∈ g.singularPoints ∧ lower ≤ p ∧ p ≤ upper := by
  rw [sortedSingularPoints, (List.mergeSort_perm _ _).mem_iff]
  simp

theorem mem_of_mem_singularPointsWithin
    {p : α} (hp : p ∈ singularPointsWithin g lower upper) :
    p ∈ g.singularPoints ∧ lower ≤ p ∧ p ≤ upper := by
  rw [singularPointsWithin_eq] at hp
  exact mem_sortedSingularPoints.mp ((List.destutter_sublist _ _).subset hp)

section Sorted

variable (h : SortsBy key fun x => lower ≤ x ∧ x ≤ upper)
include h

/-- The singular points of an interval ascend. -/
theorem pairwise_singularPointsWithin :
    (singularPointsWithin g lower upper).Pairwise fun p q => key p < key q := by
  have hwithin : ∀ p ∈ sortedSingularPoints g lower upper,
      lower ≤ p ∧ p ≤ upper :=
    fun p hp => (mem_sortedSingularPoints.mp hp).2
  have hsorted : (sortedSingularPoints g lower upper).Pairwise fun p q =>
      key p ≤ key q :=
    (List.pairwise_mergeSort h.trans h.total _).imp_of_mem fun {p q} hp hq =>
      h.key_le p q (hwithin p hp) (hwithin q hq)
  rw [singularPointsWithin_eq]
  refine pairwise_key_lt_destutter hsorted fun p hp q hq hne hkey => ?_
  exact hne ((h.beq_iff p q (hwithin p hp) (hwithin q hq)).mpr hkey)

/-- No singular point of the interval is lost. -/
theorem exists_mem_singularPointsWithin
    {p : α} (hp : p ∈ g.singularPoints) (hlower : lower ≤ p)
    (hupper : p ≤ upper) :
    ∃ q ∈ singularPointsWithin g lower upper, key q = key p := by
  have hwithin : ∀ q ∈ sortedSingularPoints g lower upper,
      lower ≤ q ∧ q ≤ upper :=
    fun q hq => (mem_sortedSingularPoints.mp hq).2
  have hmem : p ∈ sortedSingularPoints g lower upper :=
    mem_sortedSingularPoints.mpr ⟨hp, hlower, hupper⟩
  rw [singularPointsWithin_eq]
  generalize sortedSingularPoints g lower upper = sorted at hwithin hmem
  cases sorted with
  | nil => cases hmem
  | cons x xs =>
      refine exists_mem_destutter'_key_eq (fun y hy z hz hyz => ?_) hmem
      exact (h.beq_iff y z (hwithin y hy) (hwithin z hz)).mp (not_not.mp hyz)

end Sorted

end Order

/-! ## Ascending lists -/

section Ascending

variable {α K : Type} [LinearOrder K]

/-- The last entry has the greatest key. -/
theorem key_le_of_getLast?_eq_some
    (key : α → K) {points : List α}
    (hsorted : points.Pairwise fun p q => key p < key q) {q : α}
    (hq : points.getLast? = some q) : ∀ p ∈ points, key p ≤ key q := by
  obtain ⟨init, rfl⟩ := List.getLast?_eq_some_iff.mp hq
  intro p hp
  rcases List.mem_append.mp hp with hp | hp
  · exact ((List.pairwise_append.mp hsorted).2.2 p hp q (by simp)).le
  · obtain rfl := List.mem_singleton.mp hp
    exact le_rfl

/-- The first entry has the least key. -/
theorem key_le_of_head?_eq_some
    (key : α → K) {points : List α}
    (hsorted : points.Pairwise fun p q => key p < key q) {q : α}
    (hq : points.head? = some q) : ∀ p ∈ points, key q ≤ key p := by
  obtain ⟨rest, rfl⟩ := List.head?_eq_some_iff.mp hq
  intro p hp
  rcases List.mem_cons.mp hp with rfl | hp
  · exact le_rfl
  · exact ((List.pairwise_cons.mp hsorted).1 p hp).le

/-- The first entry found in an ascending list is the least one. -/
theorem isLeast_of_find?_eq_some
    {points : List K} (hsorted : points.Pairwise (· < ·))
    {test : K → Bool} {q : K} (hq : points.find? test = some q) :
    IsLeast {p | p ∈ points ∧ test p = true} q := by
  obtain ⟨htest, front, rest, rfl, hfront⟩ :=
    List.find?_eq_some_iff_append.mp hq
  refine ⟨⟨by simp, htest⟩, ?_⟩
  rintro p ⟨hp, hptest⟩
  rcases List.mem_append.mp hp with hp | hp
  · exact absurd hptest (by simpa using hfront p hp)
  · exact key_le_of_head?_eq_some id
      (List.pairwise_append.mp hsorted).2.1 rfl p hp

end Ascending

/-! ## Exact pieces -/

section Exact

variable {K : Type} [Field K] [LinearOrder K] [ExactArithmetic K]

theorem sortsBy_id (within : K → Prop) : SortsBy (id : K → K) within where
  trans x y z hxy hyz := by
    simp only [Scalar.precedes_eq_decide, decide_eq_true_eq] at hxy hyz ⊢
    exact hxy.trans hyz
  total x y := by
    simp [le_total]
  key_le x y _ _ h := by simpa using h
  beq_iff x y _ _ := by simp

variable {g : Integrable K} {margin lower upper left : K} {points : List K}

/-- The singular points of an interval. -/
def singularSet (g : Integrable K) (lower upper : K) : Set K :=
  {p | p ∈ g.singularPoints ∧ lower ≤ p ∧ p ≤ upper}

theorem mem_singularPointsWithin_iff {p : K} :
    p ∈ singularPointsWithin g lower upper ↔ p ∈ singularSet g lower upper := by
  constructor
  · exact mem_of_mem_singularPointsWithin
  · rintro ⟨hp, hlower, hupper⟩
    obtain ⟨q, hq, rfl⟩ :=
      exists_mem_singularPointsWithin (sortsBy_id _) hp hlower hupper
    exact hq

theorem pairwise_lt_singularPointsWithin :
    (singularPointsWithin g lower upper).Pairwise (· < ·) :=
  pairwise_singularPointsWithin (sortsBy_id _)

/-- Intervals that keep a margin from some points of an interval and leave
nothing else of it out. -/
structure KeepsClear (singular : Set K) (margin lower upper : K)
    (parts : List (K × K)) : Prop where
  within : ∀ part ∈ parts, lower ≤ part.1 ∧ part.1 < part.2 ∧ part.2 ≤ upper
  ascending : parts.Pairwise fun l r => l.2 < r.1
  distant : ∀ part ∈ parts, ∀ x ∈ Set.Icc part.1 part.2, ∀ p ∈ singular,
  margin ≤ |x - p|
  covers : ∀ x ∈ Set.Icc lower upper,
    (∃ part ∈ parts, x ∈ Set.Icc part.1 part.2) ∨
    ∃ p ∈ singular, |x - p| ≤ margin

variable [IsStrictOrderedRing K]

section Sorted

variable (hmargin : 0 < margin) (hsorted : points.Pairwise (· < ·))
include hmargin hsorted

theorem within_of_mem_gaps
    (hleft : ∀ p ∈ points, left ≤ p) (hupper : ∀ p ∈ points, p ≤ upper)
    {part : K × K} (hpart : part ∈ gaps margin upper left points) :
    left ≤ part.1 ∧ part.2 ≤ upper := by
  obtain ⟨before, after, rfl, hfirst, hsecond⟩ := exists_of_mem_gaps hpart
  constructor
  · rw [hfirst]
    cases hlast : before.getLast? with
    | none => exact le_rfl
    | some q =>
        have hq := hleft q (List.mem_append_left _ (List.mem_of_getLast? hlast))
        exact hq.trans (by simpa using hmargin.le)
  · rw [hsecond]
    cases hhead : after.head? with
    | none => exact le_rfl
    | some q =>
        have hq := hupper q (List.mem_append_right _ (List.mem_of_head? hhead))
        exact le_trans (by simpa using hmargin.le) hq

omit hmargin in
/-- The first points lie below a gap and its margin, the others above. -/
theorem margin_le_of_mem_gaps
    {part : K × K} (hpart : part ∈ gaps margin upper left points) {x : K}
    (hx : x ∈ Set.Icc part.1 part.2) {p : K} (hp : p ∈ points) :
    margin ≤ |x - p| := by
  obtain ⟨before, after, rfl, hfirst, hsecond⟩ := exists_of_mem_gaps hpart
  obtain ⟨hbefore, hafter, -⟩ := List.pairwise_append.mp hsorted
  obtain ⟨hlow, hhigh⟩ := hx
  rcases List.mem_append.mp hp with hp | hp
  · obtain ⟨q, hq⟩ :=
      List.getLast?_isSome.mpr (List.ne_nil_of_mem hp) |>
        Option.isSome_iff_exists.mp
    have hle : p ≤ q := key_le_of_getLast?_eq_some id hbefore hq p hp
    rw [hfirst, hq, Option.elim_some] at hlow
    rw [le_abs]
    left
    linarith
  · obtain ⟨q, hq⟩ :=
      List.isSome_head?.mpr (List.ne_nil_of_mem hp) |>
        Option.isSome_iff_exists.mp
    have hle : q ≤ p := key_le_of_head?_eq_some id hafter hq p hp
    rw [hsecond, hq, Option.elim_some] at hhigh
    rw [le_abs]
    right
    linarith

theorem pairwise_gaps : (gaps margin upper left points).Pairwise fun l r =>
  l.2 < r.1 := by
  induction points generalizing left with
  | nil => exact List.pairwise_singleton _ _
  | cons p points ih =>
      obtain ⟨hfirst, hrest⟩ := List.pairwise_cons.mp hsorted
      refine List.pairwise_cons.mpr ⟨?_, ih hrest⟩
      intro part hpart
      obtain ⟨before, after, rfl, hstart, -⟩ := exists_of_mem_gaps hpart
      rw [hstart]
      cases hlast : before.getLast? with
      | none =>
          rw [Option.elim_none]
          linarith
      | some q =>
          have hpq :=
            hfirst q (List.mem_append_left _ (List.mem_of_getLast? hlast))
          rw [Option.elim_some]
          linarith

omit hmargin hsorted in
/-- What is in no gap is within the margin of a point. -/
theorem mem_gaps_or_abs_sub_le
    (hlt : left < upper) {x : K} (hx : x ∈ Set.Icc left upper) :
    (∃ part ∈ clearGaps margin upper left points, x ∈ Set.Icc part.1 part.2) ∨
      ∃ p ∈ points, |x - p| ≤ margin := by
  obtain ⟨hlow, hhigh⟩ := hx
  induction points generalizing left with
  | nil =>
      left
      exact ⟨(left, upper), by simp [clearGaps, gaps, hlt], hlow, hhigh⟩
  | cons p points ih =>
      rcases lt_or_ge x (p - margin) with hbelow | hnear
      · left
        refine ⟨(left, p - margin), ?_, hlow, hbelow.le⟩
        simp [clearGaps, gaps, hlow.trans_lt hbelow]
      · rcases le_or_gt x (p + margin) with hnear' | habove
        · right
          refine ⟨p, List.mem_cons_self, ?_⟩
          rw [abs_le]
          constructor <;> linarith
        · rcases ih (habove.trans_le hhigh)
            habove.le with ⟨part, hpart, hmem⟩ | ⟨q, hq, hdist⟩
          · left
            rw [mem_clearGaps_iff] at hpart
            exact ⟨part,
              mem_clearGaps_iff.mpr ⟨List.mem_cons_of_mem _ hpart.1, hpart.2⟩,
              hmem⟩
          · right
            exact ⟨q, List.mem_cons_of_mem _ hq, hdist⟩

end Sorted

theorem keepsClear_clearGaps (hmargin : 0 < margin) (hlt : lower < upper) :
    KeepsClear (singularSet g lower upper) margin lower upper
      (clearGaps margin upper lower (singularPointsWithin g lower upper)) := by
  have hsorted : (singularPointsWithin g lower upper).Pairwise (· < ·) :=
    pairwise_lt_singularPointsWithin
  have hmem : ∀ p, p ∈ singularPointsWithin g lower upper ↔
      p ∈ singularSet g lower upper :=
    fun _ => mem_singularPointsWithin_iff
  constructor
  · intro part hpart
    obtain ⟨hgap, hclear⟩ := mem_clearGaps_iff.mp hpart
    obtain ⟨hlow, hhigh⟩ := within_of_mem_gaps hmargin hsorted
      (fun p hp => ((hmem p).mp hp).2.1) (fun p hp => ((hmem p).mp hp).2.2) hgap
    exact ⟨hlow, hclear, hhigh⟩
  · exact (pairwise_gaps hmargin hsorted).filter _
  · intro part hpart x hx p hp
    exact margin_le_of_mem_gaps hsorted (mem_clearGaps_iff.mp hpart).1 hx
      ((hmem p).mpr hp)
  · intro x hx
    rcases mem_gaps_or_abs_sub_le hlt hx with hpart | ⟨p, hp, hdist⟩
    · exact .inl hpart
    · exact .inr ⟨p, (hmem p).mp hp, hdist⟩

omit [IsStrictOrderedRing K] in
/-- What is reported is the least singular point without a primitive. -/
theorem exists_pieces_eq_error
    (hnone : ∃ p ∈ singularSet g lower upper, hasPrimitive g p = false) :
    ∃ p, IsLeast {p ∈ singularSet g lower upper | hasPrimitive g p = false} p ∧
      pieces g margin lower upper =
        .error (.divergentIntegral p "integrand") := by
  obtain ⟨q, hq, hqnone⟩ := hnone
  obtain ⟨p, hp⟩ : ∃ p, (singularPointsWithin g lower upper).find?
      (fun p => !hasPrimitive g p) = some p := by
    rw [← Option.isSome_iff_exists, List.find?_isSome]
    exact ⟨q, mem_singularPointsWithin_iff.mpr hq, by simp [hqnone]⟩
  refine ⟨p, ?_, by rw [pieces_eq, hp]⟩
  simpa [mem_singularPointsWithin_iff] using
    isLeast_of_find?_eq_some pairwise_lt_singularPointsWithin hp

/-- An interval is cut into pieces that keep the margin from its singular points
and leave nothing else of it out.  There may be none, and then the interval is
too narrow.  A singular point without a finite primitive is reported instead,
and it is the least of them; exact scalars are all finite, so that this is a
point where none is known.  The order and the repetitions in which the singular
points are listed do not matter. -/
theorem pieces_keepClear (hmargin : 0 < margin) (hlt : lower < upper)
    (g : Integrable K) :
    ((∀ p ∈ singularSet g lower upper, hasPrimitive g p = true) →
      ∃ parts, KeepsClear (singularSet g lower upper) margin lower upper parts ∧
        (parts ≠ [] ∧ pieces g margin lower upper = .ok parts ∨
          parts = [] ∧ pieces g margin lower upper =
            .error (.invalidParameter .intervalTooNarrow))) ∧
    ((∃ p ∈ singularSet g lower upper, hasPrimitive g p = false) →
      ∃ p, IsLeast
          {p ∈ singularSet g lower upper | hasPrimitive g p = false} p ∧
        pieces g margin lower upper =
          .error (.divergentIntegral p "integrand")) ∧
    ∀ g' : Integrable K, g'.antiderivative = g.antiderivative →
      singularSet g' lower upper = singularSet g lower upper →
        pieces g' margin lower upper = pieces g margin lower upper := by
  refine ⟨?_, ?_, ?_⟩
  · intro hall
    refine ⟨_, keepsClear_clearGaps hmargin hlt, ?_⟩
    have hfind : (singularPointsWithin g lower upper).find?
        (fun p => !hasPrimitive g p) =
        none := by
      rw [List.find?_eq_none]
      intro p hp
      simp [hall p (mem_singularPointsWithin_iff.mp hp)]
    rw [pieces_eq, hfind]
    cases clearGaps margin upper lower (singularPointsWithin g lower upper) with
    | nil => exact .inr ⟨rfl, rfl⟩
    | cons part parts => exact .inl ⟨List.cons_ne_nil _ _, rfl⟩
  · exact exists_pieces_eq_error
  · intro g' hprimitive hsame
    have hpoints : singularPointsWithin g' lower upper =
        singularPointsWithin g lower upper := by
      refine pairwise_lt_singularPointsWithin.eq_of_mem_iff
        pairwise_lt_singularPointsWithin ?_
      intro p
      rw [mem_singularPointsWithin_iff, mem_singularPointsWithin_iff, hsame]
    have hsamePrimitive : hasPrimitive g' = hasPrimitive g := by
      funext p
      rw [hasPrimitive, hasPrimitive, hprimitive]
    rw [pieces_eq, pieces_eq, hpoints, hsamePrimitive]

end Exact

/-- The identity, said to be singular at one and, twice, at zero. -/
def cutTwice : Integrable ℚ where
  evaluate x := x
  antiderivative x := some (x * x / 2)
  singularPoints := [1, 0, 0]

theorem pieces_cutTwice :
    pieces cutTwice (1 / 4) (-1) 1 = .ok [(-1, -1 / 4), (1 / 4, 3 / 4)] := by
  have hpoints : singularPointsWithin cutTwice (-1) 1 = [0, 1] := by
    refine pairwise_lt_singularPointsWithin.eq_of_mem_iff (by simp) ?_
    intro p
    rw [mem_singularPointsWithin_iff]
    have hlisted : p ∈ cutTwice.singularPoints ↔ p = 0 ∨ p = 1 := by
      simp [cutTwice, or_comm]
    simp only [singularSet, Set.mem_ofPred_eq, hlisted, List.mem_cons,
      List.not_mem_nil, or_false]
    refine ⟨And.left, fun h => ⟨h, ?_⟩⟩
    rcases h with rfl | rfl <;> norm_num
  rw [pieces_eq, hpoints]
  decide +kernel

theorem pieces_keepClear_cutTwice :
    (0 : ℚ) < 1 / 4 ∧ (-1 : ℚ) < 1 ∧
      (∀ p ∈ singularSet cutTwice (-1) 1, hasPrimitive cutTwice p = true) ∧
      KeepsClear (singularSet cutTwice (-1) 1) (1 / 4) (-1) 1
        [(-1, -1 / 4), (1 / 4, 3 / 4)] := by
  have hmargin : (0 : ℚ) < 1 / 4 := by norm_num
  have hlt : (-1 : ℚ) < 1 := by norm_num
  have hall : ∀ p ∈ singularSet cutTwice (-1) 1,
      hasPrimitive cutTwice p = true :=
    fun _ _ => rfl
  obtain ⟨parts, hclear, ⟨-, hparts⟩ | ⟨-, hnone⟩⟩ :=
    (pieces_keepClear hmargin hlt cutTwice).1 hall
  · rw [pieces_cutTwice] at hparts
    obtain rfl := Except.ok.inj hparts
    exact ⟨hmargin, hlt, hall, hclear⟩
  · rw [pieces_cutTwice] at hnone
    cases hnone

end Quadrature
end NumericalMethods
