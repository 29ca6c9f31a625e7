import NumericalMethods.Proofs.Binary64.Sorting
import NumericalMethods.Proofs.Quadrature.Nodes

/-!
# The integrand at its singular points

The margin around a singular point is a fixed distance, while the distance
between neighbouring binary numbers grows with their size.  Where the margin is
large against the rounding of the nodes, no node comes to lie on a singular
point.  Where the margin is so small that adding it to a singular point leaves
this as it is, the point is the left end of a piece, and the rules that use this
end read the integrand there.
-/

namespace NumericalMethods

open Binary64

/-! ## Values that are not finite -/

theorem Scalar.isFinite_of_isFinite_sumUpTo
    {f : ℕ → Float} {n : ℕ} (h : (sumUpTo f n).isFinite = true) :
    ∀ i < n, (f i).isFinite = true := by
  induction n with
  | zero => exact fun i hi => absurd hi i.not_lt_zero
  | succ n ih =>
      have hsplit : sumUpTo f (n + 1) = sumUpTo f n + f n := by
        rw [sumUpTo, Nat.fold_succ, sumUpTo]
      rw [hsplit] at h
      obtain ⟨hrest, hlast⟩ := isFinite_of_isFinite_add h
      intro i hi
      rcases Nat.eq_or_lt_of_le (Nat.le_of_lt_succ hi) with rfl | hlt
      · exact hlast
      · exact ih hrest i hlt

/-- A value of a rule is finite only if the integrand is at all nodes. -/
theorem QuadratureRule.isFinite_of_isFinite_composite
    {rule : QuadratureRule} {f : Float → Float} {a b : Float} {n : ℕ}
    (h : (rule.composite f a b n).isFinite = true) :
    ∀ x ∈ rule.arguments a b n, (f x).isFinite = true := by
  cases rule with
  | leftRectangles =>
      have hsum :=
        Scalar.isFinite_of_isFinite_sumUpTo (isFinite_of_isFinite_mul h).2
      simpa only [arguments, List.forall_mem_map, List.mem_range] using hsum
  | rightRectangles =>
      have hsum :=
        Scalar.isFinite_of_isFinite_sumUpTo (isFinite_of_isFinite_mul h).2
      simpa only [arguments, List.forall_mem_map, List.mem_range] using hsum
  | middleRectangles =>
      have hsum :=
        Scalar.isFinite_of_isFinite_sumUpTo (isFinite_of_isFinite_mul h).2
      simpa only [arguments, List.forall_mem_map, List.mem_range] using hsum
  | trapezoid =>
      obtain ⟨hends, hinner⟩ :=
        isFinite_of_isFinite_add (isFinite_of_isFinite_mul h).2
      obtain ⟨ha, hb⟩ :=
        isFinite_of_isFinite_add (isFinite_of_isFinite_div hends)
      have hsum := Scalar.isFinite_of_isFinite_sumUpTo hinner
      simp only [arguments, List.forall_mem_cons, List.forall_mem_map,
        List.mem_range]
      exact ⟨ha, hb, hsum⟩
  | simpson =>
      obtain ⟨hrest, heven⟩ :=
        isFinite_of_isFinite_add (isFinite_of_isFinite_mul h).2
      obtain ⟨hends, hodd⟩ := isFinite_of_isFinite_add hrest
      obtain ⟨ha, hb⟩ := isFinite_of_isFinite_add hends
      have hsumOdd :=
        Scalar.isFinite_of_isFinite_sumUpTo (isFinite_of_isFinite_mul hodd).2
      have hsumEven :=
        Scalar.isFinite_of_isFinite_sumUpTo (isFinite_of_isFinite_mul heven).2
      simp only [arguments, List.cons_append, List.forall_mem_cons,
        List.forall_mem_append, List.forall_mem_map, List.mem_range]
      exact ⟨ha, hb, hsumOdd, hsumEven⟩

/-- The rules whose first node is the left end of the interval. -/
def QuadratureRule.UsesLeftEnd (rule : QuadratureRule) : Prop :=
  rule = .leftRectangles ∨ rule = .trapezoid ∨ rule = .simpson

/-- A left end other than zero is a node, if the width does not spoil it. -/
theorem QuadratureRule.UsesLeftEnd.left_mem_arguments
    {rule : QuadratureRule} (hrule : rule.UsesLeftEnd) {f : Float → Float}
    {a b : Float} {n : ℕ} (hfinite : (rule.composite f a b n).isFinite = true)
    (ha : a.isFinite = true) (hne : value a ≠ 0) (hpos : 0 < n) :
    a ∈ rule.arguments a b n := by
  rcases hrule with rfl | rfl | rfl
  · have hwidth : ((b - a) / Float.ofNat n).isFinite = true :=
      (isFinite_of_isFinite_mul hfinite).1
    have hzero : value (Float.ofNat 0) = 0 := by
      rw [value_ofNat (by decide), Nat.cast_zero, nearest_zero]
    have hproduct :=
      rounds_mul (x := Float.ofNat 0) (isFinite_ofNat (by decide)) hwidth
    rw [hzero, zero_mul] at hproduct
    have hproductFinite := hproduct.isFinite_of_abs_le ha (by simp)
    have hsum := rounds_add ha hproductFinite
    rw [hproduct.value_eq hproductFinite, nearest_zero, add_zero] at hsum
    have hsumFinite := hsum.isFinite_of_abs_le ha le_rfl
    have hvalue := (hsum.value_eq hsumFinite).trans (nearest_value ha)
    have hsame : a + Float.ofNat 0 * ((b - a) / Float.ofNat n) = a :=
      eq_of_value_eq hsumFinite ha hvalue (by rwa [hvalue])
    exact List.mem_map.mpr ⟨0, List.mem_range.mpr hpos, hsame⟩
  · exact List.mem_cons_self
  · exact List.mem_cons_self

namespace Quadrature

/-- Every value taken by a run that ended well is finite. -/
theorem isFinite_composite_of_refinePiece_eq_ok
    {settings : Settings Float} {rule : QuadratureRule} {f : Float → Float}
    {tolerance : Float} {part : Float × Float}
    {run : Run (QuadratureStep Float) (Estimate Float)}
    (hrun : refinePiece settings rule f part.1 part.2 tolerance = .ok run)
    {n : ℕ} (hn : n ∈ countsTaken settings rule f tolerance part) :
    (rule.composite f part.1 part.2 n).isFinite = true := by
  obtain ⟨last, hlast, hends⟩ := comesTo_of_refinePiece_eq hrun (by simp)
  obtain ⟨k, hk, rfl⟩ := hn
  rcases Nat.eq_or_lt_of_le (hk.le_of_ends hends) with rfl | hlt
  · cases hends with
    | settled hfinite _ _ => exact hfinite
    | capped hfinite _ _ _ => exact hfinite
  · exact hlast.isFinite k hlt

/-- A result needs the integrand to be finite wherever it is read. -/
theorem isFinite_evaluate_of_integrate_eq_ok
    {settings : Settings Float} {rule : QuadratureRule} {g : Integrable Float}
    {lower upper tolerance : Float} {r : SolveResult Float}
    (hr : integrate settings rule g lower upper tolerance = .ok r)
    {x : Float} (hx : EvaluatesAt settings rule g lower upper tolerance x) :
    (g.evaluate x).isFinite = true := by
  obtain ⟨front, part, rest, hparts, -, n, hn, hmem⟩ := hx.taken
  obtain ⟨-, run, hrun⟩ := exists_overPieces_and_refinePiece hr hparts
  exact QuadratureRule.isFinite_of_isFinite_composite
    (isFinite_composite_of_refinePiece_eq_ok hrun hn) x hmem

/-! ## Pieces of rounded ends -/

section Pieces

variable {margin lower upper : Float}

/-- The margin is large against the rounding of the numbers of an interval. -/
structure MarginResolves (margin lower upper : Float) : Prop where
  lower : |value lower| ≤ 2 ^ 48 * value margin
  upper : |value upper| ≤ 2 ^ 48 * value margin
  least : 2 ^ (-1000 : ℤ) ≤ value margin

theorem MarginResolves.two_pow_mul_halfLeast_le
    (h : MarginResolves margin lower upper) :
    2 ^ 75 * halfLeast ≤ value margin := by
  refine le_trans (le_of_eq ?_) h.least
  rw [halfLeast, ← zpow_natCast, ← zpow_add₀ two_ne_zero]
  rfl

/-- The order of the bits of the numbers of an interval is the order of their
values. -/
theorem sortsBy_value (hlower : lower.isFinite = true)
    (hupper : upper.isFinite = true) :
    SortsBy value fun x => lower ≤ x ∧ x ≤ upper where
  trans _ _ _ := precedes_trans
  total := precedes_total
  key_le _ _ hx hy := value_le_of_precedes
    (isFinite_of_le_of_le hlower hupper hx.1 hx.2)
      (isFinite_of_le_of_le hlower hupper hy.1 hy.2)
  beq_iff _ _ hx hy := beq_iff_value_eq
    (isFinite_of_le_of_le hlower hupper hx.1 hx.2)
      (isFinite_of_le_of_le hlower hupper hy.1 hy.2)

section Resolves

variable (hmargin : margin.isFinite = true)
  (hresolves : MarginResolves margin lower upper)
include hmargin hresolves

/-- The end behind a margin lies behind its point. -/
theorem value_lt_add_margin
    {q z : Float} (hq : q.isFinite = true)
    (hbound : |value q| ≤ 2 ^ 48 * value margin) (hlt : q + margin < z) :
    (q + margin).isFinite = true ∧ value q < value (q + margin) := by
  have hleast := hresolves.two_pow_mul_halfLeast_le
  have hhalf := halfLeast_pos
  have hpos : 0 < value margin := by linarith
  have hfinite := isFinite_of_add_lt hq hmargin hpos.le hlt
  refine ⟨hfinite, ?_⟩
  have hmultiple : IsMultiple (value q + value margin) :=
    (isMultiple_value hq).add (isMultiple_value hmargin)
  have hsum : |value q + value margin| ≤ (2 ^ 48 + 1) * value margin := by
    have habs := abs_add_le (value q) (value margin)
    rw [abs_of_pos hpos] at habs
    linarith
  have herror := abs_le.mp (hmultiple.abs_nearest_sub_le_of_abs_le hsum)
  rw [(rounds_add hq hmargin).value_eq hfinite]
  linarith [herror.1]

/-- The end in front of a margin lies in front of its point, and further away
than the rounding of a node reaches. -/
theorem value_sub_margin_lt
    {q z : Float} (hq : q.isFinite = true)
    (hbound : |value q| ≤ 2 ^ 48 * value margin) (hlt : z < q - margin) :
    (q - margin).isFinite = true ∧
      value (q - margin) + 22 * (2 ^ 48 * value margin) / 2 ^ 53 +
        2 ^ 69 * halfLeast <
        value q := by
  have hleast := hresolves.two_pow_mul_halfLeast_le
  have hhalf := halfLeast_pos
  have hpos : 0 < value margin := by linarith
  have hfinite := isFinite_of_lt_sub hq hmargin hpos.le hlt
  refine ⟨hfinite, ?_⟩
  have hmultiple : IsMultiple (value q - value margin) :=
    (isMultiple_value hq).sub (isMultiple_value hmargin)
  have hdifference : |value q - value margin| ≤
      (2 ^ 48 + 1) * value margin := by
    have habs := abs_sub (value q) (value margin)
    rw [abs_of_pos hpos] at habs
    linarith
  have herror := abs_le.mp (hmultiple.abs_nearest_sub_le_of_abs_le hdifference)
  rw [(rounds_sub hq hmargin).value_eq hfinite]
  linarith [herror.2]

variable (hlower : lower.isFinite = true) (hupper : upper.isFinite = true)
include hlower hupper

omit hmargin in
theorem abs_value_le_of_within
    {p : Float} (hp : lower ≤ p ∧ p ≤ upper) :
    p.isFinite = true ∧ value lower ≤ value p ∧ value p ≤ value upper ∧
      |value p| ≤ 2 ^ 48 * value margin := by
  have hfinite := isFinite_of_le_of_le hlower hupper hp.1 hp.2
  have hlow := (le_iff_value_le hlower hfinite).mp hp.1
  have hhigh := (le_iff_value_le hfinite hupper).mp hp.2
  have hbelow := (abs_le.mp hresolves.lower).1
  have habove := (abs_le.mp hresolves.upper).2
  exact ⟨hfinite, hlow, hhigh, abs_le.mpr ⟨by linarith, by linarith⟩⟩

section Points

variable {points : List Float} (hwithin : ∀ p ∈ points, lower ≤ p ∧ p ≤ upper)
  (hsorted : points.Pairwise fun p q => value p < value q)
include hwithin hsorted

/-- The left end of a gap lies behind the points before it. -/
theorem leftEnd_clear
    {start z : Float} (hstart : start = points.getLast?.elim lower (· + margin))
    (hlt : start < z) :
    start.isFinite = true ∧ value lower ≤ value start ∧
    ∀ p ∈ points, value p < value start := by
  cases hlast : points.getLast? with
  | none =>
      rw [hlast, Option.elim_none] at hstart
      rw [hstart, List.getLast?_eq_none_iff.mp hlast]
      exact ⟨hlower, le_rfl, by simp⟩
  | some q =>
      rw [hlast, Option.elim_some] at hstart
      subst hstart
      obtain ⟨hq, hlow, -, hbound⟩ :=
        abs_value_le_of_within hresolves hlower hupper
        (hwithin q (List.mem_of_getLast? hlast))
      obtain ⟨hfinite, hbehind⟩ :=
        value_lt_add_margin hmargin hresolves hq hbound hlt
      refine ⟨hfinite, hlow.trans hbehind.le, fun p hp => ?_⟩
      exact (key_le_of_getLast?_eq_some value hsorted hlast p
        hp).trans_lt hbehind

/-- The right end of a gap lies in front of the points behind it, and further
away than the rounding of a node reaches. -/
theorem rightEnd_clear
    {stop z : Float} (hstop : stop = points.head?.elim upper (· - margin))
    (hlt : z < stop) :
    stop.isFinite = true ∧ value stop ≤ value upper ∧ ∀ p ∈ points,
      value stop + 22 * (2 ^ 48 * value margin) / 2 ^ 53 + 2 ^ 69 * halfLeast <
        value p := by
  cases hhead : points.head? with
  | none =>
      rw [hhead, Option.elim_none] at hstop
      rw [hstop, List.head?_eq_none_iff.mp hhead]
      exact ⟨hupper, le_rfl, by simp⟩
  | some q =>
      rw [hhead, Option.elim_some] at hstop
      subst hstop
      obtain ⟨hq, -, hhigh, hbound⟩ :=
        abs_value_le_of_within hresolves hlower hupper
        (hwithin q (List.mem_of_head? hhead))
      obtain ⟨hfinite, hfront⟩ :=
        value_sub_margin_lt hmargin hresolves hq hbound hlt
      have hleast := hresolves.two_pow_mul_halfLeast_le
      have hhalf := halfLeast_pos
      refine ⟨hfinite, by linarith, fun p hp => ?_⟩
      exact hfront.trans_le (key_le_of_head?_eq_some value hsorted hhead p hp)

/-- The nodes on a gap keep clear of all points. -/
theorem value_ne_of_mem_arguments
    {part : Float × Float} (hpart : part ∈ clearGaps margin upper lower points)
    {rule : QuadratureRule} {n : ℕ} (hpos : 0 < n)
    (hcount : n < 2 ^ 65) {x : Float} (hx : x ∈ rule.arguments part.1 part.2 n)
    (hfinite : x.isFinite = true) {p : Float} (hp : p ∈ points) :
    value x ≠ value p := by
  obtain ⟨hmem, hlt⟩ := mem_clearGaps_iff.mp hpart
  obtain ⟨before, after, rfl, hfirst, hsecond⟩ := exists_of_mem_gaps hmem
  obtain ⟨hbefore, hafter, -⟩ := List.pairwise_append.mp hsorted
  obtain ⟨hleft, hlow, hclearLeft⟩ :=
    leftEnd_clear hmargin hresolves hlower hupper
    (fun p hp => hwithin p (List.mem_append_left _ hp)) hbefore hfirst hlt
  obtain ⟨hright, hhigh, hclearRight⟩ :=
    rightEnd_clear hmargin hresolves hlower hupper
    (fun p hp => hwithin p (List.mem_append_right _ hp)) hafter hsecond hlt
  have hlt' := (lt_iff_value_lt hleft hright).mp hlt
  have hbelow := (abs_le.mp hresolves.lower).1
  have habove := (abs_le.mp hresolves.upper).2
  have hgrid : QuadratureRule.IsGrid part.1 part.2 n (2 ^ 48 * value margin) :=
    ⟨hleft, hright, hlt', abs_le.mpr ⟨by linarith, by linarith⟩,
      abs_le.mpr ⟨by linarith, by linarith⟩, hpos, hcount⟩
  obtain ⟨hnodeLeft, hnodeRight⟩ := hgrid.value_node_le hx hfinite
  rcases List.mem_append.mp hp with hp | hp
  · exact ((hclearLeft p hp).trans_le hnodeLeft).ne'
  · exact (hnodeRight.trans_lt (hclearRight p hp)).ne

end Points

end Resolves

end Pieces

/-! ## Singular points of the integrand -/

section Integral

variable {settings : Settings Float} {rule : QuadratureRule}
  {g : Integrable Float} {lower upper tolerance : Float}

/-- Where the margin resolves, the integrand is read at none of its singular
points. -/
theorem beq_eq_false_of_evaluatesAt
    (hmargin : settings.singularityOffset.isFinite = true)
    (hresolves : MarginResolves settings.singularityOffset lower upper)
    (hcounts : settings.maxSubintervals < Machine.countBound)
    (hordered : settings.initialSubintervals ≤ settings.maxSubintervals)
    {x : Float} (hx : EvaluatesAt settings rule g lower upper tolerance x)
    {p : Float} (hp : p ∈ g.singularPoints) (hlow : lower ≤ p)
    (hhigh : p ≤ upper) : (x == p) = false := by
  obtain ⟨⟨-, hlower, hupper, -, -⟩, front, part, rest, hparts, -, n,
      hn, hmem⟩ := hx
  have hcount : n < 2 ^ 65 := by
    have hbound : Machine.countBound + 2 ≤ 2 ^ 65 := by decide
    have hstart : rule.startingCount settings.initialSubintervals ≤
        settings.maxSubintervals + 2 := by
      rw [QuadratureRule.startingCount]
      split <;> omega
    rcases eq_or_le_of_mem_countsTaken hn with rfl | hle <;> omega
  have hpart : part ∈ clearGaps settings.singularityOffset upper lower
      (singularPointsWithin g lower upper) := by
    rw [← eq_clearGaps_of_pieces_eq_ok hparts]
    simp
  obtain ⟨q, hq, hqp⟩ :=
    exists_mem_singularPointsWithin (sortsBy_value hlower hupper) hp hlow hhigh
  rw [Bool.eq_false_iff]
  intro heq
  have hpfinite := isFinite_of_le_of_le hlower hupper hlow hhigh
  have hxfinite := isFinite_of_beq hpfinite heq
  have hclear : value x ≠ value q :=
    value_ne_of_mem_arguments hmargin hresolves hlower hupper
    (fun p hp => (mem_of_mem_singularPointsWithin hp).2)
    (pairwise_singularPointsWithin (sortsBy_value hlower hupper)) hpart
    (pos_of_mem_countsTaken hn) hcount hmem hxfinite hq
  exact hclear (((beq_iff_value_eq hxfinite hpfinite).mp heq).trans hqp.symm)

/-- Where the margin is lost next to a singular point, a result of a rule that
uses the left end of a piece has read the integrand there. -/
theorem evaluatesAt_of_add_margin_eq
    (hmargin : settings.singularityOffset.isFinite = true)
    (hpositive : 0 < value settings.singularityOffset)
    (hrule : rule.UsesLeftEnd) {p : Float} (hp : p ∈ g.singularPoints)
    (hlow : lower ≤ p) (hhigh : p < upper)
    (hlost : p + settings.singularityOffset = p)
    (hothers : ∀ q ∈ g.singularPoints, p < q → q ≤ upper →
      p < q - settings.singularityOffset)
    {r : SolveResult Float}
    (hr : integrate settings rule g lower upper tolerance = .ok r) :
    EvaluatesAt settings rule g lower upper tolerance p := by
  obtain ⟨haccepts, -⟩ := integrate_eq_ok_iff.mp hr
  have hlower := haccepts.isFinite_lower
  have hupper := haccepts.isFinite_upper
  have hsorts := sortsBy_value hlower hupper
  have hfinite := isFinite_of_le_of_le hlower hupper hlow (le_of_lt hhigh)
  have hne : value p ≠ 0 := by
    intro hzero
    have hsum :=
      (rounds_add hfinite hmargin).value_eq (by rw [hlost]; exact hfinite)
    rw [hlost, hzero, zero_add, nearest_value hmargin] at hsum
    exact hpositive.ne hsum
  obtain ⟨p', hp', hvalue⟩ :=
    exists_mem_singularPointsWithin hsorts hp hlow (le_of_lt hhigh)
  obtain ⟨-, hlow', hhigh'⟩ := mem_of_mem_singularPointsWithin hp'
  obtain rfl : p = p' :=
    eq_of_value_eq hfinite (isFinite_of_le_of_le hlower hupper hlow' hhigh')
      hvalue.symm hne
  obtain ⟨before, after, hpoints⟩ := List.append_of_mem hp'
  have hsorted := pairwise_singularPointsWithin (g := g) hsorts
  rw [hpoints, List.pairwise_append, List.pairwise_cons] at hsorted
  have hgap : (p, after.head?.elim upper (· - settings.singularityOffset)) ∈
      clearGaps settings.singularityOffset upper lower
        (singularPointsWithin g lower upper) := by
    rw [mem_clearGaps_iff, hpoints]
    constructor
    · have hmem : (p + settings.singularityOffset,
            after.head?.elim upper (· - settings.singularityOffset)) ∈
          gaps settings.singularityOffset upper lower (before ++ p :: after) :=
        mem_gaps_of_append before after
      rwa [hlost] at hmem
    · cases hhead : after.head? with
      | none => exact hhigh
      | some q =>
          have hq := List.mem_of_head? hhead
          obtain ⟨hsingular, hqlow, hqhigh⟩ := mem_of_mem_singularPointsWithin
            (hpoints ▸ List.mem_append_right before (List.mem_cons_of_mem p hq))
          have hqfinite := isFinite_of_le_of_le hlower hupper hqlow hqhigh
          exact hothers q hsingular
            ((lt_iff_value_lt hfinite hqfinite).mpr (hsorted.2.1.1 q hq)) hqhigh
  obtain ⟨parts, -, hparts, -⟩ := exists_runs_of_integrate_eq_ok hr
  rw [← eq_clearGaps_of_pieces_eq_ok hparts] at hgap
  obtain ⟨front, rest, rfl⟩ := List.append_of_mem hgap
  obtain ⟨hfront, run, hrun⟩ := exists_overPieces_and_refinePiece hr hparts
  have hword := (iterate_of_refinePiece_eq_ok hrun).1
  refine ⟨haccepts, front, _, rest, hparts, hfront, _,
    startingCount_mem_countsTaken hword, ?_⟩
  exact hrule.left_mem_arguments
    (isFinite_composite_of_refinePiece_eq_ok hrun
      (startingCount_mem_countsTaken hword))
    hfinite hne (startingCount_pos _ _)

end Integral

/-- In a usable configuration the margin decides whether an integral reads its
integrand at the singular points of the interval.  Where it is large against the
rounding of the nodes, none of these points is read, and so the values there
have no influence.  Where it is lost next to one of them, the rules that use the
left end of a piece need a finite value there.  An integral reads the integrand
at the listed points and at no others: the values elsewhere have no influence,
and for a result all values there have to be finite. -/
theorem integrate_singularPoints
    {c : Config Float} (hvalid : c.validate = .ok ())
    (hcount : c.maxSubintervals < Machine.countBound)
    (rule : QuadratureRule) (g : Integrable Float)
    (lower upper tolerance : Float) :
    (MarginResolves c.singularityOffset lower upper →
      ∀ x, EvaluatesAt c.quadrature rule g lower upper tolerance x →
        ∀ p ∈ g.singularPoints, lower ≤ p → p ≤ upper → (x == p) = false) ∧
    (rule.UsesLeftEnd →
      ∀ p ∈ g.singularPoints, lower ≤ p → p < upper →
        p + c.singularityOffset = p →
        (∀ q ∈ g.singularPoints, p < q → q ≤ upper →
          p < q - c.singularityOffset) →
        ∀ r, integrate c.quadrature rule g lower upper tolerance = .ok r →
          EvaluatesAt c.quadrature rule g lower upper tolerance p) ∧
    (∀ f : Float → Float,
      (∀ x, EvaluatesAt c.quadrature rule g lower upper tolerance x →
        f x = g.evaluate x) →
        integrate c.quadrature rule { g with evaluate := f } lower
          upper tolerance =
          integrate c.quadrature rule g lower upper tolerance) ∧
    ∀ r, integrate c.quadrature rule g lower upper tolerance = .ok r →
      ∀ x, EvaluatesAt c.quadrature rule g lower upper tolerance x →
        (g.evaluate x).isFinite = true := by
  have husable := Config.usable_of_validate hvalid
  obtain ⟨hpositive, hfinite⟩ :=
    Bool.and_eq_true_iff.mp husable.isPositiveFinite_singularityOffset
  have hmargin : c.quadrature.singularityOffset.isFinite = true := hfinite
  have hpositive' : 0 < value c.quadrature.singularityOffset := by
    rw [← value_zero]
    exact (lt_iff_value_lt rfl hmargin).mp (of_decide_eq_true hpositive)
  refine ⟨?_, ?_, fun f => integrate_congr, ?_⟩
  · intro hresolves x hx p hp hlow hhigh
    exact beq_eq_false_of_evaluatesAt hmargin hresolves hcount husable.inOrder
      hx hp hlow hhigh
  · intro hrule p hp hlow hhigh hlost hothers r hr
    exact evaluatesAt_of_add_margin_eq hmargin hpositive' hrule hp hlow hhigh
      hlost hothers hr
  · intro r hr x hx
    exact isFinite_evaluate_of_integrate_eq_ok hr hx

/-- Undefined at its singular point, which lies where neighbouring numbers are
further apart than the standard margin. -/
def undefinedFarAway : Integrable Float where
  evaluate x := 0 / (x - 1e8)
  antiderivative _ := some 0
  singularPoints := [1e8]

/-- On `[-1, 1]` the standard margin resolves, and the singular point at zero is
not read.  Next to `1e8` it is lost: the singular point is read, and there is no
result. -/
theorem integrate_singularPoints_standard :
    (Config.standard : Config Float).validate = .ok () ∧
    (Config.standard : Config Float).maxSubintervals < Machine.countBound ∧
    MarginResolves (Config.standard : Config Float).singularityOffset (-1) 1 ∧
    EvaluatesAt Config.standard.quadrature .trapezoid cutIdentity
      (-1) 1 0.1 (-1) ∧
    (∀ x, EvaluatesAt Config.standard.quadrature .trapezoid cutIdentity
      (-1) 1 0.1 x →
      (x == 0) = false) ∧
    (1e8 : Float) + (Config.standard : Config Float).singularityOffset = 1e8 ∧
    EvaluatesAt Config.standard.quadrature .trapezoid undefinedFarAway 1e8
      100000001 0.1 1e8 ∧
    ∀ r, integrate Config.standard.quadrature .trapezoid undefinedFarAway 1e8
      100000001 0.1 ≠
      .ok r := by
  have hvalid : (Config.standard : Config Float).validate = .ok () :=
    Config.validate_standard
  have hcount : (Config.standard : Config Float).maxSubintervals <
      Machine.countBound := by
    decide
  have hresolves : MarginResolves
      (Config.standard : Config Float).singularityOffset (-1) 1 := by
    have hoffset : value (Config.standard : Config Float).singularityOffset =
        4835703278458517 / 2 ^ 82 := value_billionth
    have hnegative : value (-1) = -1 := by rw [value_neg rfl, value_one]
    constructor
    · rw [hoffset, hnegative]
      norm_num
    · rw [hoffset, value_one]
      norm_num
    · rw [hoffset]
      have hpower : (2 : ℚ) ^ (-1000 : ℤ) ≤ 2 ^ (-82 : ℤ) :=
        zpow_le_zpow_right₀ one_le_two (by decide)
      exact hpower.trans (by norm_num)
  obtain ⟨hclear, -, -, -⟩ :=
    integrate_singularPoints hvalid hcount .trapezoid cutIdentity (-1) 1 0.1
  obtain ⟨-, hread, -, hfinite⟩ :=
    integrate_singularPoints hvalid hcount .trapezoid undefinedFarAway 1e8
      100000001 0.1
  have hlost : (1e8 : Float) +
      (Config.standard : Config Float).singularityOffset = 1e8 := by
    decide +kernel
  have hothers : ∀ q ∈ undefinedFarAway.singularPoints, 1e8 < q →
      q ≤ 100000001 →
      1e8 < q - (Config.standard : Config Float).singularityOffset := by
    intro q hq hlt
    obtain rfl := List.mem_singleton.mp hq
    exact absurd hlt (by decide +kernel)
  refine ⟨hvalid, hcount, hresolves, ?_, ?_, hlost, ?_, ?_⟩
  · have hpieces : pieces cutIdentity
        (Config.standard : Config Float).singularityOffset (-1) 1 =
        .ok [(-1, -1e-9), (1e-9, 1)] := by
      decide +kernel
    have haccepts : Accepts cutIdentity (-1) 1 0.1 := by
      constructor <;> decide +kernel
    exact evaluatesAt_of_pieces_eq_cons haccepts hpieces (by decide)
      List.mem_cons_self
  · intro x hx
    exact hclear hresolves x hx 0 (by simp [cutIdentity]) (by decide +kernel)
      (by decide +kernel)
  · have hpieces : pieces undefinedFarAway
        (Config.standard : Config Float).singularityOffset 1e8
        100000001 = .ok [(1e8, 100000001)] := by
      decide +kernel
    have haccepts : Accepts undefinedFarAway 1e8 100000001 0.1 := by
      constructor <;> decide +kernel
    exact evaluatesAt_of_pieces_eq_cons haccepts hpieces (by decide)
      List.mem_cons_self
  · intro r hr
    have hx :=
      hread (.inr (.inl rfl)) 1e8 (by simp [undefinedFarAway])
        (by decide +kernel)
      (by decide +kernel) hlost hothers r hr
    have hundefined : (undefinedFarAway.evaluate 1e8).isFinite = false := by
      decide +kernel
    rw [hfinite r hr 1e8 hx] at hundefined
    cases hundefined

end Quadrature
end NumericalMethods
