import NumericalMethods.Proofs.Quadrature.Counts
import NumericalMethods.Proofs.Quadrature.Pieces
import NumericalMethods.Proofs.Quadrature.Tolerance

/-!
# Where the integrand is evaluated

A rule reads the integrand at its nodes and at nothing else.  So an integral
reads it at the nodes of the counts taken on its pieces, up to the first piece
on which it is not finite.  Other values of the integrand have no influence on
the outcome.
-/

namespace NumericalMethods

variable {α : Type} [Scalar α]

theorem Scalar.sumUpTo_congr
    {f f' : ℕ → α} {n : ℕ} (h : ∀ i < n, f i = f' i) :
    sumUpTo f n = sumUpTo f' n := by
  rw [sumUpTo, sumUpTo]
  induction n with
  | zero => rfl
  | succ n ih =>
      rw [Nat.fold_succ, Nat.fold_succ,
        ih fun i hi => h i (hi.trans n.lt_succ_self), h n n.lt_succ_self]

namespace QuadratureRule

/-! ## The nodes of a rule -/

/-- The numbers that nodes of `n` subintervals are multiples of the width by. -/
inductive Multiplier (n : ℕ) : α → Prop where
  | whole {i : ℕ} : i ≤ n → Multiplier n (Scalar.ofNat i)
  | half {i : ℕ} : i < n → Multiplier n (Scalar.ofNat i + 0.5)

/-- The points at which a rule on `n` subintervals of `[a, b]` reads the
integrand. -/
def arguments (rule : QuadratureRule) (a b : α) (n : ℕ) : List α :=
  let h := (b - a) / Scalar.ofNat n
  match rule with
  | leftRectangles => (List.range n).map fun i => a + Scalar.ofNat i * h
  | rightRectangles => (List.range n).map fun i => a + Scalar.ofNat (i + 1) * h
  | middleRectangles =>
    (List.range n).map fun i => a + (Scalar.ofNat i + 0.5) * h
  | trapezoid =>
    a :: b :: (List.range (n - 1)).map fun i => a + Scalar.ofNat (i + 1) * h
  | simpson =>
    a :: b ::
      ((List.range (n / 2)).map fun i => a + Scalar.ofNat (2 * i + 1) * h) ++
      (List.range ((n - 1) / 2)).map fun i => a + Scalar.ofNat (2 * i + 2) * h

/-- A node is an end of the interval or some widths away from the left one. -/
theorem eq_or_exists_of_mem_arguments
    {rule : QuadratureRule} {a b x : α} {n : ℕ}
    (hx : x ∈ rule.arguments a b n) :
    x = a ∨ x = b ∨ ∃ m : α, Multiplier n m ∧
    x = a + m * ((b - a) / Scalar.ofNat n) := by
  cases rule with
  | leftRectangles =>
      obtain ⟨i, hi, rfl⟩ := List.mem_map.mp hx
      exact .inr (.inr ⟨_, .whole (List.mem_range.mp hi).le, rfl⟩)
  | rightRectangles =>
      obtain ⟨i, hi, rfl⟩ := List.mem_map.mp hx
      exact .inr (.inr ⟨_, .whole (List.mem_range.mp hi), rfl⟩)
  | middleRectangles =>
      obtain ⟨i, hi, rfl⟩ := List.mem_map.mp hx
      exact .inr (.inr ⟨_, .half (List.mem_range.mp hi), rfl⟩)
  | trapezoid =>
      simp only [arguments, List.mem_cons, List.mem_map, List.mem_range] at hx
      obtain rfl | rfl | ⟨i, hi, rfl⟩ := hx
      · exact .inl rfl
      · exact .inr (.inl rfl)
      · exact .inr (.inr ⟨_, .whole (by omega), rfl⟩)
  | simpson =>
      simp only [arguments, List.mem_cons, List.mem_append, List.mem_map,
        List.mem_range] at hx
      obtain (rfl | rfl | ⟨i, hi, rfl⟩) | ⟨i, hi, rfl⟩ := hx
      · exact .inl rfl
      · exact .inr (.inl rfl)
      · exact .inr (.inr ⟨_, .whole (by omega), rfl⟩)
      · exact .inr (.inr ⟨_, .whole (by omega), rfl⟩)

/-- The value of a rule depends on the integrand at its nodes only. -/
theorem composite_congr
    {rule : QuadratureRule} {f f' : α → α} {a b : α} {n : ℕ}
    (h : ∀ x ∈ rule.arguments a b n, f x = f' x) :
    rule.composite f a b n = rule.composite f' a b n := by
  cases rule with
  | leftRectangles =>
      simp only [composite]
      rw [Scalar.sumUpTo_congr fun i hi =>
        h _ (List.mem_map_of_mem (List.mem_range.mpr hi))]
  | rightRectangles =>
      simp only [composite]
      rw [Scalar.sumUpTo_congr fun i hi =>
        h _ (List.mem_map_of_mem (List.mem_range.mpr hi))]
  | middleRectangles =>
      simp only [composite]
      rw [Scalar.sumUpTo_congr fun i hi =>
        h _ (List.mem_map_of_mem (List.mem_range.mpr hi))]
  | trapezoid =>
      simp only [arguments, List.forall_mem_cons, List.forall_mem_map,
        List.mem_range] at h
      obtain ⟨ha, hb, hinner⟩ := h
      simp only [composite]
      rw [ha, hb, Scalar.sumUpTo_congr hinner]
  | simpson =>
      simp only [arguments, List.cons_append, List.forall_mem_cons,
        List.forall_mem_append, List.forall_mem_map, List.mem_range] at h
      obtain ⟨ha, hb, hodd, heven⟩ := h
      simp only [composite]
      rw [ha, hb, Scalar.sumUpTo_congr hodd, Scalar.sumUpTo_congr heven]

end QuadratureRule

namespace Quadrature

/-! ## The points of an integral -/

/-- An integral reads its integrand at a point: it has integrated over the
pieces before, and the point is a node of a count taken on a piece. -/
structure EvaluatesAt (settings : Settings α) (rule : QuadratureRule)
    (g : Integrable α) (lower upper tolerance x : α) : Prop where
  accepts : Accepts g lower upper tolerance
  taken : ∃ front part rest,
    pieces g settings.singularityOffset lower upper =
      .ok (front ++ part :: rest) ∧
    (∃ total,
      overPieces settings rule g.evaluate tolerance ⟨0, 0, 0, [], []⟩ front =
      .ok total) ∧
    ∃ n ∈ countsTaken settings rule g.evaluate tolerance part,
      x ∈ rule.arguments part.1 part.2 n

variable {settings : Settings α} {rule : QuadratureRule} {g : Integrable α}
  {lower upper tolerance : α} {f f' : α → α}

/-- On the first piece the nodes of the first count are read whatever the
values are. -/
theorem evaluatesAt_of_pieces_eq_cons
    (haccepts : Accepts g lower upper tolerance) {part : α × α}
    {rest : List (α × α)}
    (hparts : pieces g settings.singularityOffset lower upper =
      .ok (part :: rest))
    (hword : rule.startingCount settings.initialSubintervals <
      Machine.countBound) {x : α}
    (hx : x ∈ rule.arguments part.1 part.2
      (rule.startingCount settings.initialSubintervals)) :
    EvaluatesAt settings rule g lower upper tolerance x :=
  ⟨haccepts, [], part, rest, hparts, ⟨_, rfl⟩, _,
    startingCount_mem_countsTaken hword, hx⟩

theorem refinePiece_congr
    {part : α × α}
    (h : ∀ n ∈ countsTaken settings rule f tolerance part,
      ∀ x ∈ rule.arguments part.1 part.2 n, f' x = f x) :
    refinePiece settings rule f' part.1 part.2 tolerance =
      refinePiece settings rule f part.1 part.2 tolerance :=
  Doublings.run_congr (d := onPiece settings rule f tolerance part)
    (startingCount_pos _ _)
    fun k hk => QuadratureRule.composite_congr (h _ ⟨k, hk, rfl⟩)

/-- The runs on the pieces up to the first breakdown decide the outcome. -/
theorem overPieces_congr
    {parts : List (α × α)} {total : Total α}
    (h : ∀ front part rest t, parts = front ++ part :: rest →
      overPieces settings rule f tolerance total front = .ok t →
      refinePiece settings rule f' part.1 part.2 tolerance =
        refinePiece settings rule f part.1 part.2 tolerance) :
    overPieces settings rule f' tolerance total parts =
      overPieces settings rule f tolerance total parts := by
  induction parts generalizing total with
  | nil => rfl
  | cons part parts ih =>
      have hpart := h [] part parts total rfl rfl
      rw [overPieces, overPieces, hpart]
      cases hrun : refinePiece settings rule f part.1 part.2 tolerance with
      | error stopped => cases stopped <;> rfl
      | ok run =>
          dsimp only
          split
          · rfl
          · next hfits =>
            refine ih fun front part' rest t hsplit hfront => ?_
            refine h (part :: front) part' rest t
              (by rw [hsplit, List.cons_append]) ?_
            exact overPieces_cons_eq_ok_iff.mpr
              ⟨run, hrun, Nat.not_le.mp hfits, hfront⟩

/-- Values of the integrand at points where an integral does not read it have no
influence on the integral. -/
theorem integrate_congr
    (h : ∀ x, EvaluatesAt settings rule g lower upper tolerance x →
      f x = g.evaluate x) :
    integrate settings rule { g with evaluate := f } lower upper tolerance =
      integrate settings rule g lower upper tolerance := by
  have hpieces : pieces { g with evaluate := f } settings.singularityOffset
      lower upper =
      pieces g settings.singularityOffset lower upper := by
    rw [pieces_eq, pieces_eq]
    rfl
  have haccepted : acceptedPieces { g with evaluate := f }
      settings.singularityOffset lower upper tolerance =
      acceptedPieces g settings.singularityOffset lower upper tolerance := by
    rw [acceptedPieces, acceptedPieces, hpieces]
    rfl
  rw [integrate_eq, integrate_eq, haccepted]
  cases hparts : acceptedPieces g settings.singularityOffset lower upper
      tolerance with
  | error e => rfl
  | ok parts =>
      obtain ⟨haccepts, hparts⟩ := acceptedPieces_eq_ok_iff.mp hparts
      refine congrArg (Except.map (result rule g lower upper))
        (overPieces_congr ?_)
      rintro front part rest t rfl hfront
      exact refinePiece_congr fun n hn x hx =>
        h x ⟨haccepts, front, part, rest, hparts, ⟨t, hfront⟩, n, hn, hx⟩

end Quadrature
end NumericalMethods
