import NumericalMethods.Proofs.Binary64.Midpoint
import NumericalMethods.Proofs.Binary64.Signs
import NumericalMethods.Proofs.Failure
import NumericalMethods.Proofs.Outcome

/-!
# Half-division of binary numbers

A bracket is entered if the signs of the function at its ends are opposite,
unless the product that is to tell is rounded to zero.  While it is halved its
left end keeps the sign it started with, and its right end the opposite one, or
a point where the function is undefined: an undefined value has no sign, and so
counts as a change of it.  A sum of the ends that is too large makes an end
infinite, which no halving narrows again.
-/

namespace NumericalMethods
namespace RootFinding

open Binary64

/-- The ends of a bracket in their order. -/
def orderedEnds (a b : Float) : Float × Float :=
  if b < a then (b, a) else (a, b)

variable {a b : Float}

theorem isPositiveFinite_iff {x : Float} :
    Scalar.isPositiveFinite x = true ↔ 0 < x ∧ x.isFinite = true := by
  rw [Scalar.isPositiveFinite, Bool.and_eq_true, decide_eq_true_iff]
  exact Iff.rfl

theorem orderedEnds_cases (a b : Float) :
    orderedEnds a b = (a, b) ∨ orderedEnds a b = (b, a) := by
  rw [orderedEnds]
  split
  · exact .inr rfl
  · exact .inl rfl

theorem orderedEnds_le (ha : a.isFinite = true) (hb : b.isFinite = true) :
    (orderedEnds a b).1 ≤ (orderedEnds a b).2 := by
  rw [orderedEnds]
  split
  · rename_i hlt
    exact le_of_lt hlt
  · rename_i hle
    exact (not_lt_iff_le (isNaN_of_isFinite ha) (isNaN_of_isFinite hb)).mp hle

/-! ## Entering a bracket -/

section Entering

variable (settings : RootSettings Float) (f : ScalarFunction Float)
  (a b tolerance : Float)

/-- A bracket with the function at its ordered ends. -/
def firstBracket : Bracket Float where
  a := (orderedEnds a b).1
  b := (orderedEnds a b).2
  fa := f.evaluate (orderedEnds a b).1
  fb := f.evaluate (orderedEnds a b).2

theorem mul_firstBracket_lt_zero_iff :
    (firstBracket f a b).fa * (firstBracket f a b).fb < 0 ↔
      OppositeSigns (f.evaluate a) (f.evaluate b) ∧
        ¬ ProductVanishes (f.evaluate a) (f.evaluate b) := by
  rw [mul_lt_zero_iff, firstBracket]
  rcases orderedEnds_cases a b with h | h
  · rw [h]
  · rw [h, oppositeSigns_comm, productVanishes_comm]

theorem halfDivision_firstBracket :
    halfDivision settings f a b tolerance =
      if (firstBracket f a b).fa * (firstBracket f a b).fb < 0 then
        ofIteration (halfDivisionResult settings f tolerance)
          .halfDivision Empty.elim
          (iterate (halve f.evaluate tolerance) settings.maxIterations
            (firstBracket f a b))
      else
        .error (.invalidBracket (firstBracket f a b).a (firstBracket f a b).b
          (firstBracket f a b).fa (firstBracket f a b).fb) :=
  halfDivision_eq settings f a b tolerance

/-- Half-division refuses a bracket exactly if the signs at its ends are not
opposite or the product of the values there is rounded to zero.  It has no other
way to fail, and searches every other bracket. -/
theorem halfDivision_enters_iff :
    (∀ e, halfDivision settings f a b tolerance = .error e ↔
      e = .invalidBracket (orderedEnds a b).1 (orderedEnds a b).2
        (f.evaluate (orderedEnds a b).1) (f.evaluate (orderedEnds a b).2) ∧
      (¬ OppositeSigns (f.evaluate a) (f.evaluate b) ∨
        ProductVanishes (f.evaluate a) (f.evaluate b))) ∧
    ((∃ run,
      iterate (halve f.evaluate tolerance) settings.maxIterations
        (firstBracket f a b) =
          .ok run ∧
        halfDivision settings f a b tolerance =
          .ok (halfDivisionResult settings f tolerance run)) ↔
      OppositeSigns (f.evaluate a) (f.evaluate b) ∧
        ¬ ProductVanishes (f.evaluate a) (f.evaluate b)) := by
  have hdivision := halfDivision_firstBracket settings f a b tolerance
  have hsign := mul_firstBracket_lt_zero_iff f a b
  by_cases henters : (firstBracket f a b).fa * (firstBracket f a b).fb < 0
  · rw [if_pos henters] at hdivision
    obtain ⟨hopposite, hproduct⟩ := hsign.mp henters
    cases hrun : iterate (halve f.evaluate tolerance) settings.maxIterations
        (firstBracket f a b) with
    | error stopped => exact stopped.1.elim
    | ok run =>
        rw [hrun] at hdivision
        constructor
        · intro e
          rw [hdivision]
          refine iff_of_false nofun ?_
          rintro ⟨-, hsame | hvanishes⟩
          · exact hsame hopposite
          · exact hproduct hvanishes
        · exact iff_of_true ⟨run, rfl, hdivision⟩ ⟨hopposite, hproduct⟩
  · rw [if_neg henters] at hdivision
    have hrefuses := mt hsign.mpr henters
    constructor
    · intro e
      rw [hdivision, Except.error.injEq, eq_comm]
      rw [not_and_or, not_not] at hrefuses
      exact (and_iff_left hrefuses).symm
    · refine iff_of_false ?_ hrefuses
      rintro ⟨run, -, hok⟩
      rw [hdivision] at hok
      cases hok

end Entering

/-! ## What is kept while a bracket is halved -/

/-- The first value has a sign, and the second one the opposite one or none
at all. -/
structure Separates (p q : Float) : Prop where
  left : p < 0 ∨ 0 < p
  right : q.isNaN = true ∨ OppositeSigns p q

/-- A point of the bracket between `a` and `b`. -/
structure Inside (a b x : Float) : Prop where
  low_le : (orderedEnds a b).1 ≤ x
  le_high : x ≤ (orderedEnds a b).2

/-- An interval within the bracket between `a` and `b`. -/
structure SubBracket (a b u v : Float) : Prop where
  left : Inside a b u
  right : Inside a b v
  le : u ≤ v

/-- One end of a bracket is infinite and the other is not. -/
def Unbounded (s : Bracket Float) : Prop :=
  ∃ t, s.a.toModel.unpack = .infinity t ∧ s.b.isFinite = true ∨
    s.b.toModel.unpack = .infinity t ∧ s.a.isFinite = true

/-- What holds of every bracket that halving leads to. -/
structure KeepsSigns (f : Float → Float) (a b : Float)
    (s : Bracket Float) : Prop where
  fa_eq : s.fa = f s.a
  fb_eq : s.fb = f s.b
  separates : Separates s.fa s.fb
  placed : SubBracket a b s.a s.b ∨ Unbounded s

section Halving

variable {f : Float → Float} {a b tolerance p q : Float}
  {s next : Bracket Float} {entry : HalfDivisionStep Float}

theorem separates_iff_hasSign :
    Separates p q ↔ ∃ t, HasSign t p.toModel.unpack ∧
      (q.isNaN = true ∨ HasSign (-t) q.toModel.unpack) := by
  constructor
  · rintro ⟨hp, hq⟩
    rw [lt_zero_iff_hasSign, zero_lt_iff_hasSign] at hp
    obtain ⟨t, ht⟩ : ∃ t, HasSign t p.toModel.unpack := by
      rcases hp with h | h
      · exact ⟨_, h⟩
      · exact ⟨_, h⟩
    refine ⟨t, ht, hq.imp id ?_⟩
    intro hopposite
    obtain ⟨t', ht', hq'⟩ := oppositeSigns_iff_hasSign.mp hopposite
    rwa [ht.unique ht']
  · rintro ⟨t, hp, hq⟩
    refine ⟨?_, hq.imp id fun hq => oppositeSigns_iff_hasSign.mpr ⟨t, hp, hq⟩⟩
    rw [lt_zero_iff_hasSign, zero_lt_iff_hasSign]
    cases t with
    | positive => exact .inr hp
    | negative => exact .inl hp

theorem Separates.sameSign_left (h : Separates p q) :
    Scalar.sameSign p p = true := by
  obtain ⟨t, ht, -⟩ := separates_iff_hasSign.mp h
  exact (ht.sameSign_iff ht).mpr rfl

theorem Separates.sameSign_right (h : Separates p q) :
    Scalar.sameSign q p = false := by
  obtain ⟨t, ht, hq | hq⟩ := separates_iff_hasSign.mp h
  · exact sameSign_of_isNaN hq
  · rw [Bool.eq_false_iff, Ne, hq.sameSign_iff ht]
    cases t <;> exact nofun

/-- Neither value of a separated pair is zero. -/
theorem Separates.ne_zero (h : Separates p q) :
    (p == 0) = false ∧ (q == 0) = false := by
  have hne : ∀ {x : Float}, (x == 0) = true →
      x.isNaN = false ∧ ∀ t, ¬ HasSign t x.toModel.unpack := by
    intro x hx
    obtain ⟨t', ht'⟩ := exists_unpack_eq_zero hx
    constructor
    · rw [Bool.eq_false_iff, Ne, isNaN_iff_unpack_eq, ht']
      exact nofun
    · intro t ht
      rw [ht'] at ht
      cases ht
  obtain ⟨t, hp, hq⟩ := separates_iff_hasSign.mp h
  constructor
  · rw [Bool.eq_false_iff]
    exact fun hzero => (hne hzero).2 t hp
  · rw [Bool.eq_false_iff]
    intro hzero
    obtain ⟨hdefined, hsign⟩ := hne hzero
    rcases hq with hq | hq
    · rw [hq] at hdefined
      cases hdefined
    · exact hsign _ hq

/-- A value in between keeps one of its sides separated from the other. -/
theorem Separates.of_middle {r : Float} (h : Separates p q)
    (hr : (r == 0) = false) :
    if Scalar.sameSign r p then Separates r q else Separates p r := by
  obtain ⟨t, hp, hq⟩ := separates_iff_hasSign.mp h
  rcases isNaN_or_beq_zero_or_hasSign r with hundefined | hzero | ⟨t', hr'⟩
  · rw [sameSign_of_isNaN hundefined, if_neg Bool.false_ne_true]
    exact ⟨h.left, .inl hundefined⟩
  · rw [hzero] at hr
    cases hr
  · by_cases hsame : t' = t
    · subst hsame
      rw [if_pos ((hr'.sameSign_iff hp).mpr rfl)]
      exact separates_iff_hasSign.mpr ⟨t', hr', hq⟩
    · rw [if_neg (mt (hr'.sameSign_iff hp).mp hsame)]
      have hopposite : t' = -t := by
        cases t' <;> cases t <;> first | rfl | exact absurd rfl hsame
      exact separates_iff_hasSign.mpr ⟨t, hp, .inr (hopposite ▸ hr')⟩

/-! ### One halving -/

theorem of_halve_eq_step (hround : halve f tolerance s = .step entry next) :
    (f s.middle == 0) = false ∧
      next = if Scalar.sameSign (f s.middle) s.fa then
        { s with a := s.middle, fa := f s.middle }
        else { s with b := s.middle, fb := f s.middle } := by
  rw [halve] at hround
  split at hround
  · dsimp only at hround
    split at hround
    · cases hround
    · rename_i hroot
      refine ⟨Bool.eq_false_iff.mpr hroot, ?_⟩
      split at hround
      · rename_i hsame
        rw [if_pos hsame]
        exact (Round.step.inj hround).2.symm
      · rename_i hsame
        rw [if_neg hsame]
        exact (Round.step.inj hround).2.symm
  · cases hround

theorem of_halve_eq_last (hround : halve f tolerance s = .last entry next) :
    (f s.middle == 0) = true ∧ next =
      { s with a := s.middle, b := s.middle } := by
  rw [halve] at hround
  split at hround
  · dsimp only at hround
    split at hround
    · rename_i hroot
      exact ⟨hroot, (Round.last.inj hround).2.symm⟩
    · split at hround <;> cases hround
  · cases hround

/-! ### The ends -/

theorem Unbounded.middle_eq (h : Unbounded s) :
    s.middle = s.a ∨ s.middle = s.b := by
  obtain ⟨t, ⟨ha, hb⟩ | ⟨hb, ha⟩⟩ := h
  · exact .inl (middle_of_infinite ha (.inl hb)).1
  · exact .inr (middle_of_infinite hb (.inl ha)).2

theorem Unbounded.width_eq (h : Unbounded s) : s.width = Scalar.infinity := by
  obtain ⟨t, ⟨ha, hb⟩ | ⟨hb, ha⟩⟩ := h
  · obtain ⟨-, t', ht'⟩ := exists_unpack_sub_of_infinite ha hb
    exact abs_of_infinite ht'
  · obtain ⟨⟨t', ht'⟩, -⟩ := exists_unpack_sub_of_infinite hb ha
    exact abs_of_infinite ht'

/-- A root in the middle is found only while both ends are finite. -/
theorem KeepsSigns.subBracket_of_root (h : KeepsSigns f a b s)
    (hroot : (f s.middle == 0) = true) : SubBracket a b s.a s.b := by
  obtain ⟨hfa, hfb⟩ := h.separates.ne_zero
  rw [h.fa_eq] at hfa
  rw [h.fb_eq] at hfb
  refine h.placed.resolve_right ?_
  intro hunbounded
  rcases hunbounded.middle_eq with hend | hend
  · rw [hend, hfa] at hroot
    cases hroot
  · rw [hend, hfb] at hroot
    cases hroot

/-- A bracket narrower than a finite tolerance has finite ends. -/
theorem KeepsSigns.subBracket_of_narrow (h : KeepsSigns f a b s)
    (htolerance : tolerance.isFinite = true) (hnarrow : ¬ tolerance ≤ s.width) :
    SubBracket a b s.a s.b := by
  refine h.placed.resolve_right ?_
  intro hunbounded
  rw [hunbounded.width_eq] at hnarrow
  exact hnarrow (le_of_lt (lt_infinity htolerance))

section Ends

variable (ha : a.isFinite = true) (hb : b.isFinite = true)
include ha hb

theorem isFinite_orderedEnds :
    (orderedEnds a b).1.isFinite = true ∧
    (orderedEnds a b).2.isFinite = true := by
  rcases orderedEnds_cases a b with h | h
  · rw [h]
    exact ⟨ha, hb⟩
  · rw [h]
    exact ⟨hb, ha⟩

theorem Inside.isFinite {x : Float} (h : Inside a b x) : x.isFinite = true := by
  obtain ⟨hlow, hhigh⟩ := isFinite_orderedEnds ha hb
  exact isFinite_of_le_of_le hlow hhigh h.low_le h.le_high

theorem Inside.of_le_of_le {u v x : Float} (hu : Inside a b u)
    (hv : Inside a b v) (hux : u ≤ x) (hxv : x ≤ v) : Inside a b x := by
  obtain ⟨hlow, hhigh⟩ := isFinite_orderedEnds ha hb
  have hx : x.isFinite = true :=
    isFinite_of_le_of_le (hu.isFinite ha hb) (hv.isFinite ha hb) hux hxv
  exact ⟨le_trans_of_isFinite hlow hx hu.low_le hux,
    le_trans_of_isFinite hx hhigh hxv hv.le_high⟩

theorem SubBracket.middle {u v : Float} (h : SubBracket a b u v)
    (hsum : (u + v).isFinite = true) :
    SubBracket a b u ((u + v) / 2.0) ∧ SubBracket a b ((u + v) / 2.0) v := by
  obtain ⟨hlower, hupper⟩ :=
    le_middle (h.left.isFinite ha hb) (h.right.isFinite ha hb) h.le hsum
  have hmiddle : Inside a b ((u + v) / 2.0) :=
    .of_le_of_le ha hb h.left h.right hlower hupper
  exact ⟨⟨h.left, hmiddle, hlower⟩, ⟨hmiddle, h.right, hupper⟩⟩

/-- The midpoint splits an interval unless it is infinite. -/
theorem SubBracket.middle_cases (h : SubBracket a b s.a s.b) :
    SubBracket a b s.a s.middle ∧ SubBracket a b s.middle s.b ∨
      ∃ t, s.middle.toModel.unpack = .infinity t := by
  have hdefined :=
    isNaN_add_of_isFinite (h.left.isFinite ha hb) (h.right.isFinite ha hb)
  rcases isFinite_or_unpack_eq hdefined with hsum | ⟨t, ht⟩
  · exact .inl (h.middle ha hb hsum)
  · exact .inr ⟨t, unpack_half_of_infinite ht⟩

/-- Halving keeps what holds of a bracket. -/
theorem KeepsSigns.of_step (h : KeepsSigns f a b s)
    (hround : halve f tolerance s = .step entry next) :
    KeepsSigns f a b next := by
  obtain ⟨hroot, hnext⟩ := of_halve_eq_step hround
  have hmiddle := h.separates.of_middle hroot
  by_cases hsame : Scalar.sameSign (f s.middle) s.fa = true
  · rw [if_pos hsame] at hnext hmiddle
    subst hnext
    refine ⟨rfl, h.fb_eq, hmiddle, ?_⟩
    rcases h.placed with hsub | ⟨t, ⟨ha', hb'⟩ | ⟨hb', ha'⟩⟩
    · rcases hsub.middle_cases ha hb with ⟨-, hright⟩ | ⟨t, ht⟩
      · exact .inl hright
      · exact .inr ⟨t, .inl ⟨ht, hsub.right.isFinite ha hb⟩⟩
    · have hend : s.middle = s.a := (middle_of_infinite ha' (.inl hb')).1
      exact .inr ⟨t, .inl ⟨hend ▸ ha', hb'⟩⟩
    · have hend : s.middle = s.b := (middle_of_infinite hb' (.inl ha')).2
      rw [hend, ← h.fb_eq, h.separates.sameSign_right] at hsame
      cases hsame
  · rw [if_neg hsame] at hnext hmiddle
    subst hnext
    refine ⟨h.fa_eq, rfl, hmiddle, ?_⟩
    rcases h.placed with hsub | ⟨t, ⟨ha', hb'⟩ | ⟨hb', ha'⟩⟩
    · rcases hsub.middle_cases ha hb with ⟨hleft, -⟩ | ⟨t, ht⟩
      · exact .inl hleft
      · exact .inr ⟨t, .inr ⟨ht, hsub.left.isFinite ha hb⟩⟩
    · have hend : s.middle = s.a := (middle_of_infinite ha' (.inl hb')).1
      rw [hend, ← h.fa_eq, h.separates.sameSign_left] at hsame
      exact absurd rfl hsame
    · have hend : s.middle = s.b := (middle_of_infinite hb' (.inl ha')).2
      exact .inr ⟨t, .inr ⟨hend ▸ hb', ha'⟩⟩

/-- What holds of the first bracket holds of every bracket that steps
lead to. -/
theorem KeepsSigns.of_steps {start : Bracket Float} (h : KeepsSigns f a b start)
    {made : List (HalfDivisionStep Float)}
    (hsteps : Steps (halve f tolerance) start made s) :
    KeepsSigns f a b s := by
  induction hsteps with
  | refl => exact h
  | snoc _ hround ih => exact ih.of_step ha hb hround

theorem SubBracket.width (h : SubBracket a b s.a s.b)
    (htolerance : tolerance.isFinite = true) (hnarrow : ¬ tolerance ≤ s.width) :
    (s.b - s.a == s.width) = true ∧ s.width < tolerance := by
  have hleft := h.left.isFinite ha hb
  have hright := h.right.isFinite ha hb
  have hfinite : (s.b - s.a).isFinite = true := by
    refine (isFinite_or_unpack_eq
      (isNaN_sub_of_isFinite hright hleft)).resolve_right ?_
    rintro ⟨t, ht⟩
    have hwidth : s.width = Scalar.infinity := abs_of_infinite ht
    rw [hwidth] at hnarrow
    exact hnarrow (le_of_lt (lt_infinity htolerance))
  have hwidth : s.width.isFinite = true := isFinite_abs hfinite
  have hnonneg : 0 ≤ value (s.b - s.a) := by
    have hle := (le_iff_value_le hleft hright).mp h.le
    rw [(rounds_sub hright hleft).value_eq hfinite]
    exact nearest_nonneg (sub_nonneg.mpr hle)
  constructor
  · have hvalue : value s.width = |value (s.b - s.a)| := value_abs hfinite
    rw [beq_iff_value_eq hfinite hwidth, hvalue, abs_of_nonneg hnonneg]
  · by_contra hle
    exact hnarrow
      ((not_lt_iff_le (isNaN_of_isFinite htolerance)
        (isNaN_of_isFinite hwidth)).mp hle)

end Ends

end Halving

/-! ## The outcome -/

/-- A half-division found a root in the middle of an interval within the
bracket, or narrowed the bracket down to an interval whose ends the function
separates. -/
structure Finds (f : Float → Float) (a b tolerance : Float)
    (r : SolveResult Float) (u v : Float) : Prop where
  sub : SubBracket a b u v
  value_eq : r.value = (u + v) / 2.0
  found :
    (f r.value == 0) = true ∧ r.errorValue = (r.value - r.value).abs ∨
    Separates (f u) (f v) ∧ (v - u == r.errorValue) = true ∧
    r.errorValue < tolerance

section Outcome

variable {settings : RootSettings Float} {g : ScalarFunction Float}
  {f : Float → Float}
  {a b tolerance u v : Float} {r : SolveResult Float} (ha : a.isFinite = true)
  (hb : b.isFinite = true)
include ha hb

theorem keepsSigns_firstBracket
    (hsign : OppositeSigns (firstBracket g a b).fa (firstBracket g a b).fb) :
    KeepsSigns g.evaluate a b (firstBracket g a b) where
  fa_eq := rfl
  fb_eq := rfl
  separates := ⟨hsign.imp And.left And.left, .inr hsign⟩
  placed := by
    obtain ⟨hlow, hhigh⟩ := isFinite_orderedEnds ha hb
    have hle := orderedEnds_le ha hb
    have hlow' := (le_iff_value_le hlow hlow).mpr le_rfl
    have hhigh' := (le_iff_value_le hhigh hhigh).mpr le_rfl
    exact .inl ⟨⟨hlow', hle⟩, ⟨hle, hhigh'⟩, hle⟩

theorem exists_finds_of_iterate_eq_ok (htolerance : tolerance.isFinite = true)
    (hsign : OppositeSigns (firstBracket g a b).fa (firstBracket g a b).fb)
    {run : Run (HalfDivisionStep Float) (Bracket Float)}
    (hrun : iterate (halve g.evaluate tolerance) settings.maxIterations
      (firstBracket g a b) =
      .ok run)
    (hnarrow : ¬ tolerance ≤ run.state.width) :
    ∃ u v, Finds g.evaluate a b tolerance
      (halfDivisionResult settings g tolerance run) u v := by
  obtain ⟨made, s, hsteps, hending⟩ := exists_steps_of_iterate_eq_ok hrun
  have hkeeps : KeepsSigns g.evaluate a b s :=
    (keepsSigns_firstBracket ha hb hsign).of_steps ha hb hsteps
  have hleft : ¬ tolerance ≤ s.width → run.state = s →
      ∃ u v, Finds g.evaluate a b tolerance
        (halfDivisionResult settings g tolerance run) u v := by
    intro hnarrow hstate
    have hsub := hkeeps.subBracket_of_narrow htolerance hnarrow
    obtain ⟨hwidth, hlt⟩ := hsub.width ha hb htolerance hnarrow
    have hseparates := hkeeps.separates
    rw [hkeeps.fa_eq, hkeeps.fb_eq] at hseparates
    rw [← hstate] at hsub hwidth hlt hseparates
    exact ⟨run.state.a, run.state.b, hsub, rfl, .inr ⟨hseparates, hwidth, hlt⟩⟩
  cases hending with
  | capped _ => exact hleft hnarrow rfl
  | halted _ _ => exact hleft hnarrow rfl
  | settled _ hround =>
      obtain ⟨hroot, rfl⟩ := of_halve_eq_last hround
      have hsub := hkeeps.subBracket_of_root hroot
      have hself : (s.middle + s.middle) / 2.0 = s.middle :=
        middle_self (hsub.left.isFinite ha hb) (hsub.right.isFinite ha hb) rfl
      refine ⟨s.a, s.b, hsub, hself, .inl ⟨?_, ?_⟩⟩
      · have hvalue : g.evaluate ((s.middle + s.middle) / 2.0) == 0 := by
          rwa [hself]
        exact hvalue
      · have hwidth : (s.middle - s.middle).abs =
            ((s.middle + s.middle) / 2.0 -
              (s.middle + s.middle) / 2.0).abs := by rw [hself]
        exact hwidth

theorem Finds.value_cases (h : Finds f a b tolerance r u v) :
    ((u + v).isFinite = true → u ≤ r.value ∧ r.value ≤ v) ∧
      ((u + v).isFinite = false → r.value.isFinite = false) := by
  rw [h.value_eq]
  constructor
  · exact le_middle (h.sub.left.isFinite ha hb)
      (h.sub.right.isFinite ha hb) h.sub.le
  · exact isFinite_div_of_left

/-- The signs are opposite, and the error is below the tolerance, where the
function is defined on the whole bracket and sums of its points are finite. -/
theorem Finds.oppositeSigns (h : Finds f a b tolerance r u v)
    (htolerance : Scalar.isPositiveFinite tolerance = true)
    (hdefined : ∀ x, Inside a b x → (f x).isNaN = false)
    (hdouble : (a + a).isFinite = true) (hdouble' : (b + b).isFinite = true) :
    r.errorValue < tolerance ∧ u ≤ r.value ∧ r.value ≤ v ∧
      ((f r.value == 0) = true ∨ (v - u == r.errorValue) = true ∧
        OppositeSigns (f u) (f v)) := by
  have hsum : (u + v).isFinite = true := by
    have hleft : (orderedEnds a b).1 ≤ u ∧ u ≤ (orderedEnds a b).2 :=
      ⟨h.sub.left.low_le, h.sub.left.le_high⟩
    have hright : (orderedEnds a b).1 ≤ v ∧ v ≤ (orderedEnds a b).2 :=
      ⟨h.sub.right.low_le, h.sub.right.le_high⟩
    rcases orderedEnds_cases a b with hends | hends
    · rw [hends] at hleft hright
      exact isFinite_add_of_le_of_le hdouble hdouble' hleft hright
    · rw [hends] at hleft hright
      exact isFinite_add_of_le_of_le hdouble' hdouble hleft hright
  obtain ⟨hlower, hupper⟩ := (h.value_cases ha hb).1 hsum
  rcases h.found with ⟨hroot, herror⟩ | ⟨hseparates, hwidth, hlt⟩
  · have hvalue : r.value.isFinite = true :=
      isFinite_of_le_of_le (h.sub.left.isFinite ha hb)
        (h.sub.right.isFinite ha hb) hlower hupper
    have hzero : value (r.value - r.value) = 0 ∧
        (r.value - r.value).isFinite = true := by
      have hrounds := rounds_sub hvalue hvalue
      rw [sub_self] at hrounds
      have hfinite : (r.value - r.value).isFinite = true := by
        rw [hrounds.isFinite_iff, nearest_zero, abs_zero]
        positivity
      exact ⟨by rw [hrounds.value_eq hfinite, nearest_zero], hfinite⟩
    have hpositive := isPositiveFinite_iff.mp htolerance
    refine ⟨?_, hlower, hupper, .inl hroot⟩
    rw [herror, lt_iff_value_lt (isFinite_abs hzero.2) hpositive.2,
      value_abs hzero.2, hzero.1, abs_zero]
    exact (lt_iff_value_lt rfl hpositive.2).mp hpositive.1
  · refine ⟨hlt, hlower, hupper, .inr ⟨hwidth, ?_⟩⟩
    refine hseparates.right.resolve_left ?_
    rw [hdefined v h.sub.right]
    exact Bool.false_ne_true

end Outcome

/-- A half-division that ends without a warning found a point halfway between
two points of the bracket, or an infinite one where their sum is too large.
Either the function vanishes there, or the two points are less than the
tolerance apart, the function has a sign at the left one, and at the right one
it has the opposite sign or is undefined.  The signs are opposite if the
function is defined on the whole bracket, and nothing is infinite if the ends
can be doubled. -/
theorem halfDivision_settles
    {settings : RootSettings Float} {f : ScalarFunction Float}
    {a b tolerance : Float} {r : SolveResult Float}
    (hr : solve settings .halfDivision f (.bracket a b) tolerance = .ok r)
    (hwarnings : r.warnings = []) :
    (∃ u v, Finds f.evaluate a b tolerance r u v ∧
      ((u + v).isFinite = true → u ≤ r.value ∧ r.value ≤ v) ∧
      ((u + v).isFinite = false → r.value.isFinite = false)) ∧
    ((∀ x, Inside a b x → (f.evaluate x).isNaN = false) →
      (a + a).isFinite = true → (b + b).isFinite = true →
      r.errorValue < tolerance ∧
        ((f.evaluate r.value == 0) = true ∨
          ∃ u v, u ≤ r.value ∧ r.value ≤ v ∧ (v - u == r.errorValue) = true ∧
            OppositeSigns (f.evaluate u) (f.evaluate v))) := by
  rw [solve] at hr
  split at hr
  · cases hr
  · rename_i hpositive
    split at hr
    · cases hr
    · rename_i hstart
      rw [Bool.not_eq_true', Bool.not_eq_false] at hpositive hstart
      obtain ⟨ha, hb⟩ : a.isFinite = true ∧ b.isFinite = true :=
        Bool.and_eq_true_iff.mp hstart
      obtain ⟨-, htolerance⟩ := isPositiveFinite_iff.mp hpositive
      rw [run, halfDivision_firstBracket] at hr
      split at hr
      · rename_i hsign
        obtain ⟨run, hrun, rfl⟩ := ofIteration_eq_ok_iff.mp hr
        have hnarrow : ¬ tolerance ≤ run.state.width := by
          intro hwide
          have hcap : capWarning settings
              (!decide (tolerance ≤ run.state.width)) = [] := hwarnings
          rw [decide_eq_true hwide] at hcap
          cases hcap
        obtain ⟨u, v, hfinds⟩ := exists_finds_of_iterate_eq_ok ha hb htolerance
          (mul_lt_zero_iff.mp hsign).1 hrun hnarrow
        refine ⟨⟨u, v, hfinds, hfinds.value_cases ha hb⟩, ?_⟩
        intro hdefined hdouble hdouble'
        obtain ⟨hlt, hlower, hupper, hfound⟩ :=
          hfinds.oppositeSigns ha hb hpositive hdefined hdouble hdouble'
        refine ⟨hlt, hfound.imp id ?_⟩
        rintro ⟨hwidth, hopposite⟩
        exact ⟨u, v, hlower, hupper, hwidth, hopposite⟩
      · cases hr

/-- The identity with its sign turned, undefined at one point. -/
def turnedIdentity : ScalarFunction Float where
  evaluate x := 0 / (x + 2) - x

/-- A line that crosses zero between two binary numbers. -/
def shiftedLine : ScalarFunction Float where
  evaluate x := x - 0.3

theorem isNaN_shiftedLine {x : Float} (hx : x.isFinite = true) :
    (shiftedLine.evaluate x).isNaN = false :=
  isNaN_sub_of_isFinite hx rfl

theorem halfDivision_settles_turnedIdentity :
    (∃ r, solve ⟨100, 1e-12, 1e-15, 1e12⟩ .halfDivision turnedIdentity
        (.bracket (-5) 1) 0.5 = .ok r ∧
      r.warnings = [] ∧ r.value = -2.1875 ∧ r.errorValue = 0.375 ∧
      ∃ u v, Finds turnedIdentity.evaluate (-5) 1 0.5 r u v) ∧
    ∃ r, solve ⟨100, 1e-12, 1e-15, 1e12⟩ .halfDivision shiftedLine
        (.bracket 1 0) 0.5 = .ok r ∧
      r.warnings = [] ∧ r.errorValue < 0.5 ∧
      ((shiftedLine.evaluate r.value == 0) = true ∨
        ∃ u v, u ≤ r.value ∧ r.value ≤ v ∧ (v - u == r.errorValue) = true ∧
          OppositeSigns (shiftedLine.evaluate u) (shiftedLine.evaluate v)) := by
  constructor
  · have hrun : (solve ⟨100, 1e-12, 1e-15, 1e12⟩ .halfDivision turnedIdentity
        (.bracket (-5) 1) 0.5).toOption.map
          (fun r => (r.warnings, r.value, r.errorValue)) =
          some ([], -2.1875, 0.375) := by decide +kernel
    obtain ⟨r, hr, hend⟩ := exists_eq_ok_of_map_eq_some hrun
    simp only [Prod.mk.injEq] at hend
    obtain ⟨hwarnings, hvalue, herror⟩ := hend
    obtain ⟨⟨u, v, hfinds, -⟩, -⟩ := halfDivision_settles hr hwarnings
    exact ⟨r, hr, hwarnings, hvalue, herror, u, v, hfinds⟩
  · have hrun : (solve ⟨100, 1e-12, 1e-15, 1e12⟩ .halfDivision shiftedLine
        (.bracket 1 0) 0.5).toOption.map SolveResult.warnings =
          some [] := by decide +kernel
    obtain ⟨r, hr, hwarnings⟩ := exists_eq_ok_of_map_eq_some hrun
    obtain ⟨-, hclaim⟩ := halfDivision_settles hr hwarnings
    have hdefined : ∀ x, Inside 1 0 x →
        (shiftedLine.evaluate x).isNaN = false :=
      fun x hx => isNaN_shiftedLine (hx.isFinite rfl rfl)
    exact ⟨r, hr, hwarnings, hclaim hdefined rfl rfl⟩

end RootFinding
end NumericalMethods
