import Mathlib.Algebra.BigOperators.Group.List.Basic
import NumericalMethods.Proofs.Binary64.SquareRoot
import NumericalMethods.Proofs.LinearSystem.Elimination

/-!
# Rows scaled by powers of two

When every row of a matrix is multiplied by its own power of two, the norm of
a row is multiplied by the power of that row, and the determinant by all of
them.  Rounded arithmetic follows exactly, as long as no product leaves the
range of the normal numbers and the elimination chooses the same pivots.
Pivots are compared by magnitude, so a power that all rows have in common does
not change them.
-/

namespace NumericalMethods

open Binary64

/-! ## Lists that are related entry by entry -/

/-- Three lists of the same length, related entry by entry. -/
inductive Forall₃ {α β γ : Type} (R : α → β → γ → Prop) :
    List α → List β → List γ → Prop
  | nil : Forall₃ R [] [] []
  | cons {a : α} {b : β} {c : γ} {as : List α} {bs : List β} {cs : List γ}
      (head : R a b c) (tail : Forall₃ R as bs cs) :
      Forall₃ R (a :: as) (b :: bs) (c :: cs)

namespace Forall₃

variable {α β γ β' γ' : Type} {R : α → β → γ → Prop}
variable {as : List α} {bs : List β} {cs : List γ}

theorem length_eq (h : Forall₃ R as bs cs) :
    as.length = bs.length ∧ as.length = cs.length := by
  induction h with
  | nil => exact ⟨rfl, rfl⟩
  | cons _ _ ih => simpa using ih

theorem map {S : α → β' → γ' → Prop} {f : β → β'} {g : γ → γ'}
    (h : Forall₃ R as bs cs)
    (himage : ∀ a, ∀ b ∈ bs, ∀ c ∈ cs, R a b c → S a (f b) (g c)) :
    Forall₃ S as (bs.map f) (cs.map g) := by
  induction h with
  | nil => exact .nil
  | cons head _ ih =>
      refine .cons
        (himage _ _ List.mem_cons_self _ List.mem_cons_self head) (ih ?_)
      exact fun a b hb c hc =>
        himage a b (List.mem_cons_of_mem _ hb) c (List.mem_cons_of_mem _ hc)

theorem getElem (h : Forall₃ R as bs cs) {i : ℕ} (ha : i < as.length)
    (hb : i < bs.length) (hc : i < cs.length) : R as[i] bs[i] cs[i] := by
  induction h generalizing i with
  | nil => exact absurd ha (Nat.not_lt_zero i)
  | cons head _ ih =>
      cases i with
      | zero => exact head
      | succ i => exact ih _ _ _

theorem set (h : Forall₃ R as bs cs) {a : α} {b : β} {c : γ}
    (hnew : R a b c) (i : ℕ) :
    Forall₃ R (as.set i a) (bs.set i b) (cs.set i c) := by
  induction h generalizing i with
  | nil => exact .nil
  | cons head tail ih =>
      cases i with
      | zero => exact .cons hnew tail
      | succ i => exact .cons head (ih i)

theorem ofFn {n : ℕ} {f : Fin n → α} {g : Fin n → β} {h : Fin n → γ}
    (hrelated : ∀ i, R (f i) (g i) (h i)) :
    Forall₃ R (List.ofFn f) (List.ofFn g) (List.ofFn h) := by
  induction n with
  | zero => exact .nil
  | succ n ih =>
      rw [List.ofFn_succ, List.ofFn_succ, List.ofFn_succ]
      exact .cons (hrelated 0) (ih fun i => hrelated i.succ)

end Forall₃

/-- A row whose entries are those of another times `2 ^ k`. -/
def RowScaled (k : ℤ) (row row' : List Float) : Prop :=
  List.Forall₂ (IsScaled k) row row'

/-! ## Norms and products -/

section Norm

variable {k : ℤ} {row row' : List Float}

/-- The squares and the norm of a row stay in the range of the normal
numbers. -/
structure NormKept (row : List Float) : Prop where
  squares : ∀ x ∈ row, ProductKept x x
  isFinite : (row.foldl (fun acc x => acc + x * x) 0).isFinite = true

instance (row : List Float) : Decidable (NormKept row) :=
  decidable_of_iff ((∀ x ∈ row, ProductKept x x) ∧
      (row.foldl (fun acc x => acc + x * x) 0).isFinite = true)
    ⟨fun h => ⟨h.1, h.2⟩, fun h => ⟨h.1, h.2⟩⟩

theorem isFinite_of_isFinite_foldl_add {f : Float → Float} {xs : List Float}
    {acc : Float}
    (h : (xs.foldl (fun acc x => acc + f x) acc).isFinite = true) :
    acc.isFinite = true := by
  induction xs generalizing acc with
  | nil => exact h
  | cons x xs ih => exact (isFinite_of_isFinite_add (ih h)).1

/-- A square multiplies its power of two by itself, and is not negative. -/
theorem RowScaled.foldl_squares (hrow : RowScaled k row row') {acc acc' : Float}
    (hacc : IsScaled (2 * k) acc acc') (hnonneg : 0 ≤ value acc)
    (hsquares : ∀ x ∈ row, ProductKept x x)
    (hsquares' : ∀ x ∈ row', ProductKept x x)
    (hfinite : (row.foldl (fun acc x => acc + x * x) acc).isFinite = true)
    (hfinite' : (row'.foldl (fun acc x => acc + x * x) acc').isFinite = true) :
    IsScaled (2 * k) (row.foldl (fun acc x => acc + x * x) acc)
        (row'.foldl (fun acc x => acc + x * x) acc') ∧
      0 ≤ value (row.foldl (fun acc x => acc + x * x) acc) := by
  induction hrow generalizing acc acc' with
  | nil => exact ⟨hacc, hnonneg⟩
  | @cons x x' row row' hx _ ih =>
      have hkept := hsquares x List.mem_cons_self
      have hkept' := hsquares' x' List.mem_cons_self
      rw [List.foldl_cons] at hfinite hfinite' ⊢
      have hsum := isFinite_of_isFinite_foldl_add (f := fun x => x * x) hfinite
      have hsum' :=
        isFinite_of_isFinite_foldl_add (f := fun x => x * x) hfinite'
      have hsquare : IsScaled (2 * k) (x * x) (x' * x') :=
        two_mul k ▸ hx.mul hx hkept hkept'
      refine ih (hacc.add hsquare hsum hsum') ?_
        (fun y hy => hsquares y (List.mem_cons_of_mem _ hy))
        (fun y hy => hsquares' y (List.mem_cons_of_mem _ hy)) hfinite hfinite'
      rw [(rounds_add hacc.1 hsquare.1).value_eq hsum,
        (rounds_mul hx.1 hx.1).value_eq hkept.isFinite]
      exact nearest_nonneg
        (add_nonneg hnonneg (nearest_nonneg (mul_self_nonneg _)))

theorem RowScaled.norm (hrow : RowScaled k row row') (hkept : NormKept row)
    (hkept' : NormKept row') :
    IsScaled k (Scalar.norm row) (Scalar.norm row') := by
  have hzero : IsScaled (2 * k) 0 0 := ⟨rfl, rfl, by rw [value_zero, zero_mul]⟩
  obtain ⟨hsum, hnonneg⟩ := hrow.foldl_squares hzero value_zero.ge hkept.squares
    hkept'.squares hkept.isFinite hkept'.isFinite
  exact hsum.sqrt hnonneg

end Norm

section Product

/-- The products of a number with those of a list, one after the other, stay in
the range of the normal numbers. -/
def ProductsKept : Float → List Float → Prop
  | _, [] => True
  | acc, x :: xs => ProductKept acc x ∧ ProductsKept (acc * x) xs

instance decidableProductsKept : (acc : Float) → (xs : List Float) →
    Decidable (ProductsKept acc xs)
  | _, [] => .isTrue trivial
  | acc, x :: xs =>
    haveI := decidableProductsKept (acc * x) xs
    inferInstanceAs (Decidable (_ ∧ _))

theorem isScaled_foldl_mul {ks : List ℤ} {xs xs' : List Float}
    (h : Forall₃ IsScaled ks xs xs') {k : ℤ} {acc acc' : Float}
    (hacc : IsScaled k acc acc') (hkept : ProductsKept acc xs)
    (hkept' : ProductsKept acc' xs') :
    IsScaled (k + ks.sum) (xs.foldl (· * ·) acc) (xs'.foldl (· * ·) acc') := by
  induction h generalizing k acc acc' with
  | nil => rwa [List.sum_nil, add_zero]
  | cons head _ ih =>
      rw [List.sum_cons, ← add_assoc]
      exact ih (hacc.mul head hkept.1 hkept'.1) hkept.2 hkept'.2

/-- The powers of two of a product are multiplied. -/
theorem isScaled_product {ks : List ℤ} {xs xs' : List Float}
    (h : Forall₃ IsScaled ks xs xs') (hkept : ProductsKept 1 xs)
    (hkept' : ProductsKept 1 xs') :
    IsScaled ks.sum (Scalar.product xs) (Scalar.product xs') := by
  have hproduct :=
    isScaled_foldl_mul h (isScaled_refl (x := 1) rfl) hkept hkept'
  rwa [zero_add] at hproduct

end Product

namespace Elimination

/-! ## One step of the elimination -/

section Step

variable {k l : ℤ} {ks : List ℤ}
  {row row' pivot pivot' first first' : List Float}
variable {rest rest' : List (List Float)}

/-- Taking a multiple of the pivot row from a row stays in the range of the
normal numbers. -/
structure EliminateKept (pivotTail : List Float) (reciprocal : Float)
    (row : List Float) : Prop where
  multiplier : ProductKept (lead row) reciprocal
  multiple : ∀ p ∈ pivotTail, ProductKept (-p) (lead row * reciprocal)
  isFinite : ∀ a ∈ eliminate pivotTail reciprocal row, a.isFinite = true

instance (pivotTail : List Float) (reciprocal : Float) (row : List Float) :
    Decidable (EliminateKept pivotTail reciprocal row) :=
  decidable_of_iff (ProductKept (lead row) reciprocal ∧
      (∀ p ∈ pivotTail, ProductKept (-p) (lead row * reciprocal)) ∧
      ∀ a ∈ eliminate pivotTail reciprocal row, a.isFinite = true)
    ⟨fun h => ⟨h.1, h.2.1, h.2.2⟩, fun h => ⟨h.1, h.2, h.3⟩⟩

theorem isScaled_lead (hrow : RowScaled k row row') :
    IsScaled k (lead row) (lead row') := by
  cases hrow with
  | nil => exact ⟨rfl, rfl, by simp [lead, value_zero]⟩
  | cons hx _ => exact hx

theorem rowScaled_tail (hrow : RowScaled k row row') :
    RowScaled k row.tail row'.tail := by
  cases hrow with
  | nil => exact .nil
  | cons _ htail => exact htail

/-- A row keeps its power of two when a multiple of another one is taken
from it. -/
theorem rowScaled_zipWith {m m' : Float} (hm : IsScaled (k - l) m m')
    (hpivot : RowScaled l pivot pivot') (hrow : RowScaled k row row')
    (hmultiple : ∀ p ∈ pivot, ProductKept (-p) m)
    (hmultiple' : ∀ p ∈ pivot', ProductKept (-p) m')
    (hfinite : ∀ a ∈ List.zipWith (fun p a => -p * m + a) pivot row,
      a.isFinite = true)
    (hfinite' : ∀ a ∈ List.zipWith (fun p a => -p * m' + a) pivot' row',
      a.isFinite = true) :
    RowScaled k (List.zipWith (fun p a => -p * m + a) pivot row)
      (List.zipWith (fun p a => -p * m' + a) pivot' row') := by
  induction hpivot generalizing row row' with
  | nil => exact .nil
  | @cons p p' pivot pivot' hp _ ih =>
      cases hrow with
      | nil => exact .nil
      | @cons a a' row row' ha hrow =>
          rw [List.zipWith_cons_cons] at hfinite hfinite' ⊢
          rw [List.zipWith_cons_cons]
          have hproduct : IsScaled k (-p * m) (-p' * m') := by
            have := hp.neg.mul hm (hmultiple p List.mem_cons_self)
              (hmultiple' p' List.mem_cons_self)
            rwa [add_sub_cancel] at this
          refine .cons (hproduct.add ha (hfinite _ List.mem_cons_self)
            (hfinite' _ List.mem_cons_self)) (ih hrow ?_ ?_ ?_ ?_)
          · exact fun q hq => hmultiple q (List.mem_cons_of_mem _ hq)
          · exact fun q hq => hmultiple' q (List.mem_cons_of_mem _ hq)
          · exact fun b hb => hfinite b (List.mem_cons_of_mem _ hb)
          · exact fun b hb => hfinite' b (List.mem_cons_of_mem _ hb)

theorem rowScaled_eliminate (hpivot : RowScaled l pivot pivot') {r r' : Float}
    (hreciprocal : IsScaled (-l) r r') (hrow : RowScaled k row row')
    (hkept : EliminateKept pivot.tail r row)
    (hkept' : EliminateKept pivot'.tail r' row') :
    RowScaled k (eliminate pivot.tail r row)
      (eliminate pivot'.tail r' row') := by
  have hmultiplier :=
    (isScaled_lead hrow).mul hreciprocal hkept.multiplier hkept'.multiplier
  rw [← sub_eq_add_neg] at hmultiplier
  exact rowScaled_zipWith hmultiplier (rowScaled_tail hpivot)
    (rowScaled_tail hrow)
    hkept.multiple hkept'.multiple hkept.isFinite hkept'.isFinite

/-- The rows of two matrices change places alike. -/
theorem exists_scaled_exchange
    (h : Forall₃ RowScaled (k :: ks) (first :: rest) (first' :: rest'))
    (hindex : pivotIndex (Scalar.abs (lead first)) rest =
      pivotIndex (Scalar.abs (lead first')) rest') :
    ∃ l ls, (l :: ls).Perm (k :: ks) ∧
      RowScaled l (pivotRow first rest) (pivotRow first' rest') ∧
      Forall₃ RowScaled ls (otherRows first rest) (otherRows first' rest') := by
  cases h with
  | cons hfirst hrest =>
      obtain ⟨hlength, hlength'⟩ := hrest.length_eq
      have hle := pivotIndex_le_length (Scalar.abs (lead first)) rest
      simp only [pivotRow, otherRows, ← hindex]
      by_cases hk : pivotIndex (Scalar.abs (lead first)) rest = 0
      · simp only [hk, bne_self_eq_false, Bool.false_eq_true, if_false]
        exact ⟨k, ks, .refl _, hfirst, hrest⟩
      · have hlt : pivotIndex (Scalar.abs (lead first)) rest - 1 <
            ks.length := by omega
        simp only [bne_iff_ne, ne_eq, hk, not_false_eq_true, if_true,
          List.getD_eq_getElem _ _ (hlength ▸ hlt),
          List.getD_eq_getElem _ _ (hlength' ▸ hlt)]
        exact ⟨_, _, exchange_perm k hlt, hrest.getElem hlt _ _,
          hrest.set hfirst _⟩

/-- A step stays in the range of the normal numbers: without a pivot it computes
nothing. -/
def StepKept (first : List Float) (rest : List (List Float)) : Prop :=
  (lead (pivotRow first rest) == 0) = false →
    ReciprocalKept (lead (pivotRow first rest)) ∧
      ∀ row ∈ otherRows first rest,
        EliminateKept (pivotRow first rest).tail
          (1 / lead (pivotRow first rest)) row

instance (first : List Float) (rest : List (List Float)) :
    Decidable (StepKept first rest) :=
  inferInstanceAs (Decidable (_ → _))

/-- With the same pivots a step leaves every row its power of two. -/
theorem exists_scaled_step
    (h : Forall₃ RowScaled (k :: ks) (first :: rest) (first' :: rest'))
    (hindex : pivotIndex (Scalar.abs (lead first)) rest =
      pivotIndex (Scalar.abs (lead first')) rest')
    (hkept : StepKept first rest) (hkept' : StepKept first' rest') :
    ∃ l ls, (l :: ls).Perm (k :: ks) ∧
      IsScaled l (lead (pivotRow first rest)) (lead (pivotRow first' rest')) ∧
      Forall₃ RowScaled ls (reducedRows first rest)
        (reducedRows first' rest') := by
  obtain ⟨l, ls, hperm, hpivot, hothers⟩ := exists_scaled_exchange h hindex
  have hlead := isScaled_lead hpivot
  refine ⟨l, ls, hperm, hlead, ?_⟩
  have hsame := hlead.beq_zero
  simp only [reducedRows, hsame]
  cases hzero : lead (pivotRow first rest) == 0 with
  | true =>
      simp only [if_true]
      exact hothers.map fun _ _ _ _ _ hrow => rowScaled_tail hrow
  | false =>
      obtain ⟨hreciprocal, hrows⟩ := hkept hzero
      obtain ⟨hreciprocal', hrows'⟩ := hkept' (hsame.trans hzero)
      have hne : value (lead (pivotRow first rest)) ≠ 0 := by
        intro hvalue
        rw [← value_zero, ← beq_iff_value_eq hlead.1 rfl, hzero] at hvalue
        cases hvalue
      simp only [Bool.false_eq_true, if_false]
      exact hothers.map fun _ row hrow row' hrow' hscaled =>
        rowScaled_eliminate hpivot
          (hlead.reciprocal hne hreciprocal hreciprocal') hscaled
          (hrows row hrow) (hrows' row' hrow')

end Step

/-! ## The elimination -/

section Reduction

variable {ks : List ℤ} {rows rows' : List (List Float)}

/-- The elimination of `count` rows stays in the range of the normal numbers. -/
def ReductionKept : ℕ → List (List Float) → Prop
  | 0, _ => True
  | _ + 1, [] => True
  | count + 1, first :: rest =>
      StepKept first rest ∧ ReductionKept count (reducedRows first rest)

instance decidableReductionKept : (count : ℕ) → (rows : List (List Float)) →
    Decidable (ReductionKept count rows)
  | 0, _ => .isTrue trivial
  | _ + 1, [] => .isTrue trivial
  | count + 1, first :: rest =>
    haveI := decidableReductionKept count (reducedRows first rest)
    inferInstanceAs (Decidable (_ ∧ _))

/-- Where the elimination of `count` rows finds its pivots. -/
def pivotIndices : ℕ → List (List Float) → List ℕ
  | 0, _ => []
  | _ + 1, [] => []
  | count + 1, first :: rest =>
      pivotIndex (Scalar.abs (lead first)) rest ::
        pivotIndices count (reducedRows first rest)

/-- Each step takes out the pivot row with its power of two. -/
theorem exists_scaled_reduce (count : ℕ) (hcount : ks.length = count)
    (h : Forall₃ RowScaled ks rows rows')
    (hindices : pivotIndices count rows = pivotIndices count rows')
    (hkept : ReductionKept count rows) (hkept' : ReductionKept count rows') :
    ∃ ls, ls.Perm ks ∧
      Forall₃ IsScaled ls ((reduce count rows).rows.map lead)
        ((reduce count rows').rows.map lead) ∧
      (reduce count rows).odd = (reduce count rows').odd := by
  induction count generalizing ks rows rows' with
  | zero =>
      rw [List.length_eq_zero_iff] at hcount
      subst hcount
      exact ⟨[], .refl _, .nil, rfl⟩
  | succ count ih =>
      cases h with
      | nil => cases hcount
      | @cons k first first' ks rest rest' hfirst hrest =>
          obtain ⟨hindex, hindices⟩ := List.cons_eq_cons.mp hindices
          obtain ⟨l, ls, hperm, hlead, hreduced⟩ :=
            exists_scaled_step (.cons hfirst hrest) hindex hkept.1 hkept'.1
          have hlength : ls.length = count := by
            have := hperm.length_eq
            simp only [List.length_cons] at this hcount
            omega
          obtain ⟨ms, hms, hleads, hodd⟩ :=
            ih hlength hreduced hindices hkept.2 hkept'.2
          refine ⟨l :: ms, (hms.cons l).trans hperm, .cons hlead hleads, ?_⟩
          rw [odd_reduce_cons, odd_reduce_cons, hodd, hindex]

/-- Rows with a common power of two have their largest leading entry at the same
place. -/
theorem search_scaled {k : ℤ} (h : Forall₃ RowScaled ks rows rows')
    (hcommon : ∀ l ∈ ks, l = k) {best best' : Float}
    (hbest : IsScaled k best best') (i m : ℕ) :
    let select := fun (found : ℕ × Float) (entry : List Float × ℕ) =>
      let magnitude := Scalar.abs (lead entry.1)
      if found.2 < magnitude then (entry.2 + 1, magnitude) else found
    ((rows.zipIdx m).foldl select (i, best)).1 =
      ((rows'.zipIdx m).foldl select (i, best')).1 := by
  intro select
  induction h generalizing best best' i m with
  | nil => rfl
  | @cons l row row' ks rows rows' hrow _ ih =>
      have hcommon' : ∀ l ∈ ks, l = k :=
        fun l hl => hcommon l (List.mem_cons_of_mem _ hl)
      obtain rfl := hcommon l List.mem_cons_self
      have hmagnitude := (isScaled_lead hrow).abs
      rw [List.zipIdx_cons, List.zipIdx_cons, List.foldl_cons, List.foldl_cons]
      have hlarger := hbest.lt_iff hmagnitude
      by_cases hlt : best < (lead row).abs
      · have hselect : select (i, best) (row, m) = (m + 1, (lead row).abs) :=
          if_pos hlt
        have hselect' : select (i, best') (row', m) =
          (m + 1, (lead row').abs) :=
          if_pos (hlarger.mp hlt)
        rw [hselect, hselect']
        exact ih hcommon' hmagnitude (m + 1) (m + 1)
      · have hselect : select (i, best) (row, m) = (i, best) := if_neg hlt
        have hselect' : select (i, best') (row', m) = (i, best') :=
          if_neg (mt hlarger.mpr hlt)
        rw [hselect, hselect']
        exact ih hcommon' hbest i (m + 1)

/-- A common power of two does not change the pivots. -/
theorem pivotIndices_eq {k : ℤ} (count : ℕ)
    (h : Forall₃ RowScaled ks rows rows') (hcommon : ∀ l ∈ ks, l = k)
    (hkept : ReductionKept count rows) (hkept' : ReductionKept count rows') :
    pivotIndices count rows = pivotIndices count rows' := by
  induction count generalizing ks rows rows' with
  | zero => rfl
  | succ count ih =>
      cases h with
      | nil => rfl
      | @cons l first first' ks rest rest' hfirst hrest =>
          have hcommon' : ∀ l ∈ ks, l = k :=
            fun l hl => hcommon l (List.mem_cons_of_mem _ hl)
          have hindex : pivotIndex (Scalar.abs (lead first)) rest =
              pivotIndex (Scalar.abs (lead first')) rest' := by
            obtain rfl := hcommon l List.mem_cons_self
            exact search_scaled hrest hcommon' (isScaled_lead hfirst).abs 0 0
          obtain ⟨m, ms, hperm, -, hreduced⟩ :=
            exists_scaled_step (.cons hfirst hrest) hindex hkept.1 hkept'.1
          rw [pivotIndices, pivotIndices, hindex,
            ih hreduced
              (fun l hl => hcommon l (hperm.subset (List.mem_cons_of_mem _ hl)))
              hkept.2 hkept'.2]

end Reduction

/-! ## Determinants -/

section Determinant

variable {ks : List ℤ} {rows rows' : List (List Float)}

/-- A determinant of order two stays in the range of the normal numbers. -/
structure MinorKept (a b c d : Float) : Prop where
  diagonal : ProductKept a d
  other : ProductKept c b
  isFinite : (a * d - c * b).isFinite = true

theorem isScaled_minor {k l : ℤ} {a b c d a' b' c' d' : Float}
    (ha : IsScaled k a a') (hb : IsScaled k b b') (hc : IsScaled l c c')
    (hd : IsScaled l d d') (hkept : MinorKept a b c d)
    (hkept' : MinorKept a' b' c' d') :
    IsScaled (k + l) (a * d - c * b) (a' * d' - c' * b') := by
  have hother := hc.mul hb hkept.other hkept'.other
  rw [add_comm] at hother
  exact (ha.mul hd hkept.diagonal hkept'.diagonal).sub hother hkept.isFinite
    hkept'.isFinite

/-- An expansion of order three stays in the range of the normal numbers. -/
structure ExpansionKept (a b c d e f g h i : Float) : Prop where
  first : MinorKept e f h i
  second : MinorKept d f g i
  third : MinorKept d e g h
  firstTerm : ProductKept a (e * i - h * f)
  secondTerm : ProductKept b (d * i - g * f)
  thirdTerm : ProductKept c (d * h - g * e)
  isFinite :
    (a * (e * i - h * f) - b * (d * i - g * f) + c * (d * h - g * e)).isFinite =
      true

theorem isScaled_expansion {k l m : ℤ}
    {a b c d e f g h i a' b' c' d' e' f' g' h' i' : Float}
    (ha : IsScaled k a a') (hb : IsScaled k b b') (hc : IsScaled k c c')
    (hd : IsScaled l d d') (he : IsScaled l e e') (hf : IsScaled l f f')
    (hg : IsScaled m g g') (hh : IsScaled m h h') (hi : IsScaled m i i')
    (hkept : ExpansionKept a b c d e f g h i)
    (hkept' : ExpansionKept a' b' c' d' e' f' g' h' i') :
    IsScaled (k + (l + m))
      (a * (e * i - h * f) - b * (d * i - g * f) + c * (d * h - g * e))
      (a' * (e' * i' - h' * f') - b' * (d' * i' - g' * f') +
        c' * (d' * h' - g' * e')) := by
  have hfirst := ha.mul (isScaled_minor he hf hh hi hkept.first hkept'.first)
    hkept.firstTerm hkept'.firstTerm
  have hsecond := hb.mul (isScaled_minor hd hf hg hi hkept.second hkept'.second)
    hkept.secondTerm hkept'.secondTerm
  have hthird := hc.mul (isScaled_minor hd he hg hh hkept.third hkept'.third)
    hkept.thirdTerm hkept'.thirdTerm
  have hdifference :=
    hfirst.sub hsecond (isFinite_of_isFinite_add hkept.isFinite).1
    (isFinite_of_isFinite_add hkept'.isFinite).1
  exact hdifference.add hthird hkept.isFinite hkept'.isFinite

/-- The triangular form and the product of its diagonal stay in the range of the
normal numbers. -/
structure TriangularKept (rows : List (List Float)) : Prop where
  reduction : ReductionKept rows.length rows
  product : ProductsKept 1 ((reduce rows.length rows).rows.map lead)

instance (rows : List (List Float)) : Decidable (TriangularKept rows) :=
  decidable_of_iff (ReductionKept rows.length rows ∧
      ProductsKept 1 ((reduce rows.length rows).rows.map lead))
    ⟨fun h => ⟨h.1, h.2⟩, fun h => ⟨h.1, h.2⟩⟩

/-- The determinant of a square matrix stays in the range of the normal
numbers. -/
def DeterminantKept (rows : List (List Float)) : Prop :=
  match rows with
  | [[_]] => True
  | [[a, b], [c, d]] => MinorKept a b c d
  | [[a, b, c], [d, e, f], [g, h, i]] => ExpansionKept a b c d e f g h i
  | _ => TriangularKept rows

theorem determinant_eq_of_length (h : rows.length = 0 ∨ 4 ≤ rows.length) :
    determinant rows =
      Scalar.product ((reduce rows.length rows).rows.map lead) *
      (if (reduce rows.length rows).odd then -1 else 1) := by
  unfold determinant
  split <;> simp at h
  rfl

theorem determinantKept_iff_of_length (h : rows.length = 0 ∨ 4 ≤ rows.length) :
    DeterminantKept rows ↔ TriangularKept rows := by
  unfold DeterminantKept
  split <;> simp at h
  rfl

/-- The expansions of a determinant up to order three take the powers of two of
all rows. -/
theorem isScaled_determinant_expanded {n : ℕ} (hpos : 0 < n) (hle : n ≤ 3)
    (hn : rows.length = n) (hsquare : ∀ row ∈ rows, row.length = n)
    (h : Forall₃ RowScaled ks rows rows') (hkept : DeterminantKept rows)
    (hkept' : DeterminantKept rows') :
    IsScaled ks.sum (determinant rows) (determinant rows') := by
  obtain rfl | rfl | rfl : n = 1 ∨ n = 2 ∨ n = 3 := by omega
  · obtain ⟨r, rfl⟩ := List.length_eq_one_iff.mp hn
    obtain ⟨a, rfl⟩ := List.length_eq_one_iff.mp (hsquare r (by simp))
    rcases h with _ | ⟨_ | ⟨ha, _ | _⟩, _ | _⟩
    rwa [List.sum_singleton]
  · obtain ⟨r, q, rfl⟩ := List.length_eq_two.mp hn
    obtain ⟨a, b, rfl⟩ := List.length_eq_two.mp (hsquare r (by simp))
    obtain ⟨c, d, rfl⟩ := List.length_eq_two.mp (hsquare q (by simp))
    rcases h with _ | ⟨_ | ⟨ha, _ | ⟨hb, _ | _⟩⟩,
      _ | ⟨_ | ⟨hc, _ | ⟨hd, _ | _⟩⟩, _ | _⟩⟩
    rw [List.sum_cons, List.sum_singleton]
    exact isScaled_minor ha hb hc hd hkept hkept'
  · obtain ⟨r, q, p, rfl⟩ := List.length_eq_three.mp hn
    obtain ⟨a, b, c, rfl⟩ := List.length_eq_three.mp (hsquare r (by simp))
    obtain ⟨d, e, f, rfl⟩ := List.length_eq_three.mp (hsquare q (by simp))
    obtain ⟨g, h', i, rfl⟩ := List.length_eq_three.mp (hsquare p (by simp))
    rcases h with _ | ⟨_ | ⟨ha, _ | ⟨hb, _ | ⟨hc, _ | _⟩⟩⟩,
      _ | ⟨_ | ⟨hd, _ | ⟨he, _ | ⟨hf, _ | _⟩⟩⟩,
        _ | ⟨_ | ⟨hg, _ | ⟨hh, _ | ⟨hi, _ | _⟩⟩⟩, _ | _⟩⟩⟩
    rw [List.sum_cons, List.sum_cons, List.sum_singleton]
    exact isScaled_expansion ha hb hc hd he hf hg hh hi hkept hkept'

/-- The determinant takes the powers of two of all rows. -/
theorem isScaled_determinant {n : ℕ} (hn : rows.length = n)
    (hsquare : ∀ row ∈ rows, row.length = n)
    (h : Forall₃ RowScaled ks rows rows')
    (hpivots : n ≤ 3 ∨ pivotIndices n rows = pivotIndices n rows')
    (hkept : DeterminantKept rows) (hkept' : DeterminantKept rows') :
    IsScaled ks.sum (determinant rows) (determinant rows') := by
  by_cases hreduce : n = 0 ∨ 4 ≤ n
  · subst hn
    obtain ⟨hlength, hlength'⟩ := h.length_eq
    have hcount : rows'.length = rows.length := hlength'.symm.trans hlength
    have hindices : pivotIndices rows.length rows =
        pivotIndices rows.length rows' := by
      rcases hpivots with hsmall | hsame
      · obtain hzero : rows.length = 0 := by omega
        rw [hzero]
        rfl
      · exact hsame
    rw [determinant_eq_of_length hreduce,
      determinant_eq_of_length (hcount ▸ hreduce)]
    rw [determinantKept_iff_of_length hreduce] at hkept
    rw [determinantKept_iff_of_length (hcount ▸ hreduce)] at hkept'
    obtain ⟨ls, hperm, hleads, hodd⟩ :=
      exists_scaled_reduce rows.length hlength h hindices
      hkept.reduction (hcount ▸ hkept'.reduction)
    rw [hcount, ← hodd, ← hperm.sum_eq]
    exact (isScaled_product hleads hkept.product
      (hcount ▸ hkept'.product)).mul_sign _
  · exact isScaled_determinant_expanded (by omega) (by omega) hn hsquare
      h hkept hkept'

end Determinant

end Elimination
end NumericalMethods
