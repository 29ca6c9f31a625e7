import Mathlib.Algebra.Polynomial.Eval.Degree
import Mathlib.Algebra.Polynomial.BigOperators
import Mathlib.LinearAlgebra.Vandermonde
import NumericalMethods.LeastSquares.Polynomial
import NumericalMethods.Proofs.LinearSystem.Elimination

/-!
# The best polynomial of a degree

The normal equations of a polynomial fit say that the residuals of the data are
orthogonal to every power of the abscissae.  Over enough distinct abscissae they
are nonsingular, since a polynomial of low degree cannot vanish at all of them.
Their solution is the only least-squares polynomial: any other one adds the sum
of the squares of the difference.
-/

namespace NumericalMethods
namespace LeastSquares

theorem exists_eq_ofFn {α : Type} {n : ℕ} {xs : List α}
    (hlength : xs.length = n) :
    ∃ c : Fin n → α, xs = List.ofFn c := by
  subst hlength
  exact ⟨xs.get, (List.ofFn_get xs).symm⟩

variable {K : Type} [Field K] {m : ℕ}

/-- The value of the polynomial with the coefficients `c`, lowest power
first. -/
def value (c : Fin m → K) (x : K) : K :=
  ∑ k, c k * x ^ (k : ℕ)

/-- The sum of the squared residuals of data at the polynomial `c`. -/
def residual (points : List (K × K)) (c : Fin m → K) : K :=
  (points.map fun p => (p.2 - value c p.1) ^ 2).sum

theorem value_sub (c c' : Fin m → K) (x : K) :
    value (fun k => c k - c' k) x = value c x - value c' x := by
  simp only [value, sub_mul, Finset.sum_sub_distrib]

/-- Sums over the data against a polynomial come from sums against powers. -/
theorem sum_value_mul
    (points : List (K × K)) (c : Fin m → K) (g : K × K → K) :
    (points.map fun p => value c p.1 * g p).sum =
      ∑ k, c k * (points.map fun p => p.1 ^ (k : ℕ) * g p).sum := by
  induction points with
  | nil => simp
  | cons p points ih =>
      simp only [List.map_cons, List.sum_cons, mul_add,
        Finset.sum_add_distrib, ih]
      rw [value, Finset.sum_mul]
      simp only [mul_assoc]

/-- Over few distinct abscissae a polynomial other than zero vanishes at all
of them. -/
theorem exists_value_eq_zero
    [DecidableEq K] {points : List (K × K)}
    (hfew : (points.map Prod.fst).toFinset.card < m) :
    ∃ c : Fin m → K, c ≠ 0 ∧ ∀ p ∈ points, value c p.1 = 0 := by
  let nodes := (points.map Prod.fst).toFinset
  let vanishing : Polynomial K := ∏ x ∈ nodes, (Polynomial.X - Polynomial.C x)
  have hmonic : vanishing.Monic :=
    Polynomial.monic_prod_of_monic _ _ fun x _ => Polynomial.monic_X_sub_C x
  have hdegree : vanishing.natDegree = nodes.card :=
    Polynomial.natDegree_finsetProd_X_sub_C_eq_card nodes id
  refine ⟨fun k => vanishing.coeff k, ?_, ?_⟩
  · intro hzero
    have hlead : vanishing.coeff nodes.card = 0 :=
      congrFun hzero ⟨nodes.card, hfew⟩
    rw [← hdegree, hmonic.coeff_natDegree] at hlead
    exact one_ne_zero hlead
  · intro p hp
    have hmem : p.1 ∈ nodes := List.mem_toFinset.mpr (List.mem_map_of_mem hp)
    have hroot : vanishing.eval p.1 = 0 := by
      rw [Polynomial.eval_prod]
      exact Finset.prod_eq_zero hmem (by simp)
    rw [Polynomial.eval_eq_sum_range' (hdegree.trans_lt hfew),
      Finset.sum_range] at hroot
    exact hroot

/-! ## Orthogonality -/

/-- The residuals at the polynomial `c` are orthogonal to the powers
below `m`. -/
def Orthogonal (points : List (K × K)) (c : Fin m → K) : Prop :=
  ∀ k : Fin m, (points.map fun p => p.1 ^ (k : ℕ) * (value c p.1 - p.2)).sum = 0

theorem Orthogonal.residual_eq
    {points : List (K × K)} {c : Fin m → K} (hc : Orthogonal points c)
    (c' : Fin m → K) :
    residual points c' =
      residual points c +
        (points.map fun p => value (fun k => c' k - c k) p.1 ^ 2).sum := by
  have hcross : (points.map fun p =>
      value (fun k => c' k - c k) p.1 * (value c p.1 - p.2)).sum = 0 := by
    rw [sum_value_mul]
    exact Finset.sum_eq_zero fun k _ => by rw [hc k, mul_zero]
  have hexpand : residual points c' = residual points c +
      2 * (points.map fun p =>
        value (fun k => c' k - c k) p.1 * (value c p.1 - p.2)).sum +
      (points.map fun p => value (fun k => c' k - c k) p.1 ^ 2).sum := by
    simp only [residual, value_sub]
    clear hcross hc
    induction points with
    | nil => simp
    | cons p points ih =>
        simp only [List.map_cons, List.sum_cons, ih]
        ring
  rw [hexpand, hcross]
  ring

section Order

variable [LinearOrder K] [IsStrictOrderedRing K]

theorem sum_sq_nonneg (points : List (K × K)) (g : K × K → K) :
    0 ≤ (points.map fun p => g p ^ 2).sum := by
  refine List.sum_nonneg fun v hv => ?_
  obtain ⟨p, _, rfl⟩ := List.mem_map.mp hv
  exact sq_nonneg _

theorem eq_zero_of_sum_sq_eq_zero
    {points : List (K × K)} {g : K × K → K}
    (h : (points.map fun p => g p ^ 2).sum = 0) : ∀ p ∈ points, g p = 0 := by
  induction points with
  | nil => simp
  | cons p points ih =>
      rw [List.map_cons, List.sum_cons] at h
      obtain ⟨hfirst, hrest⟩ :=
        (add_eq_zero_iff_of_nonneg (sq_nonneg _) (sum_sq_nonneg points g)).mp h
      exact List.forall_mem_cons.mpr
        ⟨pow_eq_zero_iff two_ne_zero |>.mp hfirst, ih hrest⟩

omit [IsStrictOrderedRing K] in
/-- A polynomial that vanishes at enough distinct abscissae is zero. -/
theorem eq_zero_of_value_eq_zero
    {points : List (K × K)}
    (hdistinct : m ≤ (points.map Prod.fst).toFinset.card) {c : Fin m → K}
    (hzero : ∀ p ∈ points, value c p.1 = 0) : c = 0 := by
  obtain ⟨nodes, hsubset, hcard⟩ := Finset.exists_subset_card_eq hdistinct
  refine Matrix.eq_zero_of_forall_index_sum_mul_pow_eq_zero
    (nodes.orderEmbOfFin hcard).injective fun j => ?_
  have hmem := hsubset (nodes.orderEmbOfFin_mem hcard j)
  rw [List.mem_toFinset, List.mem_map] at hmem
  obtain ⟨p, hp, hpj⟩ := hmem
  rw [← hpj]
  exact hzero p hp

/-- The residuals are orthogonal to the powers at no more than one polynomial,
and it has the least sum of squares. -/
theorem Orthogonal.residual_lt
    {points : List (K × K)}
    (hdistinct : m ≤ (points.map Prod.fst).toFinset.card) {c : Fin m → K}
    (hc : Orthogonal points c) {c' : Fin m → K} (hne : c' ≠ c) :
    residual points c < residual points c' := by
  rw [hc.residual_eq c', lt_add_iff_pos_right]
  refine lt_of_le_of_ne
    (sum_sq_nonneg points fun p => value (fun k => c' k - c k) p.1) ?_
  intro hzero
  have hdifference :=
    eq_zero_of_value_eq_zero hdistinct (eq_zero_of_sum_sq_eq_zero hzero.symm)
  exact hne (funext fun k => sub_eq_zero.mp (congrFun hdifference k))

end Order

/-! ## The equations -/

section Equations

variable [LinearOrder K] [ExactArithmetic K]

open Elimination

/-- The augmented row of one normal equation. -/
def normalRow (points : List (K × K)) (count i : ℕ) : List K :=
  (List.range count).map (fun j => moment (points.map Prod.fst) (i + j)) ++
    [weighedMoment (points.map Prod.fst) (points.map Prod.snd) i]

theorem normalEquations_eq_map (points : List (K × K)) (count : ℕ) :
    normalEquations (points.map Prod.fst) (points.map Prod.snd) count =
      (List.range count).map (normalRow points count) :=
  rfl

theorem length_of_mem_normalEquations (points : List (K × K)) (count : ℕ) :
    ∀ row ∈ normalEquations (points.map Prod.fst) (points.map Prod.snd) count,
      row.length = count + 1 := by
  rw [normalEquations_eq_map]
  intro row hrow
  obtain ⟨i, -, rfl⟩ := List.mem_map.mp hrow
  simp [normalRow]

theorem moment_eq_sum (points : List (K × K)) (exponent : ℕ) :
    moment (points.map Prod.fst) exponent =
      (points.map fun p => p.1 ^ exponent).sum := by
  simp [moment, Function.comp_def]

theorem weighedMoment_eq_sum (points : List (K × K)) (exponent : ℕ) :
    weighedMoment (points.map Prod.fst) (points.map Prod.snd) exponent =
      (points.map fun p => p.1 ^ exponent * p.2).sum := by
  simp [weighedMoment, List.zipWith_map]

/-- A normal equation sums values of the polynomial and ordinates against a
power. -/
theorem dot_normalRow
    (points : List (K × K)) (c : Fin m → K) (i : ℕ) (t : K) :
    dot (normalRow points m i) (List.ofFn c ++ [t]) =
      (points.map fun p => p.1 ^ i * (value c p.1 + t * p.2)).sum := by
  have hrange : (List.range m).map
      (fun j => moment (points.map Prod.fst) (i + j)) =
      List.ofFn fun j : Fin m => moment (points.map Prod.fst) (i + j) := by
    rw [List.ofFn_eq_map, ← List.map_coe_finRange_eq_range, List.map_map]
    rfl
  rw [normalRow, hrange, dot_append_singleton (by simp), dot_ofFn]
  clear hrange
  simp only [moment_eq_sum, weighedMoment_eq_sum]
  induction points with
  | nil => simp
  | cons p points ih =>
      simp only [List.map_cons, List.sum_cons, add_mul, Finset.sum_add_distrib]
      rw [← ih, value]
      simp only [pow_add, Finset.mul_sum, mul_add]
      have hterms : ∑ k : Fin m, p.1 ^ i * p.1 ^ (k : ℕ) * c k =
          ∑ k : Fin m, p.1 ^ i * (c k * p.1 ^ (k : ℕ)) :=
        Finset.sum_congr rfl fun k _ => by ring
      rw [hterms]
      ring

variable [IsStrictOrderedRing K]

theorem nonsingular_normalEquations
    {points : List (K × K)}
    (hdistinct : m ≤ (points.map Prod.fst).toFinset.card) :
    Nonsingular m
      (normalEquations (points.map Prod.fst) (points.map Prod.snd) m) := by
  intro column hlength hzero
  obtain ⟨c, rfl⟩ := exists_eq_ofFn hlength
  have hpowers : ∀ k : Fin m,
      (points.map fun p => p.1 ^ (k : ℕ) * value c p.1).sum = 0 := by
    intro k
    have hrow := hzero (normalRow points m k) (by
      rw [normalEquations_eq_map]
      exact List.mem_map_of_mem (List.mem_range.mpr k.isLt))
    simpa [dot_normalRow] using hrow
  have hsquares : (points.map fun p => value c p.1 ^ 2).sum = 0 := by
    simp only [pow_two, sum_value_mul points c fun p => value c p.1]
    exact Finset.sum_eq_zero fun k _ => by rw [hpowers k, mul_zero]
  have hc : c = 0 :=
    eq_zero_of_value_eq_zero hdistinct (eq_zero_of_sum_sq_eq_zero hsquares)
  intro v hv
  obtain ⟨k, rfl⟩ := List.mem_ofFn.mp hv
  exact congrFun hc k

/-- Over more distinct abscissae than the degree, the fit succeeds, and its
residuals are orthogonal to the powers up to the degree. -/
theorem exists_orthogonal_of_distinct
    {degree : ℕ} {points : List (K × K)}
    (hdistinct : degree + 1 ≤ (points.map Prod.fst).toFinset.card) :
    ∃ c : Fin (degree + 1) → K,
      polynomialFit (points.map Prod.fst) (points.map Prod.snd) degree =
        some (List.ofFn c) ∧ Orthogonal points c := by
  obtain ⟨xs, hsolve, hlength, hsolution⟩ :=
    exists_solve?_eq_some (by simp [normalEquations])
      (length_of_mem_normalEquations points _)
      (nonsingular_normalEquations hdistinct)
  obtain ⟨c, rfl⟩ := exists_eq_ofFn hlength
  refine ⟨c, ?_, fun k => ?_⟩
  · simp [polynomialFit, hsolve]
  · have hrow := hsolution (normalRow points (degree + 1) k) (by
      rw [normalEquations_eq_map]
      exact List.mem_map_of_mem (List.mem_range.mpr k.isLt))
    rw [dot_normalRow] at hrow
    simpa [sub_eq_add_neg] using hrow

omit [IsStrictOrderedRing K] in
/-- Over no more distinct abscissae than the degree, the normal equations are
singular, and elimination notices. -/
theorem polynomialFit_eq_none
    {degree : ℕ} {points : List (K × K)}
    (hfew : (points.map Prod.fst).toFinset.card ≤ degree) :
    polynomialFit (points.map Prod.fst) (points.map Prod.snd) degree =
      none := by
  let rows :=
    normalEquations (points.map Prod.fst) (points.map Prod.snd) (degree + 1)
  cases hsolve : Elimination.solve? rows with
  | none =>
      simp only [rows] at hsolve
      rw [polynomialFit, hsolve]
  | some xs =>
      have hnonsingular : Nonsingular (degree + 1) rows := by
        rw [solve?] at hsolve
        have hcount : rows.length = degree + 1 := by
          simp [rows, normalEquations]
        rw [hcount] at hsolve
        exact nonsingular_of_backSubstitute_reduce_eq_some hcount
          (length_of_mem_normalEquations points _) hsolve
      obtain ⟨c, hc, hzero⟩ := exists_value_eq_zero (Nat.lt_succ_of_le hfew)
      refine absurd (funext fun k => ?_) hc
      refine hnonsingular (List.ofFn c) (by simp) ?_ (c k)
        (List.mem_ofFn.mpr ⟨k, rfl⟩)
      intro row hrow
      simp only [rows, normalEquations_eq_map] at hrow
      obtain ⟨i, -, rfl⟩ := List.mem_map.mp hrow
      rw [dot_normalRow]
      refine List.sum_eq_zero fun v hv => ?_
      obtain ⟨p, hp, rfl⟩ := List.mem_map.mp hv
      rw [hzero p hp]
      ring

/-- There is only one polynomial with orthogonal residuals to be found. -/
theorem polynomialFit_of_orthogonal
    {degree : ℕ} {points : List (K × K)}
    (hdistinct : degree + 1 ≤ (points.map Prod.fst).toFinset.card)
    {c : Fin (degree + 1) → K} (hc : Orthogonal points c) :
    polynomialFit (points.map Prod.fst) (points.map Prod.snd) degree =
      some (List.ofFn c) := by
  obtain ⟨c', hfit, hc'⟩ := exists_orthogonal_of_distinct hdistinct
  have heq : c = c' := by
    by_contra hne
    exact lt_asymm (hc.residual_lt hdistinct (Ne.symm hne))
      (hc'.residual_lt hdistinct hne)
  rw [hfit, heq]

/-- No other choice of coefficients leaves as small a sum of squared
residuals. -/
theorem exists_polynomialFit_eq_some
    {degree : ℕ} {points : List (K × K)}
    (hdistinct : degree + 1 ≤ (points.map Prod.fst).toFinset.card) :
    ∃ c : Fin (degree + 1) → K,
      polynomialFit (points.map Prod.fst) (points.map Prod.snd) degree =
        some (List.ofFn c) ∧
      ∀ c', c' ≠ c → residual points c < residual points c' := by
  obtain ⟨c, hfit, hc⟩ := exists_orthogonal_of_distinct hdistinct
  exact ⟨c, hfit, fun c' hne => hc.residual_lt hdistinct hne⟩

end Equations

end LeastSquares
end NumericalMethods
