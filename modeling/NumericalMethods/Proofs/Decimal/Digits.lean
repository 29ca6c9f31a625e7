import Mathlib.Algebra.Order.Field.Rat
import Mathlib.Data.List.TakeWhile
import Mathlib.Data.Nat.Digits.Defs
import Mathlib.Tactic.Linarith
import Mathlib.Tactic.Positivity
import NumericalMethods.Decimal.Layout
import NumericalMethods.Decimal.Reader

/-!
# Runs of digits

The digits of a number stand for it again, zeros in front of them change
nothing, and zeros behind them multiply by powers of ten.  So a decimal that is
laid out positionally keeps its value.
-/

namespace NumericalMethods
namespace Decimal

/-! ## Digits -/

def IsRun (cs : List Char) : Prop :=
  ∀ c ∈ cs, c.isDigit = true

variable {c : Char} {cs ds : List Char}

theorem digit?_eq_some (hc : c.isDigit = true) :
    digit? c = some (c.toNat - '0'.toNat) := by
  rw [Char.isDigit, Bool.and_eq_true, decide_eq_true_iff,
    decide_eq_true_iff] at hc
  apply if_pos
  rw [Bool.and_eq_true, decide_eq_true_iff, decide_eq_true_iff]
  exact hc

theorem IsRun.append (hcs : IsRun cs) (hds : IsRun ds) : IsRun (cs ++ ds) := by
  intro c hc
  rcases List.mem_append.mp hc with hc | hc
  · exact hcs c hc
  · exact hds c hc

theorem isRun_zeros (n : ℕ) : IsRun (List.replicate n '0') := by
  intro c hc
  rw [(List.mem_replicate.mp hc).2]
  rfl

theorem isRun_toDigits (n : ℕ) : IsRun (Nat.toDigits 10 n) :=
  fun _ hc => Nat.isDigit_of_mem_toDigits (by decide) le_rfl hc

theorem ofDigits_eq_ofDigitChars (hcs : IsRun cs) :
    ofDigits cs = Nat.ofDigitChars 10 cs 0 := by
  rw [ofDigits, Nat.ofDigitChars_eq_foldl]
  apply List.foldl_ext
  intro n c hc
  rw [digit?_eq_some (hcs c hc), Option.getD_some]

theorem ofDigits_toDigits (n : ℕ) : ofDigits (Nat.toDigits 10 n) = n := by
  rw [ofDigits_eq_ofDigitChars (isRun_toDigits n),
    Nat.ofDigitChars_ten_toDigits]

theorem ofDigits_append_zeros (hcs : IsRun cs) (n : ℕ) :
    ofDigits (cs ++ List.replicate n '0') = 10 ^ n * ofDigits cs := by
  rw [ofDigits_eq_ofDigitChars (hcs.append (isRun_zeros n)),
    ofDigits_eq_ofDigitChars hcs, Nat.ofDigitChars_append,
    Nat.ofDigitChars_replicate_zero]

theorem ofDigits_zeros_append (hcs : IsRun cs) (n : ℕ) :
    ofDigits (List.replicate n '0' ++ cs) = ofDigits cs := by
  rw [ofDigits_eq_ofDigitChars ((isRun_zeros n).append hcs),
    ofDigits_eq_ofDigitChars hcs, Nat.ofDigitChars_append,
    Nat.ofDigitChars_replicate_zero, Nat.mul_zero]

/-! ## Decimals with a point -/

/-- The digits before a point: there are some, without a superfluous zero in
front. -/
structure IsWhole (cs : List Char) : Prop where
  isRun : IsRun cs
  ne_nil : cs ≠ []
  front : cs.head? = some '0' → cs = ['0']

theorem head?_toDigits {n : ℕ} (hn : 0 < n) :
    (Nat.toDigits 10 n).head? ≠ some '0' := by
  induction n using Nat.strong_induction_on with
  | _ n ih =>
      rw [Nat.toDigits_eq_if (by decide)]
      split
      · next hsmall =>
          intro hhead
          have hzero : n.digitChar = '0' := Option.some.inj hhead
          have hcode := Nat.toNat_digitChar_of_lt_ten hsmall
          rw [hzero] at hcode
          have hzero' : '0'.toNat = 48 := rfl
          omega
      · rw [List.head?_append_of_ne_nil _ Nat.toDigits_ne_nil]
        exact ih (n / 10) (by omega) (by omega)

theorem IsWhole.of_head (hrun : IsRun cs) (hne : cs ≠ [])
    (hhead : cs.head? ≠ some '0') :
    IsWhole cs :=
  ⟨hrun, hne, fun h => absurd h hhead⟩

theorem isWhole_toDigits (n : ℕ) : IsWhole (Nat.toDigits 10 n) := by
  refine ⟨isRun_toDigits n, Nat.toDigits_ne_nil, ?_⟩
  intro hhead
  rcases Nat.eq_zero_or_pos n with rfl | hn
  · rfl
  · exact absurd hhead (head?_toDigits hn)

/-- A decimal with digits on both sides of its point. -/
structure Positional where
  whole : List Char
  fraction : List Char
  isWhole : IsWhole whole
  isRun : IsRun fraction
  ne_nil : fraction ≠ []

namespace Positional

def chars (p : Positional) : List Char :=
  p.whole ++ '.' :: p.fraction

def signed (negative : Bool) (p : Positional) : List Char :=
  if negative then '-' :: p.chars else p.chars

def digits (p : Positional) : ℕ :=
  ofDigits (p.whole ++ p.fraction)

/-- The place of the last digit. -/
def place (p : Positional) : ℤ :=
  -(p.fraction.length : ℤ)

theorem exists_chars_eq (p : Positional) :
    ∃ c cs, c.isDigit = true ∧ p.chars = c :: cs := by
  obtain ⟨c, cs, hcs⟩ := List.exists_cons_of_ne_nil p.isWhole.ne_nil
  refine ⟨c, cs ++ '.' :: p.fraction, ?_, ?_⟩
  · apply p.isWhole.isRun
    rw [hcs]
    exact List.mem_cons_self
  · rw [chars, hcs, List.cons_append]

theorem mem_chars {p : Positional} {c : Char} (hc : c ∈ p.chars) :
    c.isDigit = true ∨ c = '.' := by
  rcases List.mem_append.mp hc with hc | hc
  · exact .inl (p.isWhole.isRun c hc)
  · rcases List.mem_cons.mp hc with rfl | hc
    · exact .inr rfl
    · exact .inl (p.isRun c hc)

def zero : Positional where
  whole := ['0']
  fraction := ['0']
  isWhole := isWhole_toDigits 0
  isRun := isRun_toDigits 0
  ne_nil := List.cons_ne_nil _ _

end Positional

/-! ## Positional text -/

theorem exists_eq_append_zeros (cs : List Char) :
    ∃ n, cs = (cs.reverse.dropWhile (· = '0')).reverse ++
      List.replicate n '0' := by
  refine ⟨(cs.reverse.takeWhile (· = '0')).reverse.length, ?_⟩
  rw [← List.eq_replicate_of_mem
    (l := (cs.reverse.takeWhile (· = '0')).reverse),
    ← List.reverse_append, List.takeWhile_append_dropWhile,
    List.reverse_reverse]
  intro c hc
  have hzero := List.mem_takeWhile_imp (List.mem_reverse.mp hc)
  exact of_decide_eq_true hzero

/-- The digits of a decimal are the ones of its number, up to zeros
behind them. -/
theorem Numeral.significant_spec (d : Numeral) (hd : 0 < d.digits) :
    ∃ n, Nat.toDigits 10 d.digits =
        d.significant.digits ++ List.replicate n '0' ∧
      d.significant.digits ≠ [] ∧ d.significant.digits.head? ≠ some '0' := by
  have hhead := head?_toDigits hd
  obtain ⟨n, hn⟩ := exists_eq_append_zeros (Nat.toDigits 10 d.digits)
  have hunfold : d.significant.digits =
      if (((Nat.toDigits 10 d.digits).reverse.dropWhile
          (· = '0')).reverse).isEmpty then ['0']
      else ((Nat.toDigits 10 d.digits).reverse.dropWhile (· = '0')).reverse :=
        rfl
  rw [hunfold]
  cases hkept :
    ((Nat.toDigits 10 d.digits).reverse.dropWhile (· = '0')).reverse with
  | nil =>
      rw [hkept, List.nil_append] at hn
      have hne : n ≠ 0 := by
        rintro rfl
        exact Nat.toDigits_ne_nil hn
      rw [hn, List.head?_replicate, if_neg hne] at hhead
      exact absurd rfl hhead
  | cons c rest =>
      rw [hkept] at hn
      refine ⟨n, hn, List.cons_ne_nil c rest, ?_⟩
      rwa [hn] at hhead

/-- The three ways of laying out digits around a point. -/
theorem Significant.exists_positional (s : Significant)
    (hrun : IsRun s.digits) (hne : s.digits ≠ [])
    (hhead : s.digits.head? ≠ some '0') :
    ∃ (p : Positional) (j : ℕ), (s.positional true).toList = p.chars ∧
      p.digits = 10 ^ j * ofDigits s.digits ∧
      j + p.place = s.exponent + 1 - s.digits.length ∧
      (p.fraction.length : ℤ) ≤ max 1 (s.digits.length - 1 - s.exponent) := by
  obtain ⟨kept, e⟩ := s
  dsimp only at hrun hne hhead ⊢
  have hlength := List.length_pos_of_ne_nil hne
  rw [Significant.positional]
  by_cases hnegative : e < 0
  · let p : Positional :=
      { whole := ['0']
        fraction := List.replicate (-e - 1).toNat '0' ++ kept
        isWhole := isWhole_toDigits 0
        isRun := (isRun_zeros _).append hrun
        ne_nil := List.append_ne_nil_of_right_ne_nil _ hne }
    have hfraction : (p.fraction.length : ℤ) = -e - 1 + kept.length := by
      rw [List.length_append, List.length_replicate]
      omega
    have hzeros : p.whole ++ p.fraction =
        List.replicate ((-e - 1).toNat + 1) '0' ++ kept := rfl
    refine ⟨p, 0, ?_, ?_, ?_, ?_⟩
    · rw [if_pos hnegative, String.toList_ofList]
      rfl
    · rw [Positional.digits, hzeros, ofDigits_zeros_append hrun,
        pow_zero, one_mul]
    · rw [Positional.place, hfraction]
      omega
    · rw [hfraction]
      omega
  · rw [if_neg hnegative]
    by_cases hwhole : kept.length ≤ e.toNat + 1
    · have happend :
          (kept ++ List.replicate (e.toNat + 1 - kept.length) '0').head? =
          kept.head? := List.head?_append_of_ne_nil kept hne
      let p : Positional :=
        { whole := kept ++ List.replicate (e.toNat + 1 - kept.length) '0'
          fraction := ['0']
          isWhole := .of_head (hrun.append (isRun_zeros _))
            (List.append_ne_nil_of_left_ne_nil hne _) (by rwa [happend])
          isRun := isRun_toDigits 0
          ne_nil := List.cons_ne_nil _ _ }
      have hzeros : p.whole ++ p.fraction =
          kept ++ List.replicate (e.toNat + 1 - kept.length + 1) '0' := by
        rw [List.replicate_succ', ← List.append_assoc]
      refine ⟨p, e.toNat + 1 - kept.length + 1, ?_, ?_, ?_, ?_⟩
      · rw [if_pos hwhole, if_pos rfl, String.toList_append,
          String.toList_ofList]
        rfl
      · rw [Positional.digits, hzeros, ofDigits_append_zeros hrun]
      · have hone : p.fraction.length = 1 := rfl
        rw [Positional.place, hone]
        omega
      · exact le_max_left _ _
    · have htake : (kept.take (e.toNat + 1)).head? = kept.head? := by
        rw [List.head?_take, if_neg (Nat.succ_ne_zero _)]
      have hbefore : kept.take (e.toNat + 1) ≠ [] := by
        rw [Ne, List.take_eq_nil_iff]
        exact not_or.mpr ⟨Nat.succ_ne_zero _, hne⟩
      let p : Positional :=
        { whole := kept.take (e.toNat + 1)
          fraction := kept.drop (e.toNat + 1)
          isWhole :=
            .of_head (fun c hc => hrun c (List.mem_of_mem_take hc)) hbefore
            (by rwa [htake])
          isRun := fun c hc => hrun c (List.mem_of_mem_drop hc)
          ne_nil := by rw [Ne, List.drop_eq_nil_iff]; omega }
      have hfraction : p.fraction.length = kept.length - (e.toNat + 1) :=
        List.length_drop
      refine ⟨p, 0, ?_, ?_, ?_, ?_⟩
      · rw [if_neg hwhole, String.toList_ofList]
        rfl
      · rw [Positional.digits, List.take_append_drop, pow_zero, one_mul]
      · rw [Positional.place, hfraction]
        omega
      · rw [hfraction]
        omega

theorem zpow_natCast_mul_zpow (n : ℕ) (e : ℤ) :
    (10 : ℚ) ^ n * 10 ^ e = 10 ^ (n + e) := by
  rw [← zpow_natCast, ← zpow_add₀ (by norm_num)]

/-- Positional text keeps the value of a decimal. -/
theorem Numeral.exists_positional (d : Numeral) (hd : 0 < d.digits) :
    ∃ p : Positional, (d.significant.positional true).toList = p.chars ∧
      (p.digits : ℚ) * 10 ^ p.place = d.digits * 10 ^ d.place ∧
      (p.fraction.length : ℤ) ≤ max 1 (-d.place) := by
  obtain ⟨n, hn, hne, hhead⟩ := d.significant_spec hd
  have hrun : IsRun d.significant.digits := by
    intro c hc
    apply isRun_toDigits d.digits c
    rw [hn]
    exact List.mem_append_left _ hc
  have hexponent : d.significant.exponent =
      ((Nat.toDigits 10 d.digits).length : ℤ) - 1 + d.place := rfl
  rw [hn, List.length_append, List.length_replicate, Nat.cast_add] at hexponent
  have hdigits : d.digits = 10 ^ n * ofDigits d.significant.digits := by
    rw [← ofDigits_append_zeros hrun, ← hn, ofDigits_toDigits]
  obtain ⟨p, j, htext, hp, hplace, hfraction⟩ :=
    d.significant.exists_positional hrun hne hhead
  refine ⟨p, htext, ?_, ?_⟩
  · have hsame : (j : ℤ) + p.place = n + d.place := by omega
    rw [hp, hdigits, Nat.cast_mul, Nat.cast_mul, Nat.cast_pow, Nat.cast_pow,
      Nat.cast_ofNat, mul_right_comm, zpow_natCast_mul_zpow, hsame,
      mul_right_comm, zpow_natCast_mul_zpow]
  · omega

end Decimal
end NumericalMethods
