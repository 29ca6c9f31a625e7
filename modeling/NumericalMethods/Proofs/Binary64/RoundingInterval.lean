import NumericalMethods.Proofs.Binary64.Value

/-!
# The numbers that are rounded to one

What lies within half a step of a binary number is rounded to it, and so are the
ends of that interval if its mantissa is even.  Below a power of two the steps
are half as long, and the interval is shorter.
-/

namespace NumericalMethods
namespace Binary64

/-- A number is rounded to the multiple of its step that is near enough. -/
theorem nearest_eq_of_stepExponent_eq
    {q : ℚ} {e : ℤ} (hstep : stepExponent q = e) {n : ℤ}
    (hnear : |q - n * 2 ^ e| ≤ 2 ^ e / 2)
    (heven : |q - n * 2 ^ e| = 2 ^ e / 2 → Even n) :
    nearest q = n * 2 ^ e := by
  have hpos : (0 : ℚ) < 2 ^ e := by positivity
  have hscaled : |q / 2 ^ e - n| = |q - n * 2 ^ e| / 2 ^ e := by
    rw [div_sub' hpos.ne', abs_div, abs_of_pos hpos, mul_comm (2 ^ e : ℚ)]
  have hhalf : halfEven (q / 2 ^ e) = n := by
    apply halfEven_eq
    · rw [hscaled, div_le_iff₀ hpos]
      linarith
    · intro h
      apply heven
      rw [hscaled, div_eq_iff hpos.ne'] at h
      linarith
  rw [nearest, hstep, hhalf]

/-- How many quarters of a step the interval reaches below a number. -/
def quartersBelow (m : ℕ) (e : ℤ) : ℕ :=
  if m = 2 ^ 52 ∧ -1074 < e then 1 else 2

variable {m : ℕ} {e : ℤ} {q : ℚ}

/-- The numbers that are rounded to `m * 2 ^ e`. -/
structure IsRoundedTo (m : ℕ) (e : ℤ) (q : ℚ) : Prop where
  low : (4 * m - quartersBelow m e) * 2 ^ (e - 2) ≤ q
  high : q ≤ (4 * m + 2) * 2 ^ (e - 2)
  ends : ¬ Even m → (4 * m - quartersBelow m e) * 2 ^ (e - 2) < q ∧
  q < (4 * m + 2) * 2 ^ (e - 2)

theorem two_zpow_eq_four_mul (e : ℤ) : (2 : ℚ) ^ e = 4 * 2 ^ (e - 2) := by
  have hpower : (4 : ℚ) = 2 ^ (2 : ℤ) := by norm_num
  rw [hpower, ← zpow_add₀ two_ne_zero, add_sub_cancel]

/-- At and above a number, and on both sides if it is not a power of two. -/
theorem Canonical.nearest_eq_of_two_quarters
    (h : Canonical m e) (hlow : (4 * m - 2) * 2 ^ (e - 2) ≤ q)
    (hhigh : q ≤ (4 * m + 2) * 2 ^ (e - 2))
    (hends : ¬ Even m → (4 * m - 2) * 2 ^ (e - 2) < q ∧
      q < (4 * m + 2) * 2 ^ (e - 2))
    (hfull : e = -1074 ∨ 2 ^ 52 * 2 ^ e ≤ q) :
    nearest q = m * 2 ^ e := by
  have hquarter : (0 : ℚ) < 2 ^ (e - 2) := by positivity
  have hfour := two_zpow_eq_four_mul e
  have hm : (1 : ℚ) ≤ m := by exact_mod_cast h.pos
  have hm' : (m : ℚ) + 1 ≤ 2 ^ 53 := by exact_mod_cast h.lt
  have hpos : 0 < q := lt_of_lt_of_le (by nlinarith) hlow
  have hstep : stepExponent q = e := by
    apply stepExponent_eq_of_lt hpos.ne' h.least
    · rw [abs_of_pos hpos, hfour]
      nlinarith
    · rwa [abs_of_pos hpos]
  have hresult := nearest_eq_of_stepExponent_eq (n := m) hstep
  rw [Int.cast_natCast] at hresult
  apply hresult
  · rw [abs_le, hfour]
    constructor
    · linarith
    · linarith
  · intro hdistance
    by_contra hodd
    obtain ⟨hlow', hhigh'⟩ := hends fun heven => hodd (by exact_mod_cast heven)
    have hlt : |q - m * 2 ^ e| < 2 ^ e / 2 := by
      rw [abs_lt, hfour]
      constructor
      · linarith
      · linarith
    exact hlt.ne hdistance

/-- Below a power of two. -/
theorem nearest_eq_of_one_quarter
    (he : -1074 < e) (hlow : (4 * 2 ^ 52 - 1) * 2 ^ (e - 2) ≤ q)
    (hlt : q < 2 ^ 52 * 2 ^ e) :
    nearest q = 2 ^ 52 * 2 ^ e := by
  have hquarter : (0 : ℚ) < 2 ^ (e - 2) := by positivity
  have hfour := two_zpow_eq_four_mul e
  have htwo : (2 : ℚ) ^ (e - 1) = 2 * 2 ^ (e - 2) := by
    have hexponent : e - 1 = e - 2 + 1 := by ring
    rw [hexponent, zpow_add_one₀ two_ne_zero, mul_comm]
  have hpos : 0 < q := lt_of_lt_of_le (by positivity) hlow
  have hstep : stepExponent q = e - 1 := by
    apply stepExponent_eq_of_lt hpos.ne' (by omega)
    · rw [abs_of_pos hpos, htwo]
      rw [hfour] at hlt
      linarith
    · right
      rw [abs_of_pos hpos, htwo]
      linarith
  have hresult := nearest_eq_of_stepExponent_eq (n := 2 ^ 53) hstep
  have hsame : ((2 ^ 53 : ℤ) : ℚ) * 2 ^ (e - 1) = 2 ^ 52 * 2 ^ e := by
    rw [htwo, hfour]
    push_cast
    ring
  rw [hsame] at hresult
  apply hresult
  · rw [abs_le, htwo, hfour]
    rw [hfour] at hlt
    constructor
    · linarith
    · linarith
  · intro _
    decide

theorem IsRoundedTo.nearest_eq (hq : IsRoundedTo m e q) (h : Canonical m e) :
    nearest q = m * 2 ^ e := by
  have hquarter : (0 : ℚ) < 2 ^ (e - 2) := by positivity
  have hfour := two_zpow_eq_four_mul e
  have hlow := hq.low
  have hends := hq.ends
  rw [quartersBelow] at hlow hends
  by_cases hpower : m = 2 ^ 52 ∧ -1074 < e
  · obtain ⟨rfl, he⟩ := hpower
    rw [if_pos ⟨rfl, he⟩, Nat.cast_one] at hlow
    push_cast at hlow ⊢
    rcases lt_or_ge q (2 ^ 52 * 2 ^ e) with hlt | hge
    · exact nearest_eq_of_one_quarter he hlow hlt
    · have hhigh := hq.high
      have hresult := h.nearest_eq_of_two_quarters (q := q)
        (by push_cast; linarith) hhigh
          (fun hodd => absurd (by decide) hodd) (.inr hge)
      push_cast at hresult
      exact hresult
  · rw [if_neg hpower, Nat.cast_ofNat] at hlow hends
    apply h.nearest_eq_of_two_quarters hlow hq.high hends
    by_cases he : e = -1074
    · exact .inl he
    · right
      have hleast := h.least
      have hm : 2 ^ 52 + 1 ≤ m := by
        have hge := h.full.resolve_right he
        have hne : m ≠ 2 ^ 52 := fun heq => hpower ⟨heq, by omega⟩
        omega
      have hm' : (2 : ℚ) ^ 52 + 1 ≤ m := by exact_mod_cast hm
      rw [hfour]
      nlinarith

end Binary64
end NumericalMethods
