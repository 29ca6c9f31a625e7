import NumericalMethods.Proofs.Decimal.ReadBack
import NumericalMethods.Toml.Plain
import NumericalMethods.Toml.Writer

/-!
# Numbers and truth values in TOML

Counts, finite numbers and truth values are read back from their texts: a number
with a point is neither a moment nor a whole number.
-/

namespace NumericalMethods
namespace Toml

open Decimal

variable {cs rest : List Char} {c : Char}

theorem ne_of_apply {p : Char → Bool} {d : Char} (hc : p c = true)
    (hd : p d = false) : c ≠ d := by
  rintro rfl
  rw [hc] at hd
  cases hd

/-! ## Runs of digits -/

theorem isDecimal_of_isDigit (hc : c.isDigit = true) : isDecimal c = true := by
  rw [isDecimal, digit?_eq_some hc]
  rfl

theorem groups_eq_singleton (h : '_' ∉ cs) : cs.splitOn '_' = [cs] := by
  rw [List.splitOn_eq_splitOnP]
  apply List.splitOnP_eq_singleton
  intro c hc
  rw [beq_eq_false_iff_ne]
  rintro rfl
  exact h hc

theorem underscore_not_mem (hcs : IsRun cs) : '_' ∉ cs := by
  intro hmem
  exact absurd (hcs _ hmem) (by decide)

theorem digits?_eq_some (hcs : IsRun cs) (hne : cs ≠ []) :
    digits? isDecimal cs = some cs := by
  rw [digits?, groups_eq_singleton (underscore_not_mem hcs)]
  have hall : ([cs].all fun group => !group.isEmpty && group.all isDecimal) =
      true := by
    rw [List.all_cons, List.all_nil, Bool.and_true, Bool.and_eq_true]
    constructor
    · rwa [Bool.not_eq_true', List.isEmpty_eq_false_iff]
    · exact List.all_eq_true.mpr fun c hc => isDecimal_of_isDigit (hcs c hc)
  rw [if_pos hall, List.flatten_singleton]

theorem digits?_eq_none (h : '_' ∉ cs) (hmem : c ∈ cs)
    (hc : isDecimal c = false) :
    digits? isDecimal cs = none := by
  rw [digits?, groups_eq_singleton h]
  apply if_neg
  rw [List.all_cons, List.all_nil, Bool.and_true, Bool.and_eq_true]
  rintro ⟨_, hall⟩
  rw [List.all_eq_true.mp hall c hmem] at hc
  cases hc

theorem wholeDigits?_eq_some (hcs : IsWhole cs) :
    wholeDigits? cs = some cs := by
  rw [wholeDigits?, digits?_eq_some hcs.isRun hcs.ne_nil]
  split
  · next heq =>
      rw [Option.some.inj heq] at hcs
      exact absurd (hcs.front rfl) (by simp)
  · rfl

/-! ## Moments -/

theorem mem_tail_of_isDate (h : isDate cs = true) : '-' ∈ cs.tail := by
  unfold isDate at h
  split at h
  · simp
  · cases h

theorem mem_tail_of_isClock (h : isClock cs = true) : ':' ∈ cs.tail := by
  unfold isClock at h
  split at h
  · simp
  · cases h

theorem mem_tail_of_mem_tail_take {n : ℕ} (h : c ∈ (cs.take n).tail) :
    c ∈ cs.tail := by
  rw [← List.drop_one] at h ⊢
  rw [List.drop_take] at h
  exact List.mem_of_mem_take h

/-- A moment has a dash or a colon inside. -/
theorem isMoment_eq_false (hdash : '-' ∉ cs.tail) (hcolon : ':' ∉ cs.tail) :
    isMoment cs = false := by
  have hdate : isDate (cs.take 10) ≠ true :=
    fun h => hdash (mem_tail_of_mem_tail_take (mem_tail_of_isDate h))
  have hclock : isClock (cs.take 5) = false :=
    Bool.eq_false_iff.mpr fun h =>
      hcolon (mem_tail_of_mem_tail_take (mem_tail_of_isClock h))
  rw [isMoment, if_neg hdate, isTime, hclock, Bool.false_and]

/-- What has only digits and points behind its first character is read as a
number. -/
theorem plainValue?_of_tail (h : ∀ c ∈ cs.tail, c.isDigit = true ∨ c = '.') :
    plainValue? cs =
      (integer? cs).elim ((float? cs).map Value.float) fun n =>
        some (.integer n) := by
  have hmoment : isMoment cs = false :=
    isMoment_eq_false (fun hmem => absurd (h _ hmem) (by decide))
      fun hmem => absurd (h _ hmem) (by decide)
  have htrue : cs ≠ ['t', 'r', 'u', 'e'] := by
    rintro rfl
    exact absurd (h 'r' (by decide)) (by decide)
  have hfalse : cs ≠ ['f', 'a', 'l', 's', 'e'] := by
    rintro rfl
    exact absurd (h 'a' (by decide)) (by decide)
  rw [plainValue?, if_neg htrue, if_neg hfalse, hmoment,
    if_neg Bool.false_ne_true]
  cases integer? cs with
  | none => rfl
  | some n => rfl

/-! ## Whole numbers -/

theorem spanSign_cons (hc : c.isDigit = true) :
    spanSign (c :: rest) = (false, c :: rest) := by
  unfold spanSign
  split
  · next heq => exact absurd (List.cons.inj heq).1 (ne_of_apply hc (by decide))
  · next heq => exact absurd (List.cons.inj heq).1 (ne_of_apply hc (by decide))
  · rfl

/-- What does not start with the mark of a base is read as decimal digits. -/
theorem integer?_eq
    (h : ∀ d rest, cs = '0' :: d :: rest → d ≠ 'x' ∧ d ≠ 'o' ∧ d ≠ 'b') :
    integer? cs = ((wholeDigits? (spanSign cs).2).map fun digits =>
      if (spanSign cs).1 then -(ofDigits digits : ℤ)
      else ofDigits digits).filter isRepresentable := by
  unfold integer?
  split
  · exact absurd rfl (h _ _ rfl).1
  · exact absurd rfl (h _ _ rfl).2.1
  · exact absurd rfl (h _ _ rfl).2.2
  · rfl

theorem integer?_of_isWhole (hcs : IsWhole cs)
    (hrepresentable : isRepresentable (ofDigits cs) = true) :
    integer? cs = some (ofDigits cs : ℤ) := by
  obtain ⟨c, rest, hcons⟩ := List.exists_cons_of_ne_nil hcs.ne_nil
  have hsign : spanSign cs = (false, cs) := by
    have hdigit : c.isDigit = true := hcs.isRun c (by simp [hcons])
    rw [hcons]
    exact spanSign_cons hdigit
  rw [integer?_eq, hsign, wholeDigits?_eq_some hcs, Option.map_some,
    if_neg Bool.false_ne_true, Option.filter_some, if_pos hrepresentable]
  intro d rest heq
  rw [heq] at hcs
  exact absurd (hcs.front rfl) (by simp)

theorem plainValue?_of_isWhole (hcs : IsWhole cs)
    (hrepresentable : isRepresentable (ofDigits cs) = true) :
    plainValue? cs = some (.integer (ofDigits cs)) := by
  have htail : ∀ c ∈ cs.tail, c.isDigit = true ∨ c = '.' :=
    fun c hc => .inl (hcs.isRun c (List.mem_of_mem_tail hc))
  rw [plainValue?_of_tail htail, integer?_of_isWhole hcs hrepresentable,
    Option.elim_some]

/-! ## Numbers with a point -/

theorem spanSign_signed (negative : Bool) (p : Positional) :
    spanSign (Positional.signed negative p) = (negative, p.chars) := by
  cases negative with
  | true => rfl
  | false =>
      obtain ⟨c, cs, hc, hcs⟩ := p.exists_chars_eq
      have hsigned : Positional.signed false p = p.chars := rfl
      rw [hsigned, hcs, spanSign_cons hc]

theorem underscore_not_mem_chars (p : Positional) : '_' ∉ p.chars := by
  intro hmem
  rcases Positional.mem_chars hmem with h | h
  · exact absurd h (by decide)
  · exact absurd h (by decide)

theorem wholeDigits?_chars (p : Positional) : wholeDigits? p.chars = none := by
  have hpoint : '.' ∈ p.chars := by simp [Positional.chars]
  rw [wholeDigits?,
    digits?_eq_none (underscore_not_mem_chars p) hpoint (by decide)]

theorem integer?_signed (negative : Bool) (p : Positional) :
    integer? (Positional.signed negative p) = none := by
  rw [integer?_eq, spanSign_signed, wholeDigits?_chars]
  · rfl
  · intro d rest heq
    cases negative with
    | true => exact absurd (List.cons.inj heq).1 (by decide)
    | false =>
        obtain ⟨c, cs, hcs⟩ := List.exists_cons_of_ne_nil p.isWhole.ne_nil
        have hchars : Positional.signed false p =
            c :: (cs ++ '.' :: p.fraction) := by
          rw [Positional.signed, if_neg Bool.false_ne_true, Positional.chars,
            hcs, List.cons_append]
        rw [hchars, List.cons.injEq] at heq
        have hzero : p.whole = ['0'] :=
          p.isWhole.front (by rw [hcs, heq.1]; rfl)
        rw [hzero, List.cons.injEq] at hcs
        rw [← hcs.2, List.nil_append, List.cons.injEq] at heq
        rw [← heq.2.1]
        decide

theorem span_append_cons {p : Char → Bool} {d : Char} (h : ∀ c ∈ cs, p c = true)
    (hd : p d = false) : (cs ++ d :: rest).span p = (cs, d :: rest) := by
  rw [List.span_eq_takeWhile_dropWhile, List.takeWhile_append_of_pos h,
    List.dropWhile_append_of_pos h,
    List.takeWhile_cons_of_neg (by rw [hd]; exact Bool.false_ne_true),
    List.dropWhile_cons_of_neg (by rw [hd]; exact Bool.false_ne_true),
    List.append_nil]

theorem span_of_forall {p : Char → Bool} (h : ∀ c ∈ cs, p c = true) :
    cs.span p = (cs, []) := by
  rw [List.span_eq_takeWhile_dropWhile, List.takeWhile_eq_self_iff.mpr h,
    List.dropWhile_eq_nil_iff.mpr h]

theorem decimal?_chars (p : Positional) :
    decimal? p.chars = some (p.digits, p.place) := by
  have hmark : p.chars.span (fun c => !(c == 'e' || c == 'E')) =
      (p.chars, []) := by
    apply span_of_forall
    intro c hc
    rcases Positional.mem_chars hc with hdigit | rfl
    · rw [Bool.not_eq_true', Bool.or_eq_false_iff, beq_eq_false_iff_ne,
        beq_eq_false_iff_ne]
      constructor
      · rintro rfl
        exact absurd hdigit (by decide)
      · rintro rfl
        exact absurd hdigit (by decide)
    · decide
  have hpoint : p.chars.span (fun c => c != '.') =
      (p.whole, '.' :: p.fraction) := by
    apply span_append_cons _ (by decide)
    intro c hc
    rw [bne_iff_ne]
    rintro rfl
    exact absurd (p.isWhole.isRun _ hc) (by decide)
  simp only [decimal?, hmark, hpoint, wholeDigits?_eq_some p.isWhole,
    digits?_eq_some p.isRun p.ne_nil, Option.bind_eq_bind, Option.bind_some,
    List.isEmpty_cons, Bool.false_and, if_neg Bool.false_ne_true]
  rw [Positional.digits, Positional.place, zero_sub]

/-- A finite number is read from a decimal with a point. -/
theorem float?_signed {negative : Bool} {p : Positional} {x : Float}
    (hread : nearest negative p.digits p.place = x) (hx : x.isFinite = true) :
    float? (Positional.signed negative p) = some x := by
  obtain ⟨c, cs, hc, hcs⟩ := p.exists_chars_eq
  have hinfinite : p.chars ≠ ['i', 'n', 'f'] := by
    rw [hcs]
    exact fun heq => ne_of_apply hc (by decide) (List.cons.inj heq).1
  have hundefined : p.chars ≠ ['n', 'a', 'n'] := by
    rw [hcs]
    exact fun heq => ne_of_apply hc (by decide) (List.cons.inj heq).1
  simp only [float?, spanSign_signed, if_neg hinfinite, if_neg hundefined,
    decimal?_chars, Option.bind_eq_bind, Option.bind_some, hread, if_pos hx]

theorem plainValue?_signed {negative : Bool} {p : Positional} {x : Float}
    (hread : nearest negative p.digits p.place = x) (hx : x.isFinite = true) :
    plainValue? (Positional.signed negative p) = some (.float x) := by
  have htail : ∀ c ∈ (Positional.signed negative p).tail, c.isDigit = true ∨
      c = '.' := by
    intro c hc
    apply Positional.mem_chars (p := p)
    cases negative with
    | true => exact hc
    | false => exact List.mem_of_mem_tail hc
  rw [plainValue?_of_tail htail, integer?_signed, float?_signed hread hx]
  rfl

/-! ## The texts that are written -/

/-- A run of characters that is read as a value without quotes. -/
structure IsPlainText (cs : List Char) (v : Value) : Prop where
  ne_nil : cs ≠ []
  parts : ∀ c ∈ cs, isPlainPart c = true
  plainValue?_eq : plainValue? cs = some v

theorem isPlainPart_of_isDigit (hc : c.isDigit = true) :
    isPlainPart c = true := by
  rw [isPlainPart, Char.isAlphanum, hc, Bool.or_true]
  rfl

theorem isPlainText_toString {n : ℕ} (hn : n < Machine.signedBound) :
    IsPlainText (toString n).toList (.integer n) := by
  have htext : (toString n).toList = Nat.toDigits 10 n := by
    rw [Nat.toString_eq_ofList_toDigits, String.toList_ofList]
  have hrepresentable : isRepresentable (ofDigits (Nat.toDigits 10 n)) =
      true := by
    have hbound : Machine.signedBound = 2 ^ 63 := rfl
    have hlow : -(Int.ofNat (Nat.pow 2 127)) ≤ (0 : ℤ) := by decide
    have hhigh : Int.ofNat (Nat.pow 2 128) = 2 ^ 128 := by decide
    rw [ofDigits_toDigits, isRepresentable, Bool.and_eq_true,
      decide_eq_true_iff, decide_eq_true_iff, hhigh]
    omega
  have hvalue := plainValue?_of_isWhole (isWhole_toDigits n) hrepresentable
  rw [ofDigits_toDigits] at hvalue
  rw [htext]
  exact ⟨Nat.toDigits_ne_nil,
    fun c hc => isPlainPart_of_isDigit (isRun_toDigits n c hc), hvalue⟩

theorem isPlainText_float {x : Float} (hx : x.isFinite = true) :
    IsPlainText (float x).toList (.float x) := by
  obtain ⟨negative, p, htext, hread⟩ := exists_positional_render hx
  rw [float, htext]
  have hchars : ∀ c ∈ p.chars, isPlainPart c = true := by
    intro c hc
    rcases Positional.mem_chars hc with hdigit | rfl
    · exact isPlainPart_of_isDigit hdigit
    · decide
  refine ⟨?_, ?_, plainValue?_signed hread hx⟩
  · obtain ⟨c, cs, -, hcs⟩ := p.exists_chars_eq
    cases negative <;> simp [Positional.signed, hcs]
  · intro c hc
    cases negative with
    | true =>
        rcases List.mem_cons.mp hc with rfl | hc
        · decide
        · exact hchars c hc
    | false => exact hchars c hc

theorem isPlainText_boolean (b : Bool) :
    IsPlainText (boolean b).toList (.boolean b) := by
  cases b with
  | true => exact ⟨by decide, List.all_eq_true.mp rfl, rfl⟩
  | false => exact ⟨by decide, List.all_eq_true.mp rfl, rfl⟩

/-- A run of characters ends before a line break. -/
theorem spanPlain_newline (h : ∀ c ∈ cs, isPlainPart c = true) :
    spanPlain (cs ++ '\n' :: rest) = (cs, '\n' :: rest) := by
  have hspan : (cs ++ '\n' :: rest).span isPlainPart = (cs, '\n' :: rest) :=
    span_append_cons h (by decide)
  simp only [spanPlain, hspan]
  rfl

end Toml
end NumericalMethods
