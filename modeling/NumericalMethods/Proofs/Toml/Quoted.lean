import Mathlib.Data.List.Infix
import Mathlib.Tactic.IntervalCases
import NumericalMethods.Toml.Quoted
import NumericalMethods.Toml.Writer

/-!
# Texts read back from their quotes

Every text is read back from what `quote` writes for it, whatever characters it
holds.  Between double quotes this is shown character by character; a run of
quotes in front of closing quotes is read together with them.
-/

namespace NumericalMethods
namespace Toml

variable {cs rest : List Char} {c : Char}

/-! ## Characters between double quotes -/

/-- How a character is written between double quotes. -/
inductive Escape (long : Bool) : Char → List Char → Prop
  | letter {c d : Char} (h : escape? d = some c) : Escape long c ['\\', d]
  | code {c a b : Char} (h : codePoint? ['0', '0', a, b] = some c) :
      Escape long c ['\\', 'u', '0', '0', a, b]
  | plain {c : Char} (hquote : c ≠ '"') (hbackslash : c ≠ '\\')
      (hreturn : c ≠ '\r')
      (h : isPlain c = true ∨ long = true ∧ c = '\n') : Escape long c [c]

theorem codePoint?_hexDigits :
    ∀ n : Fin 128, codePoint? ['0', '0', hexDigit (n / 16), hexDigit (n % 16)] =
      some (Char.ofNat n) := by
  decide

theorem lt_of_isControl (h : isControl c = true) : c.toNat < 128 := by
  rw [isControl, Bool.and_eq_true, Bool.and_eq_true, Bool.or_eq_true,
    decide_eq_true_iff, beq_iff_eq] at h
  omega

theorem isPlain_of_isControl_eq_false (h : isControl c = false)
    (hnewline : c ≠ '\n') :
    isPlain c = true := by
  by_cases htab : c = '\t'
  · rw [htab]
    rfl
  · have hcode : (decide (c.toNat < 0x20) || c.toNat == 0x7F) = false := by
      rw [isControl, bne_iff_ne.mpr htab, bne_iff_ne.mpr hnewline,
        Bool.and_true, Bool.and_true] at h
      exact h
    rw [Bool.or_eq_false_iff, decide_eq_false_iff_not,
      beq_eq_false_iff_ne] at hcode
    rw [isPlain, Bool.or_eq_true, Bool.and_eq_true,
      decide_eq_true_iff, bne_iff_ne]
    exact .inr ⟨Nat.le_of_not_lt hcode.1, hcode.2⟩

theorem escape_escaped (long : Bool) (c : Char) :
    Escape long c (escaped long c) := by
  rw [escaped]
  split
  · next h => subst h; exact .letter rfl
  split
  · next h => subst h; exact .letter rfl
  split
  · next h =>
      subst h
      cases long with
      | true =>
          exact .plain (by decide) (by decide) (by decide) (.inr ⟨rfl, rfl⟩)
      | false => exact .letter rfl
  split
  · next h => subst h; exact .letter rfl
  split
  · next h => subst h; exact .letter rfl
  split
  · next h => subst h; exact .letter rfl
  split
  · next h => subst h; exact .letter rfl
  split
  · next hcontrol =>
      apply Escape.code
      have h := codePoint?_hexDigits ⟨c.toNat, lt_of_isControl hcontrol⟩
      rwa [Char.ofNat_toNat] at h
  · next hnewline _ hreturn hbackslash hquote hcontrol =>
      exact .plain hquote hbackslash hreturn
        (.inl (isPlain_of_isControl_eq_false
          (Bool.eq_false_iff.mpr hcontrol) hnewline))

/-- A letter that stands for a character is no mark of a code and no part of the
end of a line. -/
theorem ne_of_escape? {d : Char} (h : escape? d = some c) :
    d ≠ 'x' ∧ d ≠ 'u' ∧ d ≠ 'U' ∧ d ≠ ' ' ∧ d ≠ '\t' ∧ d ≠ '\n' ∧ d ≠ '\r' := by
  refine ⟨?_, ?_, ?_, ?_, ?_, ?_, ?_⟩ <;>
    · rintro rfl
      cases h

theorem skipBlanks_cons (hblank : c ≠ ' ') (htab : c ≠ '\t') :
    skipBlanks (c :: rest) = c :: rest := by
  apply List.dropWhile_cons_of_neg
  rw [Bool.or_eq_true, beq_iff_eq, beq_iff_eq]
  exact not_or.mpr ⟨hblank, htab⟩

theorem newline?_cons (hnewline : c ≠ '\n') (hreturn : c ≠ '\r') :
    newline? (c :: rest) = none := by
  unfold newline?
  split
  · next heq => exact absurd (List.cons.inj heq).1 hnewline
  · next heq => exact absurd (List.cons.inj heq).1 hreturn
  · rfl

theorem consEscaped_some (c : Char) (reading : Option (List Char × List Char)) :
    consEscaped (some c) reading = consChar c reading :=
  rfl

section Bodies

variable {written tail : List Char}

theorem basicBody_escape (h : Escape false c written) :
    basicBody (written ++ tail) = consChar c (basicBody tail) := by
  cases h with
  | letter h =>
      obtain ⟨hx, hu, hU, -⟩ := ne_of_escape? h
      rw [List.cons_append, List.cons_append, List.nil_append, basicBody, h,
        consEscaped_some]
      · exact fun _ _ _ heq => absurd heq hx
      · exact fun _ _ _ _ _ heq => absurd heq hu
      · exact fun _ _ _ _ _ _ _ _ _ heq => absurd heq hU
  | code h =>
      rw [← consEscaped_some, ← h]
      rfl
  | plain hquote hbackslash _ h =>
      have hplain : isPlain c = true :=
        h.resolve_right fun h => absurd h.1 Bool.false_ne_true
      rw [List.cons_append, List.nil_append, basicBody, if_pos hplain]
      · exact hquote
      · exact fun _ _ _ heq => absurd heq hbackslash
      · exact fun _ _ _ _ _ heq => absurd heq hbackslash
      · exact fun _ _ _ _ _ _ _ _ _ heq => absurd heq hbackslash
      · exact fun _ _ heq => absurd heq hbackslash

theorem longBasicBody_escape (h : Escape true c written) :
    longBasicBody false (written ++ tail) =
      consChar c (longBasicBody false tail) := by
  cases h with
  | @letter d h =>
      obtain ⟨hx, hu, hU, hblank, htab, hnewline, hreturn⟩ := ne_of_escape? h
      have hend : isLineEnd (d :: tail) = false := by
        rw [isLineEnd, skipBlanks_cons hblank htab,
          newline?_cons hnewline hreturn]
        rfl
      rw [List.cons_append, List.cons_append, List.nil_append,
        longBasicBody, hend, if_neg Bool.false_ne_true, h, consEscaped_some]
      · exact fun _ _ _ heq => absurd heq hx
      · exact fun _ _ _ _ _ heq => absurd heq hu
      · exact fun _ _ _ _ _ _ _ _ _ heq => absurd heq hU
  | code h =>
      rw [← consEscaped_some, ← h]
      rfl
  | plain hquote hbackslash hreturn h =>
      have hplain : (c == '\n' || isPlain c) = true := by
        rw [Bool.or_eq_true, beq_iff_eq]
        exact h.symm.imp And.right id
      rw [List.cons_append, List.nil_append, longBasicBody, Bool.false_and,
        if_neg Bool.false_ne_true, if_pos hplain]
      · exact fun _ heq => absurd heq hquote
      · exact fun _ heq => absurd heq hreturn
      · exact fun _ _ _ heq => absurd heq hbackslash
      · exact fun _ _ _ _ _ heq => absurd heq hbackslash
      · exact fun _ _ _ _ _ _ _ _ _ heq => absurd heq hbackslash
      · exact fun _ _ heq => absurd heq hbackslash

end Bodies

/-! ## Double quotes -/

theorem basicBody_append (cs rest : List Char) :
    basicBody (basicChars cs ++ '"' :: rest) = some (cs, rest) := by
  induction cs with
  | nil => rfl
  | cons c cs ih =>
      have hchars : basicChars (c :: cs) = escaped false c ++ basicChars cs :=
        List.flatMap_cons
      rw [hchars, List.append_assoc,
        basicBody_escape (escape_escaped false c), ih]
      rfl

/-- Quotes right in front of the closing ones belong to the text. -/
theorem closingQuotes_replicate {quote : Char} {n : ℕ} (hn : n ≤ 2)
    (hc : c ≠ quote) :
    closingQuotes quote (List.replicate n quote ++ c :: rest) =
      (List.replicate n quote, c :: rest) := by
  interval_cases n
  · cases rest <;> simp [closingQuotes, hc]
  · simp [closingQuotes, hc]
  · simp [closingQuotes]

theorem Escape.exists_cons {long : Bool} {written : List Char}
    (h : Escape long c written) :
    ∃ d more, (d ≠ '"' ∧ d ≠ '\r') ∧ written = d :: more := by
  cases h with
  | letter h => exact ⟨_, _, by decide, rfl⟩
  | code h => exact ⟨_, _, by decide, rfl⟩
  | plain hquote _ hreturn _ => exact ⟨_, _, ⟨hquote, hreturn⟩, rfl⟩

theorem longBasicBody_quote {tail : List Char}
    (h : ∀ more, tail ≠ '"' :: '"' :: more) :
    longBasicBody false ('"' :: tail) =
      consChar '"' (longBasicBody false tail) := by
  rw [longBasicBody]
  · rfl
  · exact fun more _ heq => h more heq
  · exact fun _ heq => absurd heq (by decide)
  · exact fun _ _ _ heq => absurd heq (by decide)
  · exact fun _ _ _ _ _ heq => absurd heq (by decide)
  · exact fun _ _ _ _ _ _ _ _ _ heq => absurd heq (by decide)
  · exact fun _ _ heq => absurd heq (by decide)

/-- Up to two quotes in a row belong to the text. -/
theorem longBasicBody_replicate {n : ℕ} (hn : n ≤ 2) (hc : c ≠ '"')
    {tail : List Char} (h : longBasicBody false (c :: tail) = some (cs, rest)) :
    longBasicBody false (List.replicate n '"' ++ c :: tail) =
      some (List.replicate n '"' ++ cs, rest) := by
  have hone : longBasicBody false ('"' :: c :: tail) =
      some ('"' :: cs, rest) := by
    rw [longBasicBody_quote fun more heq => hc (List.cons.inj heq).1, h]
    rfl
  interval_cases n
  · exact h
  · exact hone
  · have htwo : longBasicBody false ('"' :: '"' :: c :: tail) =
        some ('"' :: '"' :: cs, rest) := by
      rw [longBasicBody_quote fun more heq =>
        hc (List.cons.inj (List.cons.inj heq).2).1, hone]
      rfl
    exact htwo

/-- The run of quotes that is already written is read only when it is known how
it ends. -/
theorem longBasicBody_append {run : ℕ} (hrun : run ≤ 2) (hc : c ≠ '"')
    (cs rest : List Char) :
    longBasicBody false (List.replicate run '"' ++ (longBasicChars run cs ++
      '"' :: '"' :: '"' :: c :: rest)) =
        some (List.replicate run '"' ++ cs, c :: rest) := by
  induction cs generalizing run with
  | nil =>
      have hclosing : List.replicate run '"' ++ (longBasicChars run [] ++
          '"' :: '"' :: '"' :: c :: rest) =
          '"' :: '"' :: '"' :: (List.replicate run '"' ++ c :: rest) := by
        interval_cases run <;> rfl
      rw [hclosing, longBasicBody, closingQuotes_replicate hrun hc,
        List.append_nil]
  | cons d cs ih =>
      rw [longBasicChars]
      by_cases hquote : (decide (d = '"') && decide (run < 2)) = true
      · rw [if_pos hquote]
        rw [Bool.and_eq_true, decide_eq_true_iff, decide_eq_true_iff] at hquote
        obtain ⟨rfl, hmore⟩ := hquote
        have h := ih (Nat.succ_le_of_lt hmore)
        rw [List.replicate_succ', List.append_assoc, List.append_assoc] at h
        exact h
      · rw [if_neg hquote, List.append_assoc]
        have hescape := escape_escaped true d
        have h := ih (Nat.zero_le 2)
        rw [List.replicate_zero, List.nil_append, List.nil_append] at h
        have hread : longBasicBody false
            (escaped true d ++ (longBasicChars 0 cs ++
            '"' :: '"' :: '"' :: c :: rest)) = some (d :: cs, c :: rest) := by
          rw [longBasicBody_escape hescape, h]
          rfl
        obtain ⟨first, more, hfirst, hwritten⟩ := hescape.exists_cons
        rw [hwritten] at hread ⊢
        exact longBasicBody_replicate hrun hfirst.1 hread

/-! ## Single quotes -/

theorem literalBody_append (h : ∀ c ∈ cs, isPlain c = true ∧ c ≠ '\'') :
    literalBody (cs ++ '\'' :: rest) = some (cs, rest) := by
  induction cs with
  | nil => rfl
  | cons c cs ih =>
      have hc := h c List.mem_cons_self
      rw [List.cons_append, literalBody, if_pos hc.1,
        ih fun c hmem => h c (List.mem_cons_of_mem _ hmem)]
      · rfl
      · exact hc.2

theorem longLiteralBody_cons (h : (c == '\n' || isPlain c) = true)
    (hreturn : c ≠ '\r') {tail : List Char}
    (hquote : c = '\'' → ∀ more, tail ≠ '\'' :: '\'' :: more) :
    longLiteralBody (c :: tail) = consChar c (longLiteralBody tail) := by
  rw [longLiteralBody, if_pos h]
  · exact fun more heq => hquote heq more
  · exact fun _ heq => absurd heq hreturn

theorem longLiteralBody_closing {n : ℕ} (hn : n ≤ 2) (hc : c ≠ '\'') :
    longLiteralBody
      (List.replicate n '\'' ++ '\'' :: '\'' :: '\'' :: c :: rest) =
      some (List.replicate n '\'', c :: rest) := by
  have hclosing : List.replicate n '\'' ++ '\'' :: '\'' :: '\'' :: c :: rest =
      '\'' :: '\'' :: '\'' :: (List.replicate n '\'' ++ c :: rest) := by
    interval_cases n <;> rfl
  rw [hclosing, longLiteralBody, closingQuotes_replicate hn hc]

theorem longLiteralBody_append (hc : c ≠ '\'')
    (hplain : ∀ d ∈ cs, (d == '\n' || isPlain d) = true ∧ d ≠ '\r')
    (hrun : ¬ List.replicate 3 '\'' <:+: cs) :
    longLiteralBody (cs ++ '\'' :: '\'' :: '\'' :: c :: rest) =
      some (cs, c :: rest) := by
  induction cs with
  | nil => exact longLiteralBody_closing (Nat.zero_le 2) hc
  | cons d cs ih =>
      obtain ⟨hd, hreturn⟩ := hplain d List.mem_cons_self
      have hrest := ih (fun d hmem => hplain d (List.mem_cons_of_mem _ hmem))
        fun h => hrun (List.IsInfix.trans h (List.suffix_cons d cs).isInfix)
      have hstep : (d = '\'' → ∀ more, cs ++ '\'' :: '\'' :: '\'' :: c :: rest ≠
          '\'' :: '\'' :: more) →
          longLiteralBody (d :: cs ++ '\'' :: '\'' :: '\'' :: c :: rest) =
            some (d :: cs, c :: rest) := by
        intro hquote
        rw [List.cons_append, longLiteralBody_cons hd hreturn hquote, hrest]
        rfl
      by_cases hquote : d = '\''
      · subst hquote
        match cs with
        | [] => exact longLiteralBody_closing (n := 1) one_le_two hc
        | [x] =>
            by_cases hx : x = '\''
            · subst hx
              exact longLiteralBody_closing (n := 2) le_rfl hc
            · apply hstep
              intro _ more heq
              exact hx (List.cons.inj heq).1
        | x :: y :: more =>
            apply hstep
            rintro _ tail heq
            apply hrun
            rw [(List.cons.inj heq).1, (List.cons.inj (List.cons.inj heq).2).1]
            exact ⟨[], more, rfl⟩
      · exact hstep fun h => absurd h hquote

/-! ## Runs of quotes -/

/-- The longest run so far and the current one, with one more character. -/
def extendRuns (c : Char) (runs : ℕ × ℕ) (d : Char) : ℕ × ℕ :=
  (max runs.1 (if d = c then runs.2 + 1 else 0),
    if d = c then runs.2 + 1 else 0)

theorem longestRun_eq (c : Char) (cs : List Char) :
    longestRun c cs = (cs.foldl (extendRuns c) (0, 0)).1 :=
  rfl

theorem le_longest_foldl (runs : ℕ × ℕ) :
    runs.1 ≤ (cs.foldl (extendRuns c) runs).1 := by
  induction cs generalizing runs with
  | nil => exact le_rfl
  | cons d cs ih => exact (le_max_left _ _).trans (ih (extendRuns c runs d))

theorem current_le_longest {runs : ℕ × ℕ} (h : runs.2 ≤ runs.1) :
    (cs.foldl (extendRuns c) runs).2 ≤ (cs.foldl (extendRuns c) runs).1 := by
  induction cs generalizing runs with
  | nil => exact h
  | cons d cs ih => exact ih (le_max_right _ _)

theorem current_foldl_replicate (runs : ℕ × ℕ) (n : ℕ) :
    ((List.replicate n c).foldl (extendRuns c) runs).2 = runs.2 + n := by
  induction n generalizing runs with
  | zero => rfl
  | succ n ih =>
      rw [List.replicate_succ, List.foldl_cons, ih, extendRuns, if_pos rfl]
      omega

theorem le_longestRun {n : ℕ} (h : List.replicate n c <:+: cs) :
    n ≤ longestRun c cs := by
  obtain ⟨before, behind, rfl⟩ := h
  rw [longestRun_eq, List.foldl_append, List.foldl_append]
  obtain ⟨runs, hruns⟩ : ∃ runs,
      before.foldl (extendRuns c) (0, 0) = runs := ⟨_, rfl⟩
  have hinvariant : runs.2 ≤ runs.1 := by
    rw [← hruns]
    exact current_le_longest le_rfl
  rw [hruns]
  calc n ≤ runs.2 + n := Nat.le_add_left n _
    _ = ((List.replicate n c).foldl (extendRuns c) runs).2 :=
      (current_foldl_replicate runs n).symm
    _ ≤ ((List.replicate n c).foldl (extendRuns c) runs).1 :=
      current_le_longest hinvariant
    _ ≤ _ := le_longest_foldl _

theorem not_mem_of_longestRun_eq_zero (h : longestRun c cs = 0) : c ∉ cs := by
  intro hmem
  obtain ⟨before, behind, rfl⟩ := List.append_of_mem hmem
  have hinfix : List.replicate 1 c <:+: before ++ c :: behind :=
    ⟨before, behind, by simp⟩
  have hle := le_longestRun hinfix
  omega

/-! ## Quoted texts -/

theorem text?_double (h : ∀ more, cs ≠ '"' :: '"' :: more) :
    text? ('"' :: cs) = some (asText (basicBody cs)) := by
  unfold text?
  split
  · next heq => exact absurd (List.cons.inj heq).2 (h _)
  · next heq => exact absurd (List.cons.inj heq).1 (by decide)
  · rfl

theorem text?_single (h : ∀ more, cs ≠ '\'' :: '\'' :: more) :
    text? ('\'' :: cs) = some (asText (literalBody cs)) := by
  unfold text?
  split
  · next heq => exact absurd (List.cons.inj heq).1 (by decide)
  · next heq => exact absurd (List.cons.inj heq).2 (h _)
  · rfl

theorem toList_between (quotes : String) (body : List Char) :
    (between quotes body).toList =
      quotes.toList ++ (body ++ quotes.toList) := by
  rw [between, String.toList_append, String.toList_append, String.toList_ofList,
    List.append_assoc]

theorem toList_betweenLong (quotes : String) (body : List Char) :
    (betweenLong quotes body).toList =
      quotes.toList ++
        ((if '\n' ∈ body then ['\n'] else []) ++ (body ++ quotes.toList)) := by
  rw [betweenLong, String.toList_append, String.toList_append,
    String.toList_append, String.toList_ofList, List.append_assoc,
    List.append_assoc]
  split <;> rfl

/-- A text that is read back in front of a line break. -/
def IsQuoteOf (text : String) (cs : List Char) : Prop :=
  ∀ rest, text? (text.toList ++ '\n' :: rest) =
    some (some (String.ofList cs, '\n' :: rest))

theorem isQuoteOf_basic (cs : List Char) :
    IsQuoteOf (between "\"" (basicChars cs)) cs := by
  intro rest
  have htext : (between "\"" (basicChars cs)).toList ++ '\n' :: rest =
      '"' :: (basicChars cs ++ '"' :: '\n' :: rest) := by
    rw [toList_between]
    simp
  rw [htext, text?_double, basicBody_append]
  · rfl
  · intro more heq
    cases cs with
    | nil => exact absurd (List.cons.inj (List.cons.inj heq).2).1 (by decide)
    | cons c cs =>
        obtain ⟨d, written, hd, hwritten⟩ :=
          (escape_escaped false c).exists_cons
        have hchars : basicChars (c :: cs) = escaped false c ++ basicChars cs :=
          List.flatMap_cons
        rw [hchars, hwritten] at heq
        exact hd.1 (List.cons.inj heq).1

theorem isQuoteOf_literal (h : ∀ c ∈ cs, isPlain c = true ∧ c ≠ '\'') :
    IsQuoteOf (between "\x27" cs) cs := by
  intro rest
  have htext : (between "\x27" cs).toList ++ '\n' :: rest =
      '\'' :: (cs ++ '\'' :: '\n' :: rest) := by
    rw [toList_between]
    simp
  rw [htext, text?_single, literalBody_append h]
  · rfl
  · intro more heq
    cases cs with
    | nil => exact absurd (List.cons.inj (List.cons.inj heq).2).1 (by decide)
    | cons c cs => exact (h c List.mem_cons_self).2 (List.cons.inj heq).1

/-- The line break that is left out behind opening quotes is not one of
the text. -/
theorem skipNewline_append (hnewline : c ≠ '\n') (hreturn : c ≠ '\r')
    (hhead : cs.head? ≠ some '\r') :
    skipNewline ((if '\n' ∈ cs then ['\n'] else []) ++ (cs ++ c :: rest)) =
      cs ++ c :: rest := by
  by_cases hmem : '\n' ∈ cs
  · rw [if_pos hmem]
    rfl
  · rw [if_neg hmem, List.nil_append, skipNewline]
    cases cs with
    | nil =>
        rw [List.nil_append, newline?_cons hnewline hreturn]
        rfl
    | cons d cs =>
        have hd : d ≠ '\n' := fun h => hmem (h ▸ List.mem_cons_self)
        have hd' : d ≠ '\r' := fun h => hhead (by rw [h]; rfl)
        rw [List.cons_append, newline?_cons hd hd']
        rfl

theorem head?_longBasicChars (cs : List Char) :
    (longBasicChars 0 cs).head? ≠ some '\r' := by
  cases cs with
  | nil => exact nofun
  | cons c cs =>
      rw [longBasicChars]
      split
      · next h =>
          rw [Bool.and_eq_true, decide_eq_true_iff] at h
          rw [h.1, List.head?_cons]
          exact fun heq => absurd (Option.some.inj heq) (by decide)
      · obtain ⟨d, more, hd, hwritten⟩ := (escape_escaped true c).exists_cons
        rw [hwritten]
        exact fun h => hd.2 (Option.some.inj h)

theorem isQuoteOf_longBasic (cs : List Char) :
    IsQuoteOf (betweenLong "\"\"\"" (longBasicChars 0 cs)) cs := by
  intro rest
  have htext : (betweenLong "\"\"\"" (longBasicChars 0 cs)).toList ++
      '\n' :: rest =
      '"' :: '"' :: '"' ::
        ((if '\n' ∈ longBasicChars 0 cs then ['\n'] else []) ++
        (longBasicChars 0 cs ++ '"' :: '"' :: '"' :: '\n' :: rest)) := by
    rw [toList_betweenLong]
    simp
  have hbody :=
    longBasicBody_append (Nat.zero_le 2) (by decide : '\n' ≠ '"') cs rest
  rw [List.replicate_zero, List.nil_append, List.nil_append] at hbody
  rw [htext, text?,
    skipNewline_append (by decide) (by decide) (head?_longBasicChars cs), hbody]
  rfl

theorem isQuoteOf_longLiteral
    (hplain : ∀ d ∈ cs, (d == '\n' || isPlain d) = true ∧ d ≠ '\r')
    (hrun : ¬ List.replicate 3 '\'' <:+: cs) :
    IsQuoteOf (betweenLong "\x27\x27\x27" cs) cs := by
  intro rest
  have htext : (betweenLong "\x27\x27\x27" cs).toList ++ '\n' :: rest =
      '\'' :: '\'' :: '\'' :: ((if '\n' ∈ cs then ['\n'] else []) ++
        (cs ++ '\'' :: '\'' :: '\'' :: '\n' :: rest)) := by
    rw [toList_betweenLong]
    simp
  have hhead : cs.head? ≠ some '\r' :=
    fun h => (hplain '\r' (List.mem_of_head? h)).2 rfl
  rw [htext, text?, skipNewline_append (by decide) (by decide) hhead,
    longLiteralBody_append (by decide) hplain hrun]
  rfl

/-- Every text is read back from the text that is written for it. -/
theorem isQuoteOf_quote (s : String) : IsQuoteOf (quote s) s.toList := by
  have hbasic := isQuoteOf_basic s.toList
  have hlongBasic := isQuoteOf_longBasic s.toList
  have hcontrol : s.toList.any isControl = false →
      ∀ c ∈ s.toList, isControl c = false := by
    intro h c hc
    exact Bool.eq_false_iff.mpr (List.any_eq_false.mp h c hc)
  rw [quote]
  split
  · exact hbasic
  split
  · next h =>
      rw [Bool.and_eq_true, Bool.and_eq_true, Bool.not_eq_true',
        Bool.not_eq_true', beq_iff_eq, decide_eq_false_iff_not] at h
      apply isQuoteOf_literal
      intro c hc
      refine ⟨isPlain_of_isControl_eq_false (hcontrol h.1.1 c hc) ?_, ?_⟩
      · rintro rfl
        exact h.2 hc
      · rintro rfl
        exact not_mem_of_longestRun_eq_zero h.1.2 hc
  split
  · exact hlongBasic
  split
  · next h =>
      rw [Bool.and_eq_true, Bool.not_eq_true', decide_eq_true_iff] at h
      apply isQuoteOf_longLiteral
      · intro c hc
        have hc' := hcontrol h.1 c hc
        constructor
        · rw [Bool.or_eq_true, beq_iff_eq]
          by_cases hnewline : c = '\n'
          · exact .inl hnewline
          · exact .inr (isPlain_of_isControl_eq_false hc' hnewline)
        · rintro rfl
          exact absurd hc' (by decide)
      · intro hrun
        have hle := le_longestRun hrun
        have htwo : longestRun '\'' s.toList ≤ 2 := h.2
        omega
  split
  · exact hlongBasic
  · exact hbasic

end Toml
end NumericalMethods
