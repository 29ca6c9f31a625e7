import Mathlib.Data.List.Nodup
import NumericalMethods.Proofs.Toml.Plain
import NumericalMethods.Proofs.Toml.Quoted
import NumericalMethods.Toml.Reader

/-!
# Documents of one setting on each line

A document that assigns values to distinct names, one on each line, is read as
the list of its entries.
-/

namespace NumericalMethods
namespace Toml

variable {cs rest : List Char} {c : Char}

/-! ## Texts of values -/

/-- A text that is read as a value in front of a line break. -/
structure IsTextOf (text : String) (v : Value) : Prop where
  skipBlanks_eq (rest : List Char) :
    skipBlanks (text.toList ++ '\n' :: rest) = text.toList ++ '\n' :: rest
  value_eq (room bound : ℕ) (rest : List Char) :
    value room (bound + 1) (text.toList ++ '\n' :: rest) =
      some (v, '\n' :: rest)

theorem shortText?_eq_none (hdouble : c ≠ '"') (hsingle : c ≠ '\'') :
    shortText? (c :: rest) = none := by
  unfold shortText?
  split
  · next heq => exact absurd (List.cons.inj heq).1 hdouble
  · next heq => exact absurd (List.cons.inj heq).1 hsingle
  · rfl

theorem text?_eq_none (hdouble : c ≠ '"') (hsingle : c ≠ '\'') :
    text? (c :: rest) = none := by
  unfold text?
  split
  · next heq => exact absurd (List.cons.inj heq).1 hdouble
  · next heq => exact absurd (List.cons.inj heq).1 hsingle
  · exact shortText?_eq_none hdouble hsingle

/-- What opens no bracket is read as a text in quotes or as a run of
characters. -/
theorem value_cons (hbracket : c ≠ '[') (hbrace : c ≠ '\x7b') (room bound : ℕ) :
    value room (bound + 1) (c :: rest) =
      match text? (c :: rest) with
      | some reading => reading.map fun (s, rest) => (.text s, rest)
      | none =>
        (plainValue? (spanPlain (c :: rest)).1).map fun v =>
          (v, (spanPlain (c :: rest)).2) := by
  unfold value
  cases text? (c :: rest) with
  | some reading => rfl
  | none =>
      dsimp only
      split
      · next heq => exact absurd (List.cons.inj heq).1 hbracket
      · next heq => exact absurd (List.cons.inj heq).1 hbrace
      · rfl

theorem isTextOf_quote (s : String) : IsTextOf (quote s) (.text s) := by
  have hread := isQuoteOf_quote s
  have hquote : ∃ c more, (c = '"' ∨ c = '\'') ∧
      (quote s).toList ++ ['\n'] = c :: more := by
    cases hcons : (quote s).toList ++ ['\n'] with
    | nil => simp at hcons
    | cons c more =>
        refine ⟨c, more, ?_, rfl⟩
        by_contra hc
        have h := hread []
        rw [hcons,
          text?_eq_none (fun h => hc (.inl h)) (fun h => hc (.inr h))] at h
        cases h
  obtain ⟨c, more, hc, hcons⟩ := hquote
  have hblank : c ≠ ' ' ∧ c ≠ '\t' ∧ c ≠ '[' ∧ c ≠ '\x7b' := by
    rcases hc with rfl | rfl
    · decide
    · decide
  have happend : ∀ rest, (quote s).toList ++ '\n' :: rest =
      c :: (more ++ rest) := by
    intro rest
    rw [← List.singleton_append, ← List.append_assoc, hcons, List.cons_append]
  constructor
  · intro rest
    rw [happend]
    exact skipBlanks_cons hblank.1 hblank.2.1
  · intro room bound rest
    have h := hread rest
    rw [happend] at h ⊢
    rw [value_cons hblank.2.2.1 hblank.2.2.2, h, String.ofList_toList]
    rfl

theorem IsPlainText.isTextOf {text : String} {v : Value}
    (h : IsPlainText text.toList v) :
    IsTextOf text v := by
  obtain ⟨c, more, hcons⟩ := List.exists_cons_of_ne_nil h.ne_nil
  have hc : isPlainPart c = true :=
    h.parts c (by rw [hcons]; exact List.mem_cons_self)
  constructor
  · intro rest
    rw [hcons]
    exact skipBlanks_cons (ne_of_apply hc (by decide))
      (ne_of_apply hc (by decide))
  · intro room bound rest
    have hspan : spanPlain (text.toList ++ '\n' :: rest) =
      (text.toList, '\n' :: rest) :=
      spanPlain_newline h.parts
    rw [hcons, List.cons_append] at hspan ⊢
    rw [value_cons (ne_of_apply hc (by decide)) (ne_of_apply hc (by decide)),
      text?_eq_none (ne_of_apply hc (by decide)) (ne_of_apply hc (by decide)),
      hspan, ← hcons, h.plainValue?_eq, Option.map_some]

/-! ## Lines -/

/-- A name that needs no quotes. -/
def IsName (name : String) : Prop :=
  name.toList ≠ [] ∧ ∀ c ∈ name.toList, isKeyPart c = true

instance (name : String) : Decidable (IsName name) :=
  decidable_of_iff (name.toList ≠ [] ∧ name.toList.all isKeyPart = true)
    (and_congr_right fun _ => List.all_eq_true)

/-- A line that assigns a value to a name. -/
structure Line where
  name : String
  text : String
  value : Value
  isName : IsName name
  isTextOf : IsTextOf text value

namespace Line

def chars (l : Line) : List Char :=
  l.name.toList ++ ' ' :: '=' :: ' ' :: (l.text.toList ++ ['\n'])

def render (l : Line) : String :=
  l.name ++ " = " ++ l.text ++ "\n"

def entry (l : Line) : String × Value :=
  (l.name, l.value)

def statement (l : Line) : Statement :=
  .assign [l.name] l.value

end Line

variable (l : Line)

theorem Line.chars_append : l.chars ++ rest =
    l.name.toList ++ ' ' :: '=' :: ' ' :: (l.text.toList ++ '\n' :: rest) := by
  rw [chars, List.append_assoc, List.cons_append, List.cons_append,
    List.cons_append, List.append_assoc, List.singleton_append]

theorem Line.exists_name_eq :
    ∃ c more, l.name.toList = c :: more ∧ isKeyPart c = true := by
  obtain ⟨c, more, hcons⟩ := List.exists_cons_of_ne_nil l.isName.1
  exact ⟨c, more, hcons, l.isName.2 c (by rw [hcons]; exact List.mem_cons_self)⟩

theorem Line.toList_render : l.render.toList = l.chars := by
  rw [render, String.toList_append, String.toList_append, String.toList_append,
    List.append_assoc, List.append_assoc]
  rfl

theorem keyPart_name :
    keyPart (l.name.toList ++ ' ' :: rest) = some (l.name, ' ' :: rest) := by
  obtain ⟨c, more, hcons, hc⟩ := l.exists_name_eq
  have hspan : (l.name.toList ++ ' ' :: rest).span isKeyPart =
    (l.name.toList, ' ' :: rest) :=
    span_append_cons l.isName.2 (by decide)
  have hquote : shortText? (l.name.toList ++ ' ' :: rest) = none := by
    rw [hcons]
    exact shortText?_eq_none (ne_of_apply hc (by decide))
      (ne_of_apply hc (by decide))
  have hempty : l.name.toList.isEmpty = false :=
    List.isEmpty_eq_false_iff.mpr l.isName.1
  simp only [keyPart, hquote, hspan, hempty, String.ofList_toList]
  rfl

theorem skipBlanks_name : skipBlanks (l.name.toList ++ rest) =
    l.name.toList ++ rest := by
  obtain ⟨c, more, hcons, hc⟩ := l.exists_name_eq
  rw [hcons]
  exact skipBlanks_cons (ne_of_apply hc (by decide))
    (ne_of_apply hc (by decide))

theorem key_name (bound : ℕ) :
    key (bound + 1) (l.name.toList ++ ' ' :: '=' :: rest) =
      some ([l.name], '=' :: rest) := by
  have hblanks : skipBlanks (' ' :: '=' :: rest) = '=' :: rest := rfl
  rw [key, skipBlanks_name, keyPart_name]
  simp only [Option.bind_eq_bind, Option.bind_some, hblanks]
  rfl

theorem keyValue_chars (room bound : ℕ) :
    keyValue room (bound + 2) (l.chars ++ rest) =
      some ([l.name], l.value, '\n' :: rest) := by
  have hblanks : skipBlanks (' ' :: (l.text.toList ++ '\n' :: rest)) =
      l.text.toList ++ '\n' :: rest := by
    have hblank : skipBlanks (' ' :: (l.text.toList ++ '\n' :: rest)) =
        skipBlanks (l.text.toList ++ '\n' :: rest) := rfl
    rw [hblank, l.isTextOf.skipBlanks_eq]
  rw [keyValue, l.chars_append, depthLimit, key_name]
  simp only [Option.bind_eq_bind, Option.bind_some, hblanks,
    l.isTextOf.value_eq]
  rfl

theorem statement_chars (bound : ℕ) :
    statement (bound + 2) (l.chars ++ rest) =
      some (some l.statement, '\n' :: rest) := by
  obtain ⟨c, more, hcons, hc⟩ := l.exists_name_eq
  have hread : keyValue depthLimit (bound + 2) (l.chars ++ rest) =
      some ([l.name], l.value, '\n' :: rest) :=
        keyValue_chars l depthLimit bound
  have hchars : ∃ tail, l.chars ++ rest = c :: tail :=
    ⟨_, by rw [l.chars_append, hcons]; rfl⟩
  obtain ⟨tail, htail⟩ := hchars
  rw [htail] at hread ⊢
  unfold statement
  split
  · next heq => exact absurd (List.cons.inj heq).1 (ne_of_apply hc (by decide))
  · next heq => exact absurd (List.cons.inj heq).1 (ne_of_apply hc (by decide))
  · have hline :
        ¬ ((c :: tail).isEmpty || decide ((c :: tail).head? = some '#') ||
        (newline? (c :: tail)).isSome) = true := by
      have hcomment : (c :: tail).head? ≠ some '#' :=
        fun h => ne_of_apply hc (by decide) (Option.some.inj h)
      rw [newline?_cons (ne_of_apply hc (by decide))
        (ne_of_apply hc (by decide)),
        decide_eq_false hcomment]
      exact Bool.false_ne_true
    rw [if_neg hline, hread]
    rfl

/-! ## Documents -/

theorem statements_chars (lines : List Line) {length bound : ℕ}
    (hlength : 2 ≤ length) (hbound : lines.length < bound) :
    statements length bound (lines.flatMap Line.chars) =
      some (lines.map Line.statement) := by
  obtain ⟨room, rfl⟩ := Nat.exists_eq_add_of_le' hlength
  induction lines generalizing bound with
  | nil =>
      obtain ⟨bound, rfl⟩ := Nat.exists_eq_add_of_lt hbound
      rw [List.length_nil, Nat.zero_add]
      rfl
  | cons l lines ih =>
      obtain ⟨bound, rfl⟩ : ∃ n, bound = n + 1 := ⟨bound - 1, by omega⟩
      have hshorter : lines.length < bound := by
        rw [List.length_cons] at hbound
        omega
      have hrest := ih hshorter
      have hfront : skipBlanks (l.chars ++ lines.flatMap Line.chars) =
          l.chars ++ lines.flatMap Line.chars := by
        rw [Line.chars_append, skipBlanks_name]
      have hend : skipComment (skipBlanks ('\n' :: lines.flatMap Line.chars)) =
          '\n' :: lines.flatMap Line.chars := rfl
      have hnewline : newline? ('\n' :: lines.flatMap Line.chars) =
          some (lines.flatMap Line.chars) := rfl
      rw [List.flatMap_cons, statements, hfront, statement_chars]
      simp only [Option.bind_eq_bind, Option.bind_some, hend, hnewline, hrest]
      rfl

theorem find?_eq_none {entries : Entries} {name : String}
    (h : name ∉ entries.map Prod.fst) :
    entries.find? name = none := by
  rw [Entries.find?, List.lookup_eq_none_iff]
  intro entry hmem
  rw [bne_iff_ne]
  rintro rfl
  exact h (List.mem_map_of_mem hmem)

theorem assemble_statements (lines : List Line) (entries : Entries)
    (hnodup : (entries.map Prod.fst ++ lines.map Line.name).Nodup) :
    assemble (lines.map Line.statement) [] entries =
      some (entries ++ lines.map Line.entry) := by
  induction lines generalizing entries with
  | nil =>
      rw [List.map_nil, List.map_nil, List.append_nil]
      rfl
  | cons l lines ih =>
      have hnew : l.name ∉ entries.map Prod.fst := by
        rw [List.map_cons] at hnodup
        exact fun h =>
          (List.nodup_append.mp hnodup).2.2 _ h _ List.mem_cons_self rfl
      have hassign : entries.assign l.value [l.name] true =
          some (entries ++ [l.entry]) := by
        rw [Entries.assign, find?_eq_none hnew]
        rfl
      have hrest := ih (entries ++ [l.entry]) (by
        rw [List.map_append, List.append_assoc]
        exact hnodup)
      rw [List.append_assoc] at hrest
      rw [List.map_cons, Line.statement, assemble, Entries.change, hassign]
      exact hrest

theorem length_le_length_flatMap (lines : List Line) :
    lines.length ≤ (lines.flatMap Line.chars).length := by
  induction lines with
  | nil => exact le_rfl
  | cons l lines ih =>
      have hline : 0 < l.chars.length := by
        rw [Line.chars, List.length_append, List.length_cons]
        omega
      rw [List.flatMap_cons, List.length_append, List.length_cons]
      omega

/-- A document of lines is read as their entries. -/
theorem read?_eq_some (lines : List Line)
    (hnodup : (lines.map Line.name).Nodup) :
    read? (String.join (lines.map Line.render)) =
      some (lines.map Line.entry) := by
  have hdocument : (String.join (lines.map Line.render)).toList =
      lines.flatMap Line.chars := by
    rw [String.toList_join, List.flatMap_map]
    exact List.flatMap_congr fun l _ => l.toList_render
  obtain ⟨cs, hcs⟩ : ∃ cs, lines.flatMap Line.chars = cs := ⟨_, rfl⟩
  have hread : read? (String.join (lines.map Line.render)) =
      (statements (2 * cs.length + 2) (2 * cs.length + 2) cs).bind fun found =>
        assemble found [] [] := by
    unfold read?
    split
    · next heq =>
        rw [hdocument] at heq
        cases lines with
        | nil => cases heq
        | cons l lines =>
            obtain ⟨c, more, hcons, hc⟩ := l.exists_name_eq
            rw [List.flatMap_cons, l.chars_append, hcons] at heq
            exact absurd (List.cons.inj heq).1 (ne_of_apply hc (by decide))
    · rw [hdocument, hcs]
      rfl
  have hlength := length_le_length_flatMap lines
  have hassemble := assemble_statements lines [] (by simpa using hnodup)
  rw [hread, ← hcs, statements_chars lines (by omega) (by omega)]
  exact hassemble

end Toml
end NumericalMethods
