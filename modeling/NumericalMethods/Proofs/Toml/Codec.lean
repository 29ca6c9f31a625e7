import NumericalMethods.Proofs.Toml.Document
import NumericalMethods.Toml.Codec

/-!
# Codecs that read back what they write

What is asked of a codec concerns flat tables: plain names, each with a text, a
truth value, a finite number or a signed machine number.  Such tables are
written, and read back from their documents.  A count that is no signed machine
number is not written.  The codec of this library has these properties.
-/

namespace NumericalMethods
namespace Toml

/-- A value that is written as it is. -/
inductive IsPlain : Value → Prop where
  | text (s : String) : IsPlain (.text s)
  | boolean (b : Bool) : IsPlain (.boolean b)
  | float {x : Float} : x.isFinite = true → IsPlain (.float x)
  | count {n : ℕ} : n < Machine.signedBound → IsPlain (.integer n)

/-- Plain values under names that differ from one another. -/
structure IsFlat (entries : Entries) : Prop where
  nodup : (entries.map Prod.fst).Nodup
  isName : ∀ entry ∈ entries, IsName entry.1
  isPlain : ∀ entry ∈ entries, IsPlain entry.2

/-- A codec that reads flat tables back, and writes whole numbers as signed
machine numbers or not at all. -/
structure Codec.Faithful (codec : Codec) : Prop where
  read_write (entries : Entries) : IsFlat entries →
    ∃ document, codec.write entries = .ok document ∧
      codec.read document = some entries
  refuses (entries : Entries) (name : String) (n : ℕ) :
      (name, .integer n) ∈ entries →
    Machine.signedBound ≤ n → n < Machine.countBound →
      ∃ refusal, codec.write entries = .error refusal

/-! ## One value on each line -/

theorem exists_text_of_isPlain {v : Value} (hv : IsPlain v) :
    ∃ text, valueText v = .ok text ∧ IsTextOf text v := by
  cases hv with
  | text s => exact ⟨_, rfl, isTextOf_quote s⟩
  | boolean b => exact ⟨_, rfl, (isPlainText_boolean b).isTextOf⟩
  | float hx => exact ⟨_, rfl, (isPlainText_float hx).isTextOf⟩
  | @count n hn =>
      have hinteger : integer n = some (toString n) := by
        rw [integer, if_pos (by omega)]
        rfl
      exact ⟨toString n, by rw [valueText, hinteger],
        (isPlainText_toString hn).isTextOf⟩

/-- The entries of a flat table are those of lines. -/
theorem exists_lines {entries : Entries}
    (hname : ∀ entry ∈ entries, IsName entry.1)
    (hplain : ∀ entry ∈ entries, IsPlain entry.2) :
    ∃ lines : List Line, entries = lines.map Line.entry ∧
      entries.mapM lineOf = .ok (lines.map Line.render) := by
  induction entries with
  | nil => exact ⟨[], rfl, rfl⟩
  | cons entry entries ih =>
      obtain ⟨hfirst, hname⟩ := List.forall_mem_cons.mp hname
      obtain ⟨hvalue, hplain⟩ := List.forall_mem_cons.mp hplain
      obtain ⟨lines, rfl, hrender⟩ := ih hname hplain
      obtain ⟨text, htext, hread⟩ := exists_text_of_isPlain hvalue
      refine ⟨⟨entry.1, text, entry.2, hfirst, hread⟩ :: lines, ?_, ?_⟩
      · rfl
      · rw [List.mapM_cons, lineOf, htext, hrender]
        rfl

/-- A value without a text leaves the whole table without a document. -/
theorem exists_refusal_of_mem {entries : Entries} {entry : String × Value}
    {refusal : Refusal} (hmem : entry ∈ entries)
    (hentry : valueText entry.2 = .error refusal) :
    ∃ refusal, entries.mapM lineOf = .error refusal := by
  induction entries with
  | nil => cases hmem
  | cons first entries ih =>
      rw [List.mapM_cons]
      cases hfirst : lineOf first with
      | error other => exact ⟨other, rfl⟩
      | ok line =>
          rcases List.mem_cons.mp hmem with rfl | hmem
          · rw [lineOf, hentry] at hfirst
            cases hfirst
          · obtain ⟨other, hother⟩ := ih hmem
            exact ⟨other, by rw [hother]; rfl⟩

theorem faithful_codec : codec.Faithful where
  read_write entries hflat := by
    obtain ⟨lines, rfl, hrender⟩ := exists_lines hflat.isName hflat.isPlain
    have hwrite : write (lines.map Line.entry) =
        .ok (String.join (lines.map Line.render)) := by
      rw [write, hrender]
      rfl
    refine ⟨_, hwrite, read?_eq_some lines ?_⟩
    have hnodup := hflat.nodup
    rw [List.map_map] at hnodup
    exact hnodup
  refuses entries name n hmem hlarge _ := by
    have hinteger : integer n = none := if_neg (by omega)
    have hentry : valueText (.integer n) =
        .error (.abort .unwritableNumber) := by
      rw [valueText, hinteger]
    obtain ⟨refusal, hrefusal⟩ := exists_refusal_of_mem hmem hentry
    exact ⟨refusal, congrArg (Except.map String.join) hrefusal⟩

end Toml
end NumericalMethods
