import NumericalMethods.Config.Document
import NumericalMethods.Proofs.Binary64.Finite
import NumericalMethods.Proofs.Config.Validation
import NumericalMethods.Proofs.Toml.Codec

/-!
# Configurations read back from their documents

A usable configuration is read back from its document, all fourteen settings at
once, with any codec that reads back the tables it writes.  There is no document
only where a count is beyond the largest signed machine number.
-/

namespace NumericalMethods
namespace Config

open Toml

variable {c : Config Float}

/-! ## Usable configurations -/

/-- The counts of a configuration. -/
def counts (c : Config Float) : List ℕ :=
  [c.maxIterations, c.initialSubintervals, c.maxSubintervals,
    c.maxCorrectorIterations, c.maxStepHalvings]

/-- All counts are signed machine numbers. -/
def IsEncodable (c : Config Float) : Prop :=
  ∀ n ∈ c.counts, n < Machine.signedBound

instance (c : Config Float) : Decidable c.IsEncodable :=
  List.decidableBAll (fun n => n < Machine.signedBound) c.counts

/-- The numbers of a configuration. -/
def numbers (c : Config Float) : List Float :=
  c.weakCorrelation :: c.positives.map Prod.snd

theorem isFinite_of_validate (h : c.validate = .ok ()) :
    ∀ x ∈ c.numbers, x.isFinite = true := by
  have husable := usable_of_validate h
  intro x hx
  rcases List.mem_cons.mp hx with rfl | hx
  · exact Binary64.isFinite_of_le_of_le rfl rfl husable.correlation.1
      husable.correlation.2
  · obtain ⟨p, hp, rfl⟩ := List.mem_map.mp hx
    exact (Bool.and_eq_true_iff.mp (husable.positive p hp)).2

/-! ## Entries -/

section Settings

variable {name : String}

theorem setting_count {n d : ℕ} (hn : n < Machine.signedBound)
    (hfind : c.entries.find? name = some (.integer n)) :
    setting c.entries asCount name d = some n := by
  have hsigned : Machine.signedBound = 2 ^ 63 := rfl
  have hcount : Machine.countBound = 2 ^ 64 := rfl
  rw [setting, hfind]
  dsimp only
  rw [asCount, if_pos (by omega), Int.toNat_natCast]

theorem setting_number {x d : Float}
    (hfind : c.entries.find? name = some (.float x)) :
    setting c.entries asNumber name d = some x := by
  rw [setting, hfind]
  rfl

theorem setting_boolean {b d : Bool}
    (hfind : c.entries.find? name = some (.boolean b)) :
    setting c.entries asBoolean name d = some b := by
  rw [setting, hfind]
  rfl

theorem setting_text {s d : String}
    (hfind : c.entries.find? name = some (.text s)) :
    setting c.entries asText name d = some s := by
  rw [setting, hfind]
  rfl

theorem setting_logFile :
    setting c.entries (fun v => (asText v).map some) "log_file"
      (standard : Config Float).logFile =
      some c.logFile := by
  cases hfile : c.logFile with
  | none =>
      have hfind : c.entries.find? "log_file" = none := by
        rw [entries, hfile]
        rfl
      rw [setting, hfind]
      rfl
  | some file =>
      have hfind : c.entries.find? "log_file" = some (.text file) := by
        rw [entries, hfile]
        rfl
      rw [setting, hfind]
      rfl

end Settings

/-- The entries of a configuration give all its settings back. -/
theorem ofEntries_entries (h : c.IsEncodable) :
    ofEntries c.entries = some c := by
  have hmaxIterations := h c.maxIterations (by simp [counts])
  have hinitialSubintervals := h c.initialSubintervals (by simp [counts])
  have hmaxSubintervals := h c.maxSubintervals (by simp [counts])
  have hmaxCorrectorIterations := h c.maxCorrectorIterations (by simp [counts])
  have hmaxStepHalvings := h c.maxStepHalvings (by simp [counts])
  rw [ofEntries, setting_count (n := c.maxIterations) hmaxIterations rfl,
    setting_number (x := c.derivativeFloor) rfl,
    setting_number (x := c.divisorFloor) rfl,
    setting_number (x := c.determinantFloor) rfl,
    setting_number (x := c.divergenceBound) rfl,
    setting_count (n := c.initialSubintervals) hinitialSubintervals rfl,
    setting_count (n := c.maxSubintervals) hmaxSubintervals rfl,
    setting_number (x := c.singularityOffset) rfl,
    setting_count (n := c.maxCorrectorIterations) hmaxCorrectorIterations rfl,
    setting_boolean (b := c.refineOdeStep) rfl,
    setting_count (n := c.maxStepHalvings) hmaxStepHalvings rfl,
    setting_number (x := c.weakCorrelation) rfl,
    setting_text (s := c.logLevel) rfl, setting_logFile]
  rfl

/-- The names of all settings, that of the log file at the end. -/
def settingNames : List String :=
  ["max_iterations", "derivative_floor", "divisor_floor", "determinant_floor",
    "divergence_bound", "initial_subintervals", "max_subintervals",
    "singularity_offset", "max_corrector_iterations", "refine_ode_step",
    "max_step_halvings", "weak_correlation", "log_level", "log_file"]

theorem sublist_settingNames (c : Config Float) :
    (c.entries.map Prod.fst).Sublist settingNames := by
  rw [entries]
  cases c.logFile with
  | none => exact List.dropLast_sublist settingNames
  | some file => exact List.Sublist.refl settingNames

/-- The entries of a configuration hold its counts, its numbers, truth values
and texts. -/
theorem value_of_mem_entries (c : Config Float) :
    ∀ entry ∈ c.entries, (∃ n ∈ c.counts, entry.2 = .integer n) ∨
      (∃ x ∈ c.numbers, entry.2 = .float x) ∨
      (∃ b, entry.2 = .boolean b) ∨ ∃ s, entry.2 = .text s := by
  rw [entries, List.forall_mem_append]
  constructor
  · simp [counts, numbers, positives]
  · cases c.logFile with
    | none => simp
    | some file => simp

theorem isFlat_entries (hvalid : c.validate = .ok ()) (h : c.IsEncodable) :
    IsFlat c.entries where
  nodup := (sublist_settingNames c).nodup (by decide)
  isName entry hentry := by
    have hnames : ∀ name ∈ settingNames, IsName name := by decide
    have hmem := (sublist_settingNames c).subset (List.mem_map_of_mem hentry)
    exact hnames _ hmem
  isPlain entry hentry := by
    obtain ⟨n, hn, hv⟩ | ⟨x, hx, hv⟩ | ⟨b, hv⟩ | ⟨s, hv⟩ :=
      value_of_mem_entries c entry hentry
    · exact hv ▸ .count (h n hn)
    · exact hv ▸ .float (isFinite_of_validate hvalid x hx)
    · exact hv ▸ .boolean b
    · exact hv ▸ .text s

theorem exists_mem_entries :
    ∀ n ∈ c.counts, ∃ name, (name, Value.integer n) ∈ c.entries := by
  intro n hn
  simp only [counts, List.mem_cons, List.not_mem_nil, or_false] at hn
  rcases hn with rfl | rfl | rfl | rfl | rfl
  · exact ⟨"max_iterations", by simp [entries]⟩
  · exact ⟨"initial_subintervals", by simp [entries]⟩
  · exact ⟨"max_subintervals", by simp [entries]⟩
  · exact ⟨"max_corrector_iterations", by simp [entries]⟩
  · exact ⟨"max_step_halvings", by simp [entries]⟩

/-! ## Documents -/

/-- With any faithful codec, a usable configuration whose counts are signed
machine numbers is read back from its document.  With a larger count the codec
refuses: there is an error or an abort, and no document. -/
theorem ofDocument_toDocument
    {codec : Codec} (hcodec : codec.Faithful) (hvalid : c.validate = .ok ())
    (hcounts : ∀ n ∈ c.counts, n < Machine.countBound) :
    (c.IsEncodable → ∃ document, toDocument codec c = .ok document ∧
      ofDocument codec document = .ok c) ∧
    (¬ c.IsEncodable → ∃ refusal, codec.write c.entries = .error refusal ∧
      toDocument codec c = .error (failureOf refusal)) := by
  constructor
  · intro h
    obtain ⟨document, hwrite, hread⟩ :=
      hcodec.read_write c.entries (isFlat_entries hvalid h)
    refine ⟨document, by rw [toDocument, hwrite]; rfl, ?_⟩
    rw [ofDocument, hread, Option.bind_some, ofEntries_entries h]
    dsimp only
    rw [hvalid]
    rfl
  · intro h
    rw [IsEncodable] at h
    push Not at h
    obtain ⟨n, hn, hlarge⟩ := h
    obtain ⟨name, hmem⟩ := exists_mem_entries n hn
    obtain ⟨refusal, hwrite⟩ :=
      hcodec.refuses c.entries name n hmem hlarge (hcounts n hn)
    exact ⟨refusal, hwrite, by rw [toDocument, hwrite]; rfl⟩

theorem ofDocument_toDocument_standard :
    (standard : Config Float).validate = .ok () ∧
      (standard : Config Float).IsEncodable ∧
      ∃ document, toDocument codec standard = .ok document ∧
        ofDocument codec document = .ok standard :=
  ⟨validate_standard, by decide,
    (ofDocument_toDocument faithful_codec validate_standard (by decide)).1
      (by decide)⟩

/-- The standard configuration with a cap that is a machine count, but no
signed one. -/
def unboundedIterations : Config Float :=
  { standard with maxIterations := 2 ^ 63 }

/-- No faithful codec, of which there is one, has a document for it. -/
theorem not_toDocument_unboundedIterations :
    codec.Faithful ∧ unboundedIterations.validate = .ok () ∧
      (∀ n ∈ unboundedIterations.counts, n < Machine.countBound) ∧
      ∀ codec : Codec, codec.Faithful →
        ¬ ∃ document, toDocument codec unboundedIterations = .ok document ∧
          ofDocument codec document = .ok unboundedIterations := by
  refine ⟨faithful_codec, by decide +kernel, by decide, ?_⟩
  rintro codec hcodec ⟨document, hdocument, -⟩
  have hmem : ("max_iterations", Value.integer (2 ^ 63 : ℕ)) ∈
      unboundedIterations.entries :=
    List.mem_cons_self
  obtain ⟨refusal, hwrite⟩ := hcodec.refuses _ _ _ hmem (by decide) (by decide)
  rw [toDocument, hwrite] at hdocument
  cases hdocument

end Config
end NumericalMethods
