import NumericalMethods.Proofs.LinearSystem.Document.Reading

/-!
# Reading a document

Storage for the rows is reserved as soon as the order is known, before anything
else of the document is looked at.  This is the only place where reading can end
without an answer.  Every other document is read exactly if its lines describe a
system, and gives the error of the first check that fails if they do not.
-/

namespace NumericalMethods
namespace LinearSystem

/-! ## Storage -/

/-- The document declares an order whose rows cannot be stored.  A row takes 24
bytes, whatever it holds. -/
def Oversized (document : String) : Prop :=
  ∃ order, declaredOrder? (documentLines document) = some order ∧
    largestBlock < order * 24

instance (document : String) : Decidable (Oversized document) :=
  decidable_of_iff
    ((declaredOrder? (documentLines document)).any fun order => largestBlock <
      order * 24)
    (by simp [Oversized, Option.any_eq_true])

variable {document : String}

theorem parse_of_oversized (hoversized : Oversized document) :
    parse document = .error (.abort .capacityExceeded) := by
  obtain ⟨order, horder, hlarge⟩ := hoversized
  rw [parse]
  cases hlines : documentLines document with
  | nil => rw [hlines] at horder; cases horder
  | cons line lines =>
      rw [hlines] at horder
      have hcount : Decimal.count? line = some order := horder
      dsimp only
      rw [hcount]
      dsimp only
      rw [reserve, if_neg (Nat.not_le.mpr hlarge)]
      rfl

theorem parse_of_not_oversized (hstorable : ¬ Oversized document) :
    parse document = liftError (readLines (documentLines document)) := by
  rw [parse]
  cases hlines : documentLines document with
  | nil => rfl
  | cons line lines =>
      rw [readLines]
      dsimp only
      cases hcount : Decimal.count? line with
      | none => rfl
      | some order =>
          have hdeclared : declaredOrder? (documentLines document) =
              some order := by
            rw [hlines]
            exact hcount
          have hfits : order * 24 ≤ largestBlock :=
            Nat.not_lt.mp fun hlarge => hstorable ⟨order, hdeclared, hlarge⟩
          dsimp only
          rw [reserve, if_pos hfits]
          rfl

theorem solveLinearText_eq (engine : Engine Float) (document : String) :
    engine.solveLinearText document =
      (parse document >>= fun d =>
        liftError (Jacobi.solve engine.config.jacobi d.system d.tolerance)) :=
  rfl

/-- Reading a document, and solving its system, ends without an answer
exactly if the order it declares is too large for the storage, whatever else
it holds. -/
theorem abort_iff_oversized (document : String) (engine : Engine Float)
    (reason : Abort) :
    (parse document = .error (.abort reason) ↔
        reason = .capacityExceeded ∧ Oversized document) ∧
      (engine.solveLinearText document = .error (.abort reason) ↔
        reason = .capacityExceeded ∧ Oversized document) := by
  rw [solveLinearText_eq]
  by_cases hoversized : Oversized document
  · rw [parse_of_oversized hoversized]
    simp [hoversized, bind, Except.bind, eq_comm]
  · rw [parse_of_not_oversized hoversized]
    cases readLines (documentLines document) with
    | error e => simp [hoversized, liftError, bind, Except.bind]
    | ok d =>
        cases hsolve : Jacobi.solve engine.config.jacobi d.system
          d.tolerance <;>
          simp [hoversized, hsolve, liftError, bind, Except.bind]

/-- An order alone is enough, with no row behind it. -/
example : parse "1000000000000000000" = .error (.abort .capacityExceeded) :=
  parse_of_oversized (by decide +kernel)

/-! ## Documents of storable order -/

/-- A document of storable order is read exactly if its lines describe a system.
What is read are the numbers on the lines, lines behind the tolerance do not
matter, and the system is solved like the one given by its rows and right-hand
sides.  Any other document gives the error of the first check of its lines that
fails. -/
theorem parse_decided_by_lines (document : String)
    (hstorable : ¬ Oversized document) :
    let lines := documentLines document
    ((∃ d, parse document = .ok d) ↔ ∃ order, Readable lines order) ∧
      (∀ d, parse document = .ok d →
        Written lines d ∧
          (∀ other, (documentLines other).take (d.order + 2) =
            lines.take (d.order + 2) →
            parse other = .ok d) ∧
          ∀ engine : Engine Float, engine.solveLinearText document =
            liftError
              (engine.solveLinear d.system.matrix.toLists d.system.rhs.toList
              d.tolerance)) ∧
      ((¬ ∃ order, Readable lines order) →
        ∃ c, firstFailure lines (checks lines) = some c ∧
          parse document = .error (.error (c.error lines)) ∧
          (c.error lines).kind = c.kind) := by
  intro lines
  have hdecided : DecidedBy lines (checks lines) (readLines lines) :=
    decidedBy_readLines lines
  have hparse : parse document = liftError (readLines lines) :=
    parse_of_not_oversized hstorable
  have hreadable : (∃ d, readLines lines = .ok d) ↔
      ∃ order, Readable lines order := by
    rw [hdecided.exists_eq_ok_iff, checks_hold_iff]
  refine ⟨?_, fun d hd => ⟨?_, fun other htake => ?_, fun engine => ?_⟩,
    fun hunreadable => ?_⟩
  · simpa only [hparse, liftError_eq_ok_iff] using hreadable
  · rw [hparse, liftError_eq_ok_iff] at hd
    exact written_of_readLines_eq_ok hd
  · rw [hparse, liftError_eq_ok_iff] at hd
    obtain ⟨hdeclared, hsame⟩ :=
      readLines_eq_of_take_eq (written_of_readLines_eq_ok hd).order htake
    have hother : ¬ Oversized other := by
      rintro ⟨order, horder, hlarge⟩
      obtain rfl : d.order = order :=
        Option.some.inj (hdeclared.symm.trans horder)
      exact hstorable ⟨d.order, (written_of_readLines_eq_ok hd).order, hlarge⟩
    rw [parse_of_not_oversized hother, hsame, hd]
    rfl
  · rw [solveLinearText_eq, hd]
    rw [hparse, liftError_eq_ok_iff] at hd
    rw [solveLinear_of_readLines_eq_ok hd]
    rfl
  · cases hfirst : firstFailure lines (checks lines) with
    | none =>
        refine absurd ((checks_hold_iff lines).mp ?_) hunreadable
        simpa [firstFailure, List.find?_eq_none] using hfirst
    | some c =>
        refine ⟨c, rfl, ?_, c.kind_error lines⟩
        rw [hparse, hdecided.eq_error hfirst]
        rfl

/-- A document with decimal commas, a blank line and a line behind the
tolerance. -/
def decimalCommas : String :=
  "2\r\n4 1 6\n\n\t1 3,5 8\n 0,001 \nnotes"

/-- The same document without these. -/
def decimalPoints : String :=
  "2\n4 1 6\n1 3.5 8\n0.001"

theorem parse_decided_by_lines_decimalCommas :
    ¬ Oversized decimalCommas ∧
      ∃ d, parse decimalCommas = .ok d ∧
        Written (documentLines decimalCommas) d ∧
        parse decimalPoints = .ok d := by
  have hstorable : ¬ Oversized decimalCommas := by decide +kernel
  obtain ⟨hread, hwritten, -⟩ := parse_decided_by_lines decimalCommas hstorable
  have hchecks : ∀ c ∈ checks (documentLines decimalCommas),
      c.holds (documentLines decimalCommas) = true := by
    decide +kernel
  obtain ⟨d, hd⟩ := hread.mpr ((checks_hold_iff _).mp hchecks)
  obtain ⟨hlines, hsame, -⟩ := hwritten d hd
  have horder : d.order = 2 := by
    have hdeclared : declaredOrder? (documentLines decimalCommas) = some 2 := by
      decide +kernel
    exact Option.some.inj (hlines.order.symm.trans hdeclared)
  refine ⟨hstorable, d, hd, hlines, hsame decimalPoints ?_⟩
  rw [horder]
  decide +kernel

end LinearSystem
end NumericalMethods
