import Mathlib.Data.List.Forall2
import Mathlib.Data.List.GetD
import NumericalMethods.Proofs.Failure
import NumericalMethods.Proofs.LinearSystem.Document.Checks
import NumericalMethods.Proofs.LinearSystem.Permutation

/-!
# Reading the rows of a document

A row is read word by word, and the rows line by line.  Each reader decides the
checks of the lines it reads, and what it returns are the numbers on these
lines.  Rows of the right length are assembled into a system if there are any
and all their numbers are finite.
-/

namespace NumericalMethods
namespace LinearSystem

/-! ## One row -/

/-- A line holds the numbers of a row. -/
def RowOn (order : ℕ) (line : List Char) (row : DocumentRow) : Prop :=
  (Text.words line).mapM Decimal.number? =
      some (row.coefficients ++ [row.rhs]) ∧
    row.coefficients.length = order

theorem mapM_readCoefficient_eq_ok_iff {tokens : List (List Char)}
    {values : List Float} :
    tokens.mapM readCoefficient = .ok values ↔
      tokens.mapM Decimal.number? = some values := by
  induction tokens generalizing values with
  | nil => simp [pure, Except.pure]
  | cons token tokens ih =>
      rw [List.mapM_cons, List.mapM_cons, readCoefficient]
      cases hnumber : Decimal.number? token with
      | none => simp [bind, Except.bind]
      | some x =>
          cases hvalues : tokens.mapM readCoefficient with
          | error e =>
              have hnone : tokens.mapM Decimal.number? = none := by
                cases hsome : tokens.mapM Decimal.number? with
                | none => rfl
                | some ys => rw [ih.mpr hsome] at hvalues; cases hvalues
              simp [bind, Except.bind, hnone]
          | ok ys =>
              rw [ih] at hvalues
              simp [bind, Except.bind, pure, Except.pure, hvalues]

theorem decidedBy_mapM_readCoefficient (lines tokens : List (List Char)) :
    DecidedBy lines (tokens.map .coefficient)
      (tokens.mapM readCoefficient) := by
  induction tokens with
  | nil => exact decidedBy_nil rfl
  | cons token tokens ih =>
      rw [List.mapM_cons, List.map_cons]
      refine decidedBy_cons (fun hfails => ?_) (fun hholds => ?_)
      · have hnone : Decimal.number? token = none := by
          simpa [Check.holds] using hfails
        rw [readCoefficient, hnone]
        rfl
      · obtain ⟨x, hx⟩ := Option.isSome_iff_exists.mp hholds
        rw [readCoefficient, hx]
        exact ih.map (x :: ·)

theorem length_of_mapM_number
    {tokens : List (List Char)} {values : List Float}
    (hvalues : tokens.mapM Decimal.number? = some values) :
    values.length = tokens.length :=
  (forall₂_of_mapM_eq_some hvalues).length_eq.symm

/-- A law holds of all words that are numbers exactly if it holds of the
numbers. -/
theorem all_any_number
    {tokens : List (List Char)} {values : List Float} {law : Float → Bool}
    (hvalues : tokens.mapM Decimal.number? = some values) :
    (tokens.all fun token => (Decimal.number? token).any law) =
      values.all law := by
  have hnumbers := forall₂_of_mapM_eq_some hvalues
  clear hvalues
  induction hnumbers with
  | nil => rfl
  | cons hnumber _ ih =>
      rw [List.all_cons, List.all_cons, hnumber, ih, Option.any_some]

/-- What a row is made of, once its numbers are read. -/
theorem readRow_eq (order index : ℕ) (line : List Char) :
    readRow order index line =
      ((Text.words line).mapM readCoefficient >>= fun values =>
        if values.length = order + 1 then
          .ok ⟨values.dropLast, values.getLastD 0⟩
        else .error
          (.invalidParameter (.rowEntries index order values.length))) := by
  rw [readRow]
  congr 1
  funext values
  by_cases hlength : values.length = order + 1
  · rw [if_neg (not_not.mpr hlength), if_pos hlength]
    rfl
  · rw [if_pos hlength, if_neg hlength]
    rfl

theorem decidedBy_readRow (lines : List (List Char)) (row : ℕ) :
    DecidedBy lines
      ((Text.words (lines.getD row [])).map .coefficient ++ [.entryCount row])
      (readRow (orderOf lines) row (lines.getD row [])) := by
  rw [readRow_eq]
  refine (decidedBy_mapM_readCoefficient lines _).bind fun values hvalues => ?_
  have hlength :=
    length_of_mapM_number (mapM_readCoefficient_eq_ok_iff.mp hvalues)
  refine decidedBy_cons (fun hfails => ?_) (fun hholds => ?_)
  · rw [Check.holds, ← hlength, beq_eq_false_iff_ne] at hfails
    rw [if_neg hfails, hlength]
    rfl
  · rw [Check.holds, ← hlength, beq_iff_eq] at hholds
    rw [if_pos hholds]
    exact decidedBy_nil rfl

theorem rowOn_of_readRow_eq_ok
    {order index : ℕ} {line : List Char} {row : DocumentRow}
    (hrow : readRow order index line = .ok row) : RowOn order line row := by
  rw [readRow_eq, bind_eq_ok_iff] at hrow
  obtain ⟨values, hvalues, hrow⟩ := hrow
  split at hrow
  · rename_i hlength
    obtain rfl := Except.ok.inj hrow
    have hne : values ≠ [] := List.ne_nil_of_length_pos (by omega)
    refine ⟨?_, by simp [hlength]⟩
    rw [mapM_readCoefficient_eq_ok_iff.mp hvalues, List.getLastD_eq_getLast?,
      List.getLast?_eq_some_getLast hne, Option.getD_some,
      List.dropLast_append_getLast hne]
  · cases hrow

/-! ## All rows -/

theorem readRows_succ_cons (order left : ℕ) (line : List Char)
    (lines : List (List Char)) :
    readRows order (left + 1) (line :: lines) =
      (readRow order (order - left) line >>= fun row =>
        readRows order left lines >>= fun read =>
          .ok (row :: read.1, read.2)) :=
  rfl

/-- The rows done are kept in the statement, because errors count the rows from
the front, and the reader from the back. -/
theorem decidedBy_readRows
    {lines : List (List Char)} {done left : ℕ}
    (hcount : done + left = orderOf lines) :
    DecidedBy lines ((List.range' (done + 1) left).flatMap (rowChecks lines))
      (readRows (orderOf lines) left (lines.drop (done + 1))) := by
  induction left generalizing done with
  | zero => exact decidedBy_nil rfl
  | succ left ih =>
      have hindex : orderOf lines - left = done + 1 := by omega
      rw [List.range'_succ, List.flatMap_cons, rowChecks, List.cons_append]
      refine decidedBy_cons (fun hfails => ?_) (fun hholds => ?_)
      · have hdrop : lines.drop (done + 1) = [] :=
          List.drop_eq_nil_iff.mpr (not_lt.mp (of_decide_eq_false hfails))
        have hle : done + 1 ≤ orderOf lines := by omega
        rw [hdrop, Check.error, if_neg (Nat.succ_ne_zero done),
          if_pos hle, ← hindex]
        rfl
      · have hlt : done + 1 < lines.length := of_decide_eq_true hholds
        rw [List.drop_eq_getElem_cons hlt, readRows_succ_cons, hindex,
          ← List.getD_eq_getElem _ [] hlt]
        refine (decidedBy_readRow lines (done + 1)).bind fun row _ => ?_
        exact (ih (by omega)).map fun read => (row :: read.1, read.2)

/-- The rows that are read stand on the lines in order, and the rest is left. -/
theorem forall₂_of_readRows_eq_ok
    {order left : ℕ} {lines rest : List (List Char)} {rows : List DocumentRow}
    (hread : readRows order left lines = .ok (rows, rest)) :
    left ≤ lines.length ∧ rest = lines.drop left ∧
      List.Forall₂ (RowOn order) (lines.take left) rows := by
  induction left generalizing lines rows with
  | zero =>
      obtain ⟨rfl, rfl⟩ : rows = [] ∧ rest = lines := by
        simpa [readRows, eq_comm] using hread
      exact ⟨Nat.zero_le _, rfl, .nil⟩
  | succ left ih =>
      cases lines with
      | nil => cases hread
      | cons line lines =>
          rw [readRows_succ_cons] at hread
          obtain ⟨row, hrow, hread⟩ := bind_eq_ok_iff.mp hread
          obtain ⟨read, hrows, hread⟩ := bind_eq_ok_iff.mp hread
          obtain ⟨rfl, rfl⟩ := Prod.mk.inj (Except.ok.inj hread)
          obtain ⟨hle, hrest, hforall⟩ := ih hrows
          exact ⟨Nat.succ_le_succ hle, hrest,
            .cons (rowOn_of_readRow_eq_ok hrow) hforall⟩

/-- Lines behind the rows stay unread. -/
theorem readRows_append
    {order left : ℕ} {front : List (List Char)} (hleft : left ≤ front.length)
    (rest : List (List Char)) :
    readRows order left (front ++ rest) =
      (readRows order left front).map fun read => (read.1, read.2 ++ rest) := by
  induction left generalizing front with
  | zero => rfl
  | succ left ih =>
      obtain ⟨line, front, rfl⟩ :=
        List.exists_cons_of_length_pos (by omega : 0 < front.length)
      rw [List.cons_append, readRows_succ_cons, readRows_succ_cons,
        ih (by simpa using hleft)]
      cases readRow order (order - left) line with
      | error e => rfl
      | ok row =>
          cases readRows order left front with
          | error e => rfl
          | ok read => rfl

/-! ## Assembling a system -/

section

variable {α : Type} [Scalar α]

/-- The system with the given rows and right-hand sides. -/
def assembled (rows : List (List α)) (rhs : List α) :
    LinearSystem α rows.length where
  matrix := Grid.ofLists rows.length rows.length rows
  rhs := Vector.ofFn fun i => rhs.getD i 0

theorem toLists_assembled
    {rows : List (List α)} (rhs : List α)
    (hrows : ∀ row ∈ rows, row.length = rows.length) :
    (assembled rows rhs).matrix.toLists = rows := by
  rw [Grid.toLists_eq_ofFn]
  refine List.ext_getElem (by simp) fun i hi _ => ?_
  have hlt : i < rows.length := by simpa using hi
  have hlength := hrows rows[i] (List.getElem_mem hlt)
  refine List.ext_getElem (by simp [hlength]) fun j _ hj => ?_
  simp [assembled, Grid.ofLists, Grid.toList_eq_ofFn, hj]

theorem toList_assembled
    (rows : List (List α)) {rhs : List α} (hrhs : rhs.length = rows.length) :
    (assembled rows rhs).rhs.toList = rhs := by
  refine List.ext_getElem (by simp [hrhs]) fun i _ hi => ?_
  simp [assembled, hi]

/-- Rows of the right length make a system if there are any and all numbers are
finite. -/
theorem ofRows_eq
    {rows : List (List α)} {rhs : List α}
    (hrows : ∀ row ∈ rows, row.length = rows.length)
    (hrhs : rhs.length = rows.length) :
    ofRows rows rhs =
      if rows.length = 0 then .error (.insufficientData .noEquations)
      else if rows.all (·.all Scalar.isFinite) && rhs.all Scalar.isFinite then
        .ok (assembled rows rhs)
      else .error (.invalidParameter .coefficientNotFinite) := by
  have hfind : rows.find? (fun row => decide (row.length ≠ rows.length)) =
      none := by
    rw [List.find?_eq_none]
    intro row hrow
    simp [hrows row hrow]
  have hlists : (Grid.ofLists rows.length rows.length rows).toLists = rows :=
    toLists_assembled rhs hrows
  have hsystem : assembled rows rhs =
      { matrix := Grid.ofFn fun i j =>
        (Grid.ofLists rows.length rows.length rows).entry i j
        rhs := Vector.ofFn fun i => rhs.getD i 0 } := by
    rw [Grid.ofFn_entry]
    rfl
  rw [ofRows, hfind, hsystem]
  simp only [make, hrhs, hlists, ne_eq, not_true_eq_false, if_false, dite_true]
  rfl

end

end LinearSystem
end NumericalMethods
