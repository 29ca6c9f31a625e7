import NumericalMethods.Engine
import NumericalMethods.Proofs.Failure
import NumericalMethods.Proofs.LinearSystem.Document.Rows

/-!
# Reading the lines of a document

Reading the lines decides all checks: it succeeds exactly if they describe a
system, and the first check that fails decides the error.  What is read are the
numbers on the lines, and lines behind the tolerance are not looked at.
-/

namespace NumericalMethods
namespace LinearSystem

/-! ## The tolerance and the system -/

/-- Reads the tolerance on the first of some lines. -/
def readTolerance : List (List Char) → Except (EngineError Float) Float
  | [] => .error (.insufficientData .missingTolerance)
  | line :: _ =>
    match Decimal.number? line with
    | none => .error (.invalidParameter (.toleranceText (String.ofList line)))
    | some tolerance => .ok tolerance

theorem readBody_eq (order : ℕ) (lines : List (List Char)) :
    readBody order lines =
      (readRows order order lines >>= fun read =>
        readTolerance read.2 >>= fun tolerance =>
          ofRows (read.1.map (·.coefficients)) (read.1.map (·.rhs)) >>=
            fun system =>
            .ok ⟨_, system, tolerance⟩) := by
  rw [readBody]
  congr 1
  funext ⟨rows, rest⟩
  cases rest with
  | nil => rfl
  | cons line rest =>
      dsimp only
      rw [readTolerance]
      cases Decimal.number? line with
      | none => rfl
      | some tolerance => rfl

theorem decidedBy_readTolerance (lines : List (List Char)) :
    DecidedBy lines [.lineAt (orderOf lines + 1), .tolerance]
      (readTolerance (lines.drop (orderOf lines + 1))) := by
  refine decidedBy_cons (fun hfails => ?_) (fun hholds => ?_)
  · have hdrop : lines.drop (orderOf lines + 1) = [] :=
      List.drop_eq_nil_iff.mpr (not_lt.mp (of_decide_eq_false hfails))
    rw [hdrop, Check.error, if_neg (Nat.succ_ne_zero _), if_neg (by omega)]
    rfl
  · have hlt : orderOf lines + 1 < lines.length := of_decide_eq_true hholds
    rw [List.drop_eq_getElem_cons hlt, ← List.getD_eq_getElem _ [] hlt]
    refine decidedBy_cons (fun hfails => ?_) (fun hholds => ?_)
    · have hnone : Decimal.number? (lines.getD (orderOf lines + 1) []) = none :=
        Option.isNone_iff_eq_none.mp (by simpa [Check.holds] using hfails)
      rw [readTolerance, hnone]
      rfl
    · obtain ⟨tolerance, htolerance⟩ := Option.isSome_iff_exists.mp hholds
      rw [readTolerance, htolerance]
      exact decidedBy_nil rfl

theorem getElem?_zero_of_readTolerance_eq_ok
    {lines : List (List Char)} {tolerance : Float}
    (hread : readTolerance lines = .ok tolerance) :
    lines[0]?.bind Decimal.number? = some tolerance := by
  cases lines with
  | nil => cases hread
  | cons line rest =>
      rw [readTolerance] at hread
      cases hnumber : Decimal.number? line with
      | none => rw [hnumber] at hread; cases hread
      | some x =>
          rw [hnumber] at hread
          obtain rfl := Except.ok.inj hread
          exact hnumber

/-- The numbers of the rows are finite exactly if those on their lines are. -/
theorem all_isFinite_eq
    {order : ℕ} {lines : List (List Char)} {rows : List DocumentRow}
    (hrows : List.Forall₂ (RowOn order) lines rows) :
    (lines.all fun line => (Text.words line).all fun word =>
        (Decimal.number? word).any Scalar.isFinite) =
      ((rows.map (·.coefficients)).all (·.all Scalar.isFinite) &&
        (rows.map (·.rhs)).all Scalar.isFinite) := by
  induction hrows with
  | nil => rfl
  | @cons line row lines rows hrow _ ih =>
      have hwords : ((Text.words line).all fun word =>
          (Decimal.number? word).any Scalar.isFinite) =
            (row.coefficients.all Scalar.isFinite &&
              Scalar.isFinite row.rhs) := by
        rw [all_any_number hrow.1, List.all_append]
        simp
      rw [List.all_cons, hwords, ih]
      simp only [List.map_cons, List.all_cons]
      ac_rfl

theorem map_getD_range'
    {lines : List (List Char)} {order : ℕ} (henough : order < lines.length) :
    (List.range' 1 order).map (fun row => lines.getD row []) =
      (lines.drop 1).take order := by
  refine List.ext_getElem (by simp; omega) fun i hi _ => ?_
  have hlt : i + 1 < lines.length := by simp at hi; omega
  simp [hlt, Nat.add_comm 1]

theorem forall_length_coefficients
    {order : ℕ} {lines : List (List Char)} {rows : List DocumentRow}
    (hcount : rows.length = order)
    (hrows : List.Forall₂ (RowOn order) lines rows) :
    ∀ row ∈ rows.map (·.coefficients),
      row.length = (rows.map (·.coefficients)).length := by
  intro row hrow
  obtain ⟨read, hread, rfl⟩ := List.mem_map.mp hrow
  obtain ⟨i, hi, rfl⟩ := List.mem_iff_getElem.mp hread
  have hline := hrows.get (hrows.length_eq ▸ hi) hi
  rw [List.length_map, hcount]
  exact hline.2

/-- The rows of a document make a system if there are any and all numbers are
finite. -/
theorem ofRows_rows_eq
    {order : ℕ} {lines : List (List Char)} {rows : List DocumentRow}
    (hcount : rows.length = order)
    (hrows : List.Forall₂ (RowOn order) lines rows) :
    ofRows (rows.map (·.coefficients)) (rows.map (·.rhs)) =
      if order = 0 then .error (.insufficientData .noEquations)
      else if (rows.map (·.coefficients)).all (·.all Scalar.isFinite) &&
          (rows.map (·.rhs)).all Scalar.isFinite then
        .ok (assembled (rows.map (·.coefficients)) (rows.map (·.rhs)))
      else .error (.invalidParameter .coefficientNotFinite) := by
  rw [ofRows_eq (forall_length_coefficients hcount hrows) (by simp)]
  simp only [List.length_map, hcount]

theorem decidedBy_ofRows
    {lines : List (List Char)} {rows : List DocumentRow}
    (henough : orderOf lines < lines.length)
    (hcount : rows.length = orderOf lines)
    (hrows : List.Forall₂ (RowOn (orderOf lines))
      ((lines.drop 1).take (orderOf lines)) rows) :
    DecidedBy lines [.equations, .finite]
      (ofRows (rows.map (·.coefficients)) (rows.map (·.rhs))) := by
  rw [ofRows_rows_eq hcount hrows]
  refine decidedBy_cons (fun hfails => ?_) (fun hholds => ?_)
  · have hzero : orderOf lines = 0 := by simpa [Check.holds] using hfails
    rw [if_pos hzero]
    rfl
  · have hpositive : orderOf lines ≠ 0 := by simpa [Check.holds] using hholds
    have hfinite : Check.finite.holds lines =
        ((rows.map (·.coefficients)).all (·.all Scalar.isFinite) &&
          (rows.map (·.rhs)).all Scalar.isFinite) := by
      rw [← all_isFinite_eq hrows, ← map_getD_range' henough, List.all_map]
      rfl
    rw [if_neg hpositive, ← hfinite]
    refine decidedBy_cons (fun hfails => ?_) (fun hholds => ?_)
    · rw [hfails]
      rfl
    · rw [hholds]
      exact decidedBy_nil rfl

/-! ## Whole documents -/

/-- Reads the lines of a document without reserving storage. -/
def readLines : List (List Char) → Except (EngineError Float) Document
  | [] => .error (.insufficientData .missingOrder)
  | line :: lines =>
    match Decimal.count? line with
    | none => .error (.invalidParameter (.orderText (String.ofList line)))
    | some order => readBody order lines

theorem decidedBy_readLines (lines : List (List Char)) :
    DecidedBy lines (checks lines) (readLines lines) := by
  cases lines with
  | nil =>
      exact decidedBy_cons (fun _ => rfl)
        (fun hholds => by simp [Check.holds] at hholds)
  | cons line rest =>
      refine decidedBy_cons (fun hfails => by simp [Check.holds] at hfails)
        (fun _ => ?_)
      rw [readLines]
      refine decidedBy_cons (fun hfails => ?_) (fun hholds => ?_)
      · have hnone : Decimal.count? line = none :=
          Option.isNone_iff_eq_none.mp
            (by simpa [Check.holds, declaredOrder?] using hfails)
        rw [hnone]
        rfl
      · obtain ⟨order, horder⟩ := Option.isSome_iff_exists.mp hholds
        have hcount : Decimal.count? line = some order := horder
        have hdeclared : order = orderOf (line :: rest) := by
          rw [orderOf, horder]; rfl
        rw [hcount]
        dsimp only
        rw [hdeclared, readBody_eq]
        refine (decidedBy_readRows (by omega : 0 + _ = _)).bind
          fun read hread => ?_
        obtain ⟨hle, hrest, hrows⟩ := forall₂_of_readRows_eq_ok hread
        rw [hrest, List.drop_drop, Nat.add_comm 1]
        refine (decidedBy_readTolerance _).bind fun tolerance _ => ?_
        refine (decidedBy_ofRows ?_ ?_ hrows).map _
        · simpa using hle
        · rw [← hrows.length_eq]
          simpa using hle

/-- The lines describe a system of a given order, of at least one equation: the
order, a row of finite numbers for each equation, and a tolerance. -/
structure Readable (lines : List (List Char)) (order : ℕ) : Prop where
  declared : declaredOrder? lines = some order
  positive : 1 ≤ order
  enough : order + 2 ≤ lines.length
  rows : ∀ row, 1 ≤ row → row ≤ order →
    (Text.words (lines.getD row [])).length = order + 1 ∧
      ∀ word ∈ Text.words (lines.getD row []),
        ∃ x, Decimal.number? word = some x ∧ x.isFinite = true
  tolerance : ∃ x, Decimal.number? (lines.getD (order + 1) []) = some x

theorem orderOf_eq {lines : List (List Char)} {order : ℕ}
    (horder : declaredOrder? lines = some order) : orderOf lines = order := by
  rw [orderOf, horder]
  rfl

theorem rowChecks_hold_iff (lines : List (List Char)) (row : ℕ) :
    (∀ c ∈ rowChecks lines row, c.holds lines = true) ↔
      row < lines.length ∧
        (∀ word ∈ Text.words (lines.getD row []),
          (Decimal.number? word).isSome = true) ∧
          (Text.words (lines.getD row [])).length = orderOf lines + 1 := by
  simp only [rowChecks, List.forall_mem_cons, List.forall_mem_append,
    List.forall_mem_map]
  simp [Check.holds]

theorem finite_holds_iff (lines : List (List Char)) :
    Check.finite.holds lines = true ↔
      ∀ row, 1 ≤ row → row ≤ orderOf lines →
        ∀ word ∈ Text.words (lines.getD row []),
        ∃ x, Decimal.number? word = some x ∧ x.isFinite = true := by
  have hrange : ∀ row, row ∈ List.range' 1 (orderOf lines) ↔
      1 ≤ row ∧ row ≤ orderOf lines := by
    intro row
    rw [List.mem_range'_1]
    omega
  have hword : ∀ word, (Decimal.number? word).any Scalar.isFinite = true ↔
      ∃ x, Decimal.number? word = some x ∧ x.isFinite = true := by
    intro word
    cases Decimal.number? word with
    | none => simp
    | some x => simp [Scalar.isFinite]
  simp only [Check.holds, List.all_eq_true, hrange, hword, and_imp]

/-- A document passes all checks if its lines describe a system. -/
theorem checks_hold_iff (lines : List (List Char)) :
    (∀ c ∈ checks lines, c.holds lines = true) ↔
      ∃ order, Readable lines order := by
  simp only [checks, List.forall_mem_cons, List.forall_mem_append,
    List.forall_mem_flatMap, rowChecks_hold_iff, finite_holds_iff,
    List.mem_range'_1]
  constructor
  · rintro ⟨-, hdeclared, hrows, ⟨henough, htolerance, -⟩,
      hequations, hfinite, -⟩
    obtain ⟨order, horder⟩ := Option.isSome_iff_exists.mp hdeclared
    have horderOf := orderOf_eq horder
    rw [horderOf] at hrows hfinite
    refine ⟨order, horder, ?_, ?_, ?_, ?_⟩
    · exact Nat.one_le_iff_ne_zero.mpr
        (by simpa [Check.holds, horderOf] using hequations)
    · have hlt := of_decide_eq_true henough
      omega
    · intro row hpositive hle
      exact ⟨(hrows row (by omega)).2.2, hfinite row hpositive hle⟩
    · exact horderOf ▸ Option.isSome_iff_exists.mp htolerance
  · rintro ⟨order, hdeclared, hpositive, henough, hrows, htolerance⟩
    obtain rfl := (orderOf_eq hdeclared).symm
    refine ⟨?_, ?_, ?_, ⟨?_, ?_, by simp⟩, ?_, ?_, by simp⟩
    · exact decide_eq_true (by omega)
    · exact Option.isSome_iff_exists.mpr ⟨_, hdeclared⟩
    · intro row hrow
      have hnumbers := hrows row hrow.1 (by omega)
      refine ⟨by omega, fun word hword => ?_, hnumbers.1⟩
      obtain ⟨x, hx, -⟩ := hnumbers.2 word hword
      exact Option.isSome_iff_exists.mpr ⟨x, hx⟩
    · exact decide_eq_true (by omega)
    · exact Option.isSome_iff_exists.mpr htolerance
    · simpa [Check.holds] using Nat.one_le_iff_ne_zero.mp hpositive
    · intro row hrow hle
      exact (hrows row hrow hle).2

/-- What is read of a document. -/
theorem exists_rows_of_readLines_eq_ok
    {lines : List (List Char)} {d : Document}
    (hread : readLines lines = .ok d) :
    ∃ (rows : List DocumentRow) (tolerance : Float),
      d = ⟨_, assembled (rows.map (·.coefficients)) (rows.map (·.rhs)),
        tolerance⟩ ∧
        ofRows (rows.map (·.coefficients)) (rows.map (·.rhs)) =
          .ok (assembled (rows.map (·.coefficients)) (rows.map (·.rhs))) ∧
        declaredOrder? lines = some rows.length ∧
        List.Forall₂ (RowOn rows.length)
          ((lines.drop 1).take rows.length) rows ∧
        lines[rows.length + 1]?.bind Decimal.number? = some tolerance := by
  cases lines with
  | nil => cases hread
  | cons line rest =>
      rw [readLines] at hread
      cases hcount : Decimal.count? line with
      | none => rw [hcount] at hread; cases hread
      | some order =>
          rw [hcount] at hread
          dsimp only at hread
          rw [readBody_eq] at hread
          obtain ⟨read, hrows, hread⟩ := bind_eq_ok_iff.mp hread
          obtain ⟨tolerance, htolerance, hread⟩ := bind_eq_ok_iff.mp hread
          obtain ⟨system, hsystem, hread⟩ := bind_eq_ok_iff.mp hread
          obtain rfl := Except.ok.inj hread
          obtain ⟨hle, hrest, hforall⟩ := forall₂_of_readRows_eq_ok hrows
          have hlength : read.1.length = order := by
            rw [← hforall.length_eq, List.length_take, Nat.min_eq_left hle]
          have hassembled : system =
              assembled (read.1.map (·.coefficients)) (read.1.map (·.rhs)) := by
            have hchecked := ofRows_rows_eq hlength hforall
            rw [hsystem] at hchecked
            split at hchecked
            · cases hchecked
            · split at hchecked
              · exact Except.ok.inj hchecked
              · cases hchecked
          subst hassembled hlength
          refine ⟨read.1, tolerance, rfl, hsystem, hcount, hforall, ?_⟩
          have hline := getElem?_zero_of_readTolerance_eq_ok htolerance
          rw [hrest, List.getElem?_drop, Nat.add_zero] at hline
          exact hline

/-- The numbers of a document stand on its lines: the order on the first one,
the coefficients and the right-hand side of every equation on the line of its
number, and the tolerance behind them. -/
structure Written (lines : List (List Char)) (d : Document) : Prop where
  order : declaredOrder? lines = some d.order
  row : ∀ i : Fin d.order,
    (lines[(i : ℕ) + 1]?.bind fun line =>
      (Text.words line).mapM Decimal.number?) =
      some ((d.system.matrix.get i).toList ++ [d.system.rhs.get i])
  tolerance : lines[d.order + 1]?.bind Decimal.number? = some d.tolerance

theorem written_of_readLines_eq_ok
    {lines : List (List Char)} {d : Document}
    (hread : readLines lines = .ok d) :
    Written lines d := by
  obtain ⟨rows, tolerance, hd, -, hdeclared, hrows, htolerance⟩ :=
    exists_rows_of_readLines_eq_ok hread
  have horder : d.order = rows.length := by
    rw [hd]
    exact List.length_map _
  have hmatrix : d.system.matrix.toLists = rows.map (·.coefficients) := by
    rw [hd]
    exact toLists_assembled _ (forall_length_coefficients rfl hrows)
  have hrhs : d.system.rhs.toList = rows.map (·.rhs) := by
    rw [hd]
    exact toList_assembled _ (by simp)
  refine ⟨by rw [hdeclared, horder],
    fun i => ?_, by rw [horder, htolerance, hd]⟩
  have hi : (i : ℕ) < rows.length := horder ▸ i.isLt
  have hline : (i : ℕ) < ((lines.drop 1).take rows.length).length := by
    rw [hrows.length_eq]
    exact hi
  have hlines : lines[(i : ℕ) + 1]? =
      some ((lines.drop 1).take rows.length)[(i : ℕ)] := by
    rw [← List.getElem?_eq_getElem hline, List.getElem?_take_of_lt hi,
      List.getElem?_drop, Nat.add_comm 1]
  have hcoefficients : (d.system.matrix.get i).toList =
      rows[(i : ℕ)].coefficients := by
    have hget := Grid.getElem?_toLists d.system.matrix i
    rw [hmatrix, List.getElem?_map, List.getElem?_eq_getElem hi] at hget
    exact (Option.some.inj hget).symm
  have hright : d.system.rhs.get i = rows[(i : ℕ)].rhs := by
    have hget := Grid.getElem?_toList d.system.rhs i
    rw [hrhs, List.getElem?_map, List.getElem?_eq_getElem hi] at hget
    exact (Option.some.inj hget).symm
  rw [hlines, hcoefficients, hright]
  exact (hrows.get hline hi).1

/-- The system that is read is the one made of its rows and right-hand sides. -/
theorem solveLinear_of_readLines_eq_ok
    {lines : List (List Char)} {d : Document} (hread : readLines lines = .ok d)
    (engine : Engine Float) :
    engine.solveLinear d.system.matrix.toLists d.system.rhs.toList d.tolerance =
      Jacobi.solve engine.config.jacobi d.system d.tolerance := by
  obtain ⟨rows, tolerance, rfl, hsystem, -, hrows, -⟩ :=
    exists_rows_of_readLines_eq_ok hread
  dsimp only
  rw [toLists_assembled _ (forall_length_coefficients rfl hrows),
    toList_assembled _ (by simp), Engine.solveLinear, hsystem]
  rfl

/-! ## Lines behind the tolerance -/

theorem readTolerance_append
    {front : List (List Char)} (hfront : front ≠ []) (rest : List (List Char)) :
    readTolerance (front ++ rest) = readTolerance front := by
  obtain ⟨line, front, rfl⟩ := List.exists_cons_of_ne_nil hfront
  rfl

/-- The rows take one line each, so one more line is left for the tolerance. -/
theorem readBody_take (order : ℕ) (lines : List (List Char)) :
    readBody order (lines.take (order + 1)) = readBody order lines := by
  rcases Nat.lt_or_ge (order + 1) lines.length with hlt | hge
  · obtain ⟨front, rest, hfront, rfl⟩ :
        ∃ front rest, front.length = order + 1 ∧ lines = front ++ rest :=
      ⟨_, _, List.length_take_of_le hlt.le,
        (List.take_append_drop (order + 1) lines).symm⟩
    rw [← hfront, List.take_left, readBody_eq, readBody_eq,
      readRows_append (by omega)]
    cases hrows : readRows order order front with
    | error e => rfl
    | ok read =>
        have hrest : read.2 = front.drop order :=
          (forall₂_of_readRows_eq_ok hrows).2.1
        have hne : read.2 ≠ [] := by
          rw [hrest, ne_eq, List.drop_eq_nil_iff]
          omega
        simp only [Except.map, bind, Except.bind, readTolerance_append hne]
  · rw [List.take_of_length_le hge]

/-- Only the lines up to the tolerance matter. -/
theorem readLines_eq_of_take_eq
    {lines other : List (List Char)} {order : ℕ}
    (horder : declaredOrder? lines = some order)
    (htake : other.take (order + 2) = lines.take (order + 2)) :
    declaredOrder? other = some order ∧ readLines other = readLines lines := by
  cases lines with
  | nil => cases horder
  | cons line lines =>
      cases other with
      | nil => simp at htake
      | cons line' other =>
          rw [List.take_succ_cons, List.take_succ_cons] at htake
          obtain ⟨rfl, hbodies⟩ := List.cons.inj htake
          have hcount : Decimal.count? line' = some order := horder
          refine ⟨horder, ?_⟩
          rw [readLines, readLines, hcount]
          dsimp only
          rw [← readBody_take, hbodies, readBody_take]

end LinearSystem
end NumericalMethods
