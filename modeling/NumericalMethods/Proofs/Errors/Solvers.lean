import NumericalMethods.Interpolation
import NumericalMethods.LeastSquares
import NumericalMethods.LinearSystem.Document
import NumericalMethods.Proofs.Errors.Reported
import NumericalMethods.Proofs.Quadrature.Doublings

/-!
# The errors of the solvers

For every solver, the kinds of error it can return.  The functions it is given
may return anything, undefined and infinite values included.  A solver that
breaks down keeps the steps it has completed, all other errors keep nothing.
-/

namespace NumericalMethods

open EngineError

/-! ## Root finding -/

namespace RootFinding

variable {α : Type} [Scalar α]

theorem failsWith_halve (f : α → α) (tolerance : α) :
    FailsWith [] (Empty.elim : Empty → Breakdown α) (halve f tolerance) :=
  fun _ cause _ => cause.elim

theorem failsWith_applyOnce
    (settings : RootSettings α) (f : α → α) (lambda tolerance : α) :
    FailsWith [.divergenceDetected] id
      (applyOnce settings f lambda tolerance) := by
  intro s cause hfail
  simp only [applyOnce] at hfail
  split at hfail
  · split at hfail <;> cases hfail
  · cases hfail
    simp [Breakdown.kind]

theorem failsWith_followTangent
    (settings : RootSettings α) (f : ScalarFunction α) (tolerance : α) :
    FailsWith [.zeroDerivative, .divergenceDetected] id
      (followTangent settings f tolerance) := by
  intro s cause hfail
  simp only [followTangent] at hfail
  split at hfail
  · cases hfail
    simp [Breakdown.kind]
  · split at hfail
    · split at hfail
      · split at hfail <;> cases hfail
      · cases hfail
        simp [Breakdown.kind]
    · cases hfail
      simp [Breakdown.kind]

theorem failsWith_followChord
    (settings : RootSettings α) (f : α → α) (tolerance : α) :
    FailsWith [.zeroDivisor, .divergenceDetected] id
      (followChord settings f tolerance) := by
  intro s cause hfail
  simp only [followChord] at hfail
  split at hfail
  · split at hfail
    · split at hfail <;> cases hfail
    · cases hfail
      simp [Breakdown.kind]
  · cases hfail
    simp [Breakdown.kind]

theorem raises_halfDivision
    (settings : RootSettings α) (f : ScalarFunction α) (a b tolerance : α) :
    Raises (Reported [.invalidBracket] PartialTrace.IsSteps)
      (halfDivision settings f a b tolerance) := by
  rw [halfDivision_eq]
  generalize (if b < a then (b, a) else (a, b)) = ends
  dsimp only
  split
  · exact (raises_ofIteration (failsWith_halve _ _) _ _ _ _).widen (by simp)
  · exact raises_plain (by simp [kind]) rfl

theorem raises_slopedStart (f : ScalarFunction α) (start : RootStart α) :
    Raises (Reported [.invalidParameter] PartialTrace.IsSteps)
      (slopedStart f start) := by
  have hslope : ∀ x, Raises (Reported [.invalidParameter] PartialTrace.IsSteps)
      (slopeAt f x) := by
    intro x
    rw [slopeAt]
    split
    · exact raises_ok _
    · exact raises_plain (by simp [kind]) rfl
  cases start with
  | bracket a b =>
      refine (hslope a).bind fun da _ => (hslope b).bind fun db _ => ?_
      split
      · exact raises_ok _
      · exact raises_ok _
  | estimate x => exact (hslope x).bind fun d _ => raises_ok _

theorem raises_simpleIteration
    (settings : RootSettings α) (f : ScalarFunction α) (start : RootStart α)
    (tolerance : α) :
    Raises (Reported [.invalidParameter, .zeroDerivative, .divergenceDetected]
      PartialTrace.IsSteps) (simpleIteration settings f start tolerance) := by
  rw [simpleIteration_eq]
  cases hstart : slopedStart f start with
  | error e =>
      exact raises_error ((raises_slopedStart f start e hstart).mono (by simp))
  | ok s =>
      dsimp only
      split
      · exact raises_error (reported_breakdown (by simp [Breakdown.kind])
          (by simp [Breakdown.kind]) ⟨[], rfl⟩)
      · exact (raises_ofIteration (failsWith_applyOnce _ _ _ _) _ _ _ _).widen
          (by simp)

theorem raises_newton
    (settings : RootSettings α) (f : ScalarFunction α) (start : RootStart α)
    (tolerance : α) :
    Raises (Reported [.invalidParameter, .zeroDerivative, .divergenceDetected]
      PartialTrace.IsSteps) (newton settings f start tolerance) := by
  rw [newton_eq]
  dsimp only
  split
  · exact raises_plain (by simp [kind]) rfl
  · exact (raises_ofIteration (failsWith_followTangent _ _ _) _ _ _ _).widen
      (by simp)

theorem raises_secant
    (settings : RootSettings α) (f : ScalarFunction α) (start : RootStart α)
    (tolerance : α) :
    Raises (Reported [.zeroDivisor, .divergenceDetected] PartialTrace.IsSteps)
      (secant settings f start tolerance) := by
  rw [secant_eq]
  exact raises_ofIteration (failsWith_followChord _ _ _) _ _ _ _

/-- The kinds of error a method returns by itself. -/
def errorKinds : RootMethod → List ErrorKind
  | .halfDivision => [.invalidParameter, .invalidBracket]
  | .simpleIteration | .newton =>
    [.invalidParameter, .zeroDerivative, .divergenceDetected]
  | .secant => [.invalidParameter, .zeroDivisor, .divergenceDetected]

theorem raises_solve
    (settings : RootSettings α) (method : RootMethod) (f : ScalarFunction α)
    (start : RootStart α) (tolerance : α) :
    Raises (Reported (errorKinds method) PartialTrace.IsSteps)
      (solve settings method f start tolerance) := by
  have hparameter : ∀ reason, Reported (errorKinds method) PartialTrace.IsSteps
      (invalidParameter reason : EngineError α) := by
    intro reason
    refine reported_plain ?_ rfl
    cases method <;> simp [kind, errorKinds]
  rw [solve]
  split
  · exact raises_error (hparameter _)
  · split
    · exact raises_error (hparameter _)
    · cases method with
      | halfDivision =>
          cases start with
          | bracket a b =>
              exact (raises_halfDivision settings f a b tolerance).widen
                (by simp [errorKinds])
          | estimate x => exact raises_error (hparameter _)
      | simpleIteration =>
          exact raises_simpleIteration settings f start tolerance
      | newton => exact raises_newton settings f start tolerance
      | secant =>
          exact (raises_secant settings f start tolerance).widen
            (by simp [errorKinds])

end RootFinding

/-! ## Two equations -/

namespace PlaneNewton

variable {α : Type} [Scalar α]

theorem failsWith_linearStep (settings : Settings α) (system : PlaneSystem α)
    (tolerance : α) :
    FailsWith [.singularJacobian, .divergenceDetected] id
      (linearStep settings system tolerance) := by
  intro s cause hfail
  simp only [linearStep] at hfail
  split at hfail
  · split at hfail
    · cases hfail
      simp [Breakdown.kind]
    · split at hfail
      · split at hfail <;> cases hfail
      · cases hfail
        simp [Breakdown.kind]
  · cases hfail
    simp [Breakdown.kind]

theorem raises_solve
    (settings : Settings α) (system : PlaneSystem α) (guess : α × α)
    (tolerance : α) :
    Raises (Reported [.invalidParameter, .singularJacobian, .divergenceDetected]
      PartialTrace.IsSteps) (solve settings system guess tolerance) := by
  rw [solve_eq]
  split
  · exact raises_plain (by simp [kind]) rfl
  · split
    · exact raises_plain (by simp [kind]) rfl
    · exact (raises_ofIteration (failsWith_linearStep _ _ _) _ _ _ _).widen
        (by simp)

end PlaneNewton

/-! ## Linear systems -/

namespace LinearSystem

section

variable {α : Type} [Scalar α]

theorem raises_make {m n : ℕ} (matrix : Grid α m n) (rhs : List α) :
    Raises (Reported [.insufficientData, .invalidParameter]
      PartialTrace.IsSteps) (make matrix rhs) := by
  rw [make]
  split
  · exact raises_plain (by simp [kind]) rfl
  · split
    · split
      · exact raises_plain (by simp [kind]) rfl
      · split
        · exact raises_ok _
        · exact raises_plain (by simp [kind]) rfl
    · exact raises_plain (by simp [kind]) rfl

theorem raises_ofRows (rows : List (List α)) (rhs : List α) :
    Raises (Reported [.insufficientData, .invalidParameter]
      PartialTrace.IsSteps) (ofRows rows rhs) := by
  rw [ofRows]
  split
  · exact raises_plain (by simp [kind]) rfl
  · exact raises_make _ _

end

theorem raises_readRows (order left : ℕ) (lines : List (List Char)) :
    Raises (Reported [.insufficientData, .invalidParameter]
      PartialTrace.IsSteps) (readRows order left lines) := by
  have hrow : ∀ index line, Raises
      (Reported [.insufficientData, .invalidParameter] PartialTrace.IsSteps)
      (readRow order index line) := by
    intro index line
    refine (raises_mapM (fun token => ?_) _).bind fun values _ => ?_
    · rw [readCoefficient]
      split
      · exact raises_ok _
      · exact raises_plain (by simp [kind]) rfl
    · exact raises_guard (reported_plain (by simp [kind]) rfl) fun _ =>
        raises_ok _
  induction left generalizing lines with
  | zero => exact raises_ok _
  | succ left ih =>
      cases lines with
      | nil => exact raises_plain (by simp [kind]) rfl
      | cons line lines =>
          exact (hrow _ line).bind fun row _ =>
            (ih lines).bind fun rows _ => raises_ok _

theorem raises_parse (document : String) :
    Raises (Failure.ErrorHas
      (Reported [.insufficientData, .invalidParameter] PartialTrace.IsSteps))
      (parse document) := by
  rw [parse]
  split
  · exact raises_error (reported_plain (by simp [kind]) rfl)
  · split
    · exact raises_error (reported_plain (by simp [kind]) rfl)
    · refine (raises_reserve _ _).bind fun _ _ => raises_liftError ?_
      refine (raises_readRows _ _ _).bind fun found _ => ?_
      dsimp only
      split
      · exact raises_error (reported_plain (by simp [kind]) rfl)
      · split
        · exact raises_error (reported_plain (by simp [kind]) rfl)
        · exact (raises_ofRows _ _).bind fun system _ => raises_ok _

end LinearSystem

namespace Jacobi

variable {α : Type} [Scalar α] {n : ℕ}

theorem failsWith_sweep
    (settings : Settings α) (c : Grid α n n) (d : Vector α n) (tolerance : α) :
    FailsWith [.divergenceDetected] id (sweep settings c d tolerance) := by
  intro s cause hfail
  simp only [sweep] at hfail
  split at hfail
  · split at hfail <;> cases hfail
  · cases hfail
    simp [Breakdown.kind]

theorem raises_solve (settings : Settings α) (s : LinearSystem α n)
    (tolerance : α) :
    Raises (Reported [.invalidParameter, .singularMatrix, .zeroDivisor,
      .divergenceDetected]
      PartialTrace.IsSteps) (solve settings s tolerance) := by
  rw [solve_eq]
  split
  · exact raises_plain (by simp [kind]) rfl
  · dsimp only
    split
    · exact raises_plain (by simp [kind]) rfl
    · split
      · exact raises_error (reported_breakdown (by simp [Breakdown.kind])
          (by simp [Breakdown.kind]) ⟨[], rfl⟩)
      · exact (raises_ofIteration (failsWith_sweep _ _ _ _) _ _ _ _).widen
          (by simp)

end Jacobi

/-! ## Quadrature -/

namespace Quadrature

variable {α : Type} [Scalar α]

theorem kind_of_refinePiece_eq_error
    {settings : Settings α} {rule : QuadratureRule} {f : α → α}
    {a b tolerance : α} {cause : Breakdown α} {made : List (QuadratureStep α)}
    (hrun : refinePiece settings rule f a b tolerance =
      .error (.breakdown cause made)) :
    cause.kind = .divergenceDetected := by
  rw [cause_eq_of_refinePiece_eq_error hrun]
  rfl

theorem raises_overPieces
    (settings : Settings α) (rule : QuadratureRule) (f : α → α) (tolerance : α)
    (total : Total α) (parts : List (α × α)) :
    Raises (Failure.ErrorHas
      (Reported [.divergenceDetected] PartialTrace.IsSteps))
      (overPieces settings rule f tolerance total parts) := by
  induction parts generalizing total with
  | nil => exact raises_ok _
  | cons part parts ih =>
      obtain ⟨a, b⟩ := part
      rw [overPieces]
      cases hrun : refinePiece settings rule f a b tolerance with
      | ok run =>
          dsimp only
          split
          · exact raises_error trivial
          · exact ih _
      | error stopped =>
          cases stopped with
          | abort reason => exact raises_error trivial
          | breakdown cause made =>
              have hkind := kind_of_refinePiece_eq_error hrun
              have hreported : Reported [.divergenceDetected]
                  PartialTrace.IsSteps
                  (.ofSteps cause ((total.entries ++ made).map .quadrature)) :=
                reported_breakdown (by simp [hkind]) (by simp [hkind]) ⟨_, rfl⟩
              exact raises_error hreported

theorem raises_pieces (f : Integrable α) (margin lower upper : α) :
    Raises (Reported [.invalidParameter, .divergentIntegral]
      PartialTrace.IsSteps)
      (pieces f margin lower upper) := by
  have hfrom : ∀ (points : List α) (left : α),
      Raises (Reported [.invalidParameter, .divergentIntegral]
        PartialTrace.IsSteps)
        (piecesFrom f margin upper left points) := by
    intro points
    induction points with
    | nil => exact fun left => raises_ok _
    | cons p points ih =>
        intro left
        rw [piecesFrom]
        split
        · cases hrest : piecesFrom f margin upper (p + margin) points with
          | error e => exact raises_error (ih _ e hrest)
          | ok found => exact raises_ok _
        · exact raises_plain (by simp [kind]) rfl
  rw [pieces]
  cases hfound : piecesFrom f margin upper lower
    (singularPointsWithin f lower upper) with
  | error e => exact raises_error (hfrom _ _ e hfound)
  | ok found =>
      cases found with
      | nil => exact raises_plain (by simp [kind]) rfl
      | cons part parts => exact raises_ok _

theorem raises_integrate
    (settings : Settings α) (rule : QuadratureRule) (f : Integrable α)
    (lower upper tolerance : α) :
    Raises (Failure.ErrorHas
      (Reported [.invalidParameter, .outOfDomain, .divergentIntegral,
        .divergenceDetected] PartialTrace.IsSteps))
      (integrate settings rule f lower upper tolerance) := by
  have hplain : ∀ {e : EngineError α},
      e.kind ∈
        [ErrorKind.invalidParameter, .outOfDomain, .divergentIntegral,
          .divergenceDetected] → e.partialTrace? = none →
      Failure.ErrorHas
        (Reported [.invalidParameter, .outOfDomain, .divergentIntegral,
        .divergenceDetected] PartialTrace.IsSteps) (.error e) :=
    fun hkind hnone => reported_plain hkind hnone
  rw [integrate]
  refine raises_guard (hplain (by simp [kind]) rfl) fun _ => ?_
  refine raises_guard (hplain (by simp [kind]) rfl) fun _ => ?_
  refine raises_guard (hplain (by simp [kind]) rfl) fun _ => ?_
  refine (raises_liftError ((raises_pieces _ _ _ _).widen (by simp))).bind
    fun parts _ => ?_
  refine ((raises_overPieces _ _ _ _ _ _).widenError (by simp)).bind
    fun total _ => ?_
  exact raises_ok _

end Quadrature

/-! ## Tabulated data -/

namespace DataSet

variable {α : Type} [Scalar α]

theorem raises_ofLists (x y : List α) :
    Raises (Reported [.insufficientData, .invalidParameter]
      PartialTrace.IsSteps) (ofLists x y) := by
  rw [ofLists]
  split
  · exact raises_plain (by simp [kind]) rfl
  · split
    · exact raises_ok _
    · exact raises_plain (by simp [kind]) rfl

theorem raises_sample (f : ScalarFunction α) (start stop : α) (count : ℕ) :
    Raises (Failure.ErrorHas
      (Reported [.invalidParameter] PartialTrace.IsSteps))
      (sample f start stop count) := by
  rw [sample]
  refine raises_guard (reported_plain (by simp [kind]) rfl) fun _ => ?_
  refine raises_guard (reported_plain (by simp [kind]) rfl) fun _ => ?_
  refine (raises_reserve _ _).bind fun _ _ => raises_liftError ?_
  rw [ofLists, if_neg (by simp)]
  split
  · exact raises_ok _
  · exact raises_plain (by simp [kind]) rfl

end DataSet

namespace LeastSquares

variable {α : Type} [Elementary α]

theorem raises_fit (weakCorrelation : α) (model : Model) (data : DataSet α) :
    Raises (Reported [.insufficientData] PartialTrace.IsSteps)
      (fit weakCorrelation model data) := by
  rw [fit]
  split
  · exact raises_plain (by simp [kind]) rfl
  · split
    · exact raises_plain (by simp [kind]) rfl
    · split
      · exact raises_plain (by simp [kind]) rfl
      · exact raises_ok _

theorem raises_report (weakCorrelation : α) (data : DataSet α) :
    Raises (Reported [.insufficientData, .noApplicableModel]
      PartialTrace.IsSteps)
      (report weakCorrelation data) := by
  rw [report]
  split
  · exact raises_plain (by simp [kind]) rfl
  · dsimp only
    split
    · exact raises_plain (by simp [kind]) rfl
    · exact raises_ok _

end LeastSquares

namespace Interpolation

variable {α : Type} [Scalar α]

theorem raises_selectNodes (data : DataSet α) (point : α) (amount : Option ℕ) :
    Raises (Reported [.insufficientData, .duplicateNodes, .invalidParameter]
      PartialTrace.IsSteps) (selectNodes data point amount) := by
  rw [selectNodes]
  split
  · exact raises_plain (by simp [kind]) rfl
  · dsimp only
    split
    · exact raises_plain (by simp [kind]) rfl
    · split
      · exact raises_ok _
      · exact raises_plain (by simp [kind]) rfl
      · exact raises_ok _

theorem raises_interpolate
    (method : InterpolationMethod) (data : DataSet α) (point : α)
    (amount : Option ℕ) :
    Raises (Reported [.insufficientData, .duplicateNodes, .invalidParameter,
      .unequalSpacing]
      PartialTrace.IsSteps) (interpolate method data point amount) := by
  rw [interpolate]
  refine raises_guard (reported_plain (by simp [kind]) rfl) fun _ => ?_
  refine ((raises_selectNodes _ _ _).widen (by simp)).bind fun nodes _ => ?_
  exact raises_guard (reported_plain (by simp [kind]) rfl) fun _ => raises_ok _

end Interpolation
end NumericalMethods
