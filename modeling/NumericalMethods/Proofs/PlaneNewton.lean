import Mathlib.Tactic.LinearCombination
import NumericalMethods.Proofs.Exact.Rational
import NumericalMethods.Proofs.SearchSteps

/-!
# Newton's method for two equations, exactly

In exact arithmetic the adjugate over the determinant is the inverse, so every
step solves the linearised system, and a determinant that passes the floor is
not zero.  An affine system is its own linearisation: the first step leads to
its only root, from which the second does not move.
-/

namespace NumericalMethods

variable {K : Type} [Field K] [LinearOrder K] [ExactArithmetic K]

/-! ## Matrices -/

namespace Matrix2

variable {m inverse : Matrix2 K}

theorem inverse?_eq_some_iff :
    m.inverse? = some inverse ↔
      m.determinant ≠ 0 ∧
        inverse =
          ⟨m.d / m.determinant, -m.b / m.determinant, -m.c / m.determinant,
          m.a / m.determinant⟩ := by
  rw [inverse?]
  by_cases hdeterminant : m.determinant = 0
  · simp only [hdeterminant, beq_self_eq_true, if_true, ne_eq,
      not_true_eq_false, false_and, reduceCtorEq]
  · simp only [beq_iff_eq, hdeterminant, if_false, ne_eq,
      not_false_eq_true, true_and, Option.some.injEq]
    exact eq_comm

theorem exists_inverse?_eq_some (hdeterminant : m.determinant ≠ 0) :
    ∃ inverse, m.inverse? = some inverse :=
  ⟨_, inverse?_eq_some_iff.mpr ⟨hdeterminant, rfl⟩⟩

/-- The inverse solves the equations with the matrix. -/
theorem mul_apply_of_inverse?_eq_some (h : m.inverse? = some inverse)
    (v : K × K) :
    m.a * (inverse.apply v).1 + m.b * (inverse.apply v).2 = v.1 ∧
      m.c * (inverse.apply v).1 + m.d * (inverse.apply v).2 = v.2 := by
  obtain ⟨hdeterminant, rfl⟩ := inverse?_eq_some_iff.mp h
  have hinverse : (m.a * m.d - m.c * m.b) * m.determinant⁻¹ = 1 :=
    mul_inv_cancel₀ hdeterminant
  simp only [apply, div_eq_mul_inv]
  constructor
  · linear_combination v.1 * hinverse
  · linear_combination v.2 * hinverse

/-- Equations with a regular matrix have at most one solution. -/
theorem eq_of_mul_eq
    (hdeterminant : m.determinant ≠ 0) {p q : K × K}
    (hfirst : m.a * p.1 + m.b * p.2 = m.a * q.1 + m.b * q.2)
    (hsecond : m.c * p.1 + m.d * p.2 = m.c * q.1 + m.d * q.2) :
    p = q := by
  apply Prod.ext
  · apply mul_left_cancel₀ hdeterminant
    rw [determinant]
    linear_combination m.d * hfirst - m.b * hsecond
  · apply mul_left_cancel₀ hdeterminant
    rw [determinant]
    linear_combination m.a * hsecond - m.c * hfirst

end Matrix2

namespace PlaneNewton

/-! ## The linearised system -/

/-- A step by the solution of the system linearised at `p`. -/
structure SolvesLinearised (system : PlaneSystem K) (p : K × K)
    (e : SystemStep K) (next : K × K) : Prop where
  x_eq : e.x = p.1 + e.dx
  y_eq : e.y = p.2 + e.dy
  first : (system.jacobian p.1 p.2).a * e.dx +
    (system.jacobian p.1 p.2).b * e.dy =
    -(system.values p.1 p.2).1
  second : (system.jacobian p.1 p.2).c * e.dx +
    (system.jacobian p.1 p.2).d * e.dy =
    -(system.values p.1 p.2).2
  arrives : next = (e.x, e.y)

variable {system : PlaneSystem K} {settings : Settings K} {p next : K × K}
  {e : SystemStep K}

theorem Takes.solvesLinearised
    {delta : K × K} (hdelta : correction? system p = some delta)
    (h : Takes p delta e) :
    SolvesLinearised system p e (e.x, e.y) := by
  obtain ⟨inverse, hinverse, rfl⟩ := Option.map_eq_some_iff.mp hdelta
  obtain ⟨hfirst, hsecond⟩ :=
    Matrix2.mul_apply_of_inverse?_eq_some hinverse (system.values p.1 p.2)
  refine ⟨?_, ?_, ?_, ?_, rfl⟩
  · rw [h.x_eq, h.dx_eq, sub_eq_add_neg]
  · rw [h.y_eq, h.dy_eq, sub_eq_add_neg]
  · rw [h.dx_eq, h.dy_eq]
    linear_combination -hfirst
  · rw [h.dx_eq, h.dy_eq]
    linear_combination -hsecond

theorem Corrects.solvesLinearised (h : Corrects settings system p e next) :
    SolvesLinearised system p e next := by
  obtain ⟨delta, hdelta, htakes⟩ := h.takes
  rw [h.arrives]
  exact htakes.solvesLinearised hdelta

theorem pairNorm_zero (hsqrt : Scalar.sqrt (0 : K) = 0) :
    pairNorm ((0, 0) : K × K) = 0 := by
  simp [pairNorm, Scalar.norm, hsqrt]

/-- A step that stays where it is has no length. -/
theorem Corrects.updateNorm_eq_zero
    (h : Corrects settings system p e next) (hsqrt : Scalar.sqrt (0 : K) = 0)
    (hstays : (e.x, e.y) = p) :
    e.updateNorm = 0 := by
  obtain ⟨delta, -, htakes⟩ := h.takes
  have hx : p.1 - delta.1 = p.1 :=
    htakes.x_eq.symm.trans (congrArg Prod.fst hstays)
  have hy : p.2 - delta.2 = p.2 :=
    htakes.y_eq.symm.trans (congrArg Prod.snd hstays)
  have hdelta : delta = (0, 0) :=
    Prod.ext (sub_eq_self.mp hx) (sub_eq_self.mp hy)
  rw [htakes.updateNorm_eq, hdelta, pairNorm_zero hsqrt]

theorem determinant_ne_zero
    [IsStrictOrderedRing K] (hfloor : 0 < settings.determinantFloor)
    {m : Matrix2 K} (hm : settings.determinantFloor ≤ |m.determinant|) :
    m.determinant ≠ 0 :=
  abs_pos.mp (hfloor.trans_le hm)

/-- A matrix that passes the floor can be inverted. -/
theorem linearStep_ne_fail_jacobianNotInvertible
    [IsStrictOrderedRing K] (hfloor : 0 < settings.determinantFloor)
    (tolerance : K) (s : State K) (x y : K) :
    linearStep settings system tolerance s ≠
      .fail (.jacobianNotInvertible x y) := by
  rw [linearStep]
  dsimp only
  split
  · rename_i hregular
    obtain ⟨inverse, hinverse⟩ :=
      Matrix2.exists_inverse?_eq_some (determinant_ne_zero hfloor hregular)
    rw [hinverse]
    dsimp only
    split
    · split <;> simp
    · simp
  · simp

/-! ## Affine systems -/

/-- A system of two linear equations with the matrix `m`. -/
structure IsAffine (system : PlaneSystem K) (m : Matrix2 K)
    (c : K × K) : Prop where
  values_eq : ∀ x y,
    system.values x y = (m.a * x + m.b * y + c.1, m.c * x + m.d * y + c.2)
  jacobian_eq : ∀ x y, system.jacobian x y = m

section Affine

variable {m : Matrix2 K} {c root : K × K}

omit [LinearOrder K] [ExactArithmetic K] in
theorem IsAffine.values_eq_zero_iff (haffine : IsAffine system m c)
    (p : K × K) :
    system.values p.1 p.2 = (0, 0) ↔
      m.a * p.1 + m.b * p.2 = -c.1 ∧ m.c * p.1 + m.d * p.2 = -c.2 := by
  rw [haffine.values_eq, Prod.mk.injEq, add_eq_zero_iff_eq_neg,
    add_eq_zero_iff_eq_neg]

/-- An affine system with a regular matrix has exactly one root. -/
theorem IsAffine.exists_root
    (haffine : IsAffine system m c) (hdeterminant : m.determinant ≠ 0) :
    ∃ root : K × K, ∀ p : K × K, system.values p.1 p.2 = (0, 0) ↔ p = root := by
  obtain ⟨inverse, hinverse⟩ := Matrix2.exists_inverse?_eq_some hdeterminant
  obtain ⟨hfirst, hsecond⟩ :=
    Matrix2.mul_apply_of_inverse?_eq_some hinverse (-c.1, -c.2)
  refine ⟨inverse.apply (-c.1, -c.2), fun p => ⟨fun hp => ?_, ?_⟩⟩
  · obtain ⟨hp₁, hp₂⟩ := (haffine.values_eq_zero_iff p).mp hp
    exact Matrix2.eq_of_mul_eq hdeterminant (hp₁.trans hfirst.symm)
      (hp₂.trans hsecond.symm)
  · rintro rfl
    exact (haffine.values_eq_zero_iff _).mpr ⟨hfirst, hsecond⟩

omit [LinearOrder K] [ExactArithmetic K] in
/-- An affine system is its own linearisation. -/
theorem SolvesLinearised.values_eq_zero
    (h : SolvesLinearised system p e next) (haffine : IsAffine system m c) :
    system.values next.1 next.2 = (0, 0) := by
  obtain ⟨hx, hy, hfirst, hsecond, rfl⟩ := h
  rw [haffine.jacobian_eq, haffine.values_eq] at hfirst hsecond
  rw [haffine.values_eq_zero_iff, hx, hy]
  constructor
  · linear_combination hfirst
  · linear_combination hsecond

variable (haffine : IsAffine system m c)
  (hroot : ∀ p : K × K, system.values p.1 p.2 = (0, 0) ↔ p = root)

include haffine hroot

/-- From everywhere there is a step, to the root. -/
theorem exists_corrects
    [IsStrictOrderedRing K] (hfloor : 0 < settings.determinantFloor)
    (hregular : settings.determinantFloor ≤ |m.determinant|)
    (hx : |root.1| ≤ settings.divergenceBound)
    (hy : |root.2| ≤ settings.divergenceBound) (p : K × K) :
    ∃ e next, Corrects settings system p e next := by
  rw [← haffine.jacobian_eq p.1 p.2] at hregular
  obtain ⟨inverse, hinverse⟩ :=
    Matrix2.exists_inverse?_eq_some (determinant_ne_zero hfloor hregular)
  obtain ⟨delta, hdelta⟩ : ∃ delta, correction? system p = some delta := by
    rw [correction?, hinverse]
    exact ⟨_, rfl⟩
  let e : SystemStep K :=
    { x := p.1 - delta.1, y := p.2 - delta.2, dx := -delta.1, dy := -delta.2,
      updateNorm := pairNorm delta,
      residualNorm := pairNorm (system.values (p.1 - delta.1) (p.2 - delta.2)) }
  have htakes : Takes p delta e := ⟨rfl, rfl, rfl, rfl, rfl⟩
  have harrives : (e.x, e.y) = root :=
    (hroot _).mp ((htakes.solvesLinearised hdelta).values_eq_zero haffine)
  rw [← harrives] at hx hy
  exact ⟨e, (e.x, e.y), hregular, ⟨delta, hdelta, htakes⟩, rfl,
    ⟨rfl, not_lt.mpr hx⟩, ⟨rfl, not_lt.mpr hy⟩, rfl⟩

/-- From the first step on a search is at the root, where it does not move
any more. -/
theorem path_affine
    (hsqrt : Scalar.sqrt (0 : K) = 0) {guess stop : K × K}
    {made : List (SystemStep K)}
    (hpath : Path (Corrects settings system) guess made stop) :
    (∀ e ∈ made, (e.x, e.y) = root) ∧ (made ≠ [] → stop = root) ∧
      ∀ e ∈ made.tail, e.updateNorm = 0 := by
  induction hpath with
  | refl => simp
  | @snoc made p next e _ hstep ih =>
      obtain ⟨hmade, hstop, htail⟩ := ih
      have hnext : next = root :=
        (hroot next).mp (hstep.solvesLinearised.values_eq_zero haffine)
      have hentry : (e.x, e.y) = root := hstep.arrives.symm.trans hnext
      refine ⟨?_, fun _ => hnext, ?_⟩
      · intro e' he'
        rcases List.mem_append.mp he' with he' | he'
        · exact hmade e' he'
        · rwa [List.mem_singleton.mp he']
      · cases made with
        | nil => simp
        | cons first rest =>
            have hp : p = root := hstop (List.cons_ne_nil first rest)
            intro e' he'
            rcases List.mem_append.mp he' with he' | he'
            · exact htail e' he'
            · rw [List.mem_singleton.mp he']
              exact hstep.updateNorm_eq_zero hsqrt (hentry.trans hp.symm)

end Affine

/-! ## The search -/

section Solve

variable [IsStrictOrderedRing K] {tolerance : K}

omit [IsStrictOrderedRing K] in
theorem solve_eq_ofIteration
    (settings : Settings K) (system : PlaneSystem K) (guess : K × K)
    (htolerance : 0 < tolerance) :
    solve settings system guess tolerance =
      ofIteration (result settings system) .system id
        (iterate (linearStep settings system tolerance) settings.maxIterations
          ⟨guess.1, guess.2, Scalar.infinity⟩) := by
  rw [solve_eq]
  simp [htolerance]

/-- The run of a search in an affine system. -/
theorem exists_run_affine
    {m : Matrix2 K} {c root : K × K} (haffine : IsAffine system m c)
    (hroot : ∀ p : K × K, system.values p.1 p.2 = (0, 0) ↔ p = root)
    (hsqrt : Scalar.sqrt (0 : K) = 0) (htolerance : 0 < tolerance)
    (hfloor : 0 < settings.determinantFloor)
    (hregular : settings.determinantFloor ≤ |m.determinant|)
    (hx : |root.1| ≤ settings.divergenceBound)
    (hy : |root.2| ≤ settings.divergenceBound) (guess : K × K)
    (hcap : 1 ≤ settings.maxIterations) :
    ∃ run e rest,
      iterate (linearStep settings system tolerance) settings.maxIterations
        ⟨guess.1, guess.2, Scalar.infinity⟩ = .ok run ∧
      run.entries = e :: rest ∧ (e.x, e.y) = root ∧ run.state.point = root ∧
      run.entries.length ≤ 2 ∧
      (2 ≤ settings.maxIterations → run.settled = true) := by
  have hmoved : State.moved ⟨guess.1, guess.2, Scalar.infinity⟩ =
      (Scalar.infinity : K) := rfl
  obtain ⟨run, hrun, hcompletes⟩ := Search.exists_completes_of_forall_path
    settings.maxIterations
      (fun s _ => performs_linearStep settings system tolerance s)
    trivial hmoved fun _ stop _ =>
      exists_corrects haffine hroot hfloor hregular hx hy stop
  obtain ⟨hmade, hstop, htail⟩ :=
    path_affine haffine hroot hsqrt hcompletes.path
  have hnil := hcompletes.entries_ne_nil hcap
  obtain ⟨hlength, hsettled⟩ := hcompletes.of_tail_short fun e he => by
    rw [← htail e he] at htolerance
    exact htolerance
  obtain ⟨e, rest, hentries⟩ := List.exists_cons_of_ne_nil hnil
  exact ⟨run, e, rest, hrun, hentries, hmade e (by simp [hentries]),
    hstop hnil, hlength, hsettled⟩

/-- Every step a search records, in a result or before a breakdown, solves the
system linearised at the point before it, and no matrix is found that passes the
floor and cannot be inverted.  In an affine system with a matrix that passes the
floor and its root within the bound, the first step leads to the root, and a
second one is the last; of the square root only its value at zero matters. -/
theorem solve_linearises
    (settings : Settings K) (system : PlaneSystem K) (guess : K × K)
    (htolerance : 0 < tolerance) (hfloor : 0 < settings.determinantFloor) :
    (∃ made stop,
      keptSteps (solve settings system guess tolerance) =
        Step.number (made.map .system) ∧
      Path (SolvesLinearised system) guess made stop) ∧
    (∀ x y completed, solve settings system guess tolerance ≠
      .error (.breakdown (.jacobianNotInvertible x y) completed)) ∧
    (Scalar.sqrt (0 : K) = 0 → ∀ m c, IsAffine system m c →
      settings.determinantFloor ≤ |m.determinant| →
      ∃ root : K × K, (∀ p : K × K, system.values p.1 p.2 = (0, 0) ↔ p = root) ∧
        (|root.1| ≤ settings.divergenceBound →
          |root.2| ≤ settings.divergenceBound →
          1 ≤ settings.maxIterations →
          ∃ r e rest, solve settings system guess tolerance = .ok r ∧
            r.steps = Step.number (.system e :: rest) ∧ (e.x, e.y) = root ∧
            (r.x, r.y) = root ∧ r.residualNorm = 0 ∧ r.iterations ≤ 2 ∧
            (2 ≤ settings.maxIterations → r.converged = true))) := by
  rw [solve_eq_ofIteration settings system guess htolerance]
  refine ⟨?_, ?_, ?_⟩
  · have hmoved : State.moved ⟨guess.1, guess.2, Scalar.infinity⟩ =
        (Scalar.infinity : K) := rfl
    obtain ⟨made, stop, hkept, hpath⟩ := Search.exists_path_of_ofIteration
      (fun s _ => performs_linearStep settings system tolerance s)
      (reports_result settings system) trivial hmoved
    exact ⟨made, stop, hkept, hpath.mono fun _ _ _ => Corrects.solvesLinearised⟩
  · intro x y completed hbreak
    obtain ⟨_, made, hrun, rfl, -⟩ := ofIteration_eq_breakdown_iff.mp hbreak
    obtain ⟨s, -, -, hfail⟩ := exists_steps_of_iterate_eq_error hrun
    exact linearStep_ne_fail_jacobianNotInvertible hfloor tolerance s x y hfail
  · intro hsqrt m c haffine hregular
    obtain ⟨root, hroot⟩ :=
      haffine.exists_root (determinant_ne_zero hfloor hregular)
    refine ⟨root, hroot, fun hx hy hcap => ?_⟩
    obtain ⟨run, e, rest, hrun, hentries, hfirst, hpoint, hlength, hsettled⟩ :=
      exists_run_affine haffine hroot hsqrt htolerance hfloor hregular hx
        hy guess hcap
    refine ⟨result settings system run, e, rest.map .system,
      ofIteration_eq_ok_iff.mpr ⟨run, hrun, rfl⟩, ?_, hfirst, hpoint,
      ?_, hlength, ?_⟩
    · rw [result, hentries, List.map_cons]
    · have hvalues : system.values run.state.x run.state.y = (0, 0) :=
        (hroot _).mpr hpoint
      rw [result, hvalues, pairNorm_zero hsqrt]
    · intro hcap
      simp [result, SystemSolveResult.converged, hsettled hcap, Warning.occurs]

end Solve

/-- Two lines that cross at `(1, 2)`. -/
def crossingLines : PlaneSystem ℚ where
  values x y := (x + 2 * y - 5, 3 * x + 4 * y - 11)
  jacobian _ _ := ⟨1, 2, 3, 4⟩

/-- The crossing is found from the origin. -/
theorem solve_linearises_crossingLines :
    ∃ r, solve ⟨5, 1, 10⟩ crossingLines (0, 0) (1 / 10) = .ok r ∧
      (r.x, r.y) = (1, 2) ∧
      r.converged = true ∧ r.residualNorm = 0 ∧ r.iterations ≤ 2 := by
  have haffine : IsAffine crossingLines ⟨1, 2, 3, 4⟩ (-5, -11) := by
    refine ⟨fun x y => ?_, fun _ _ => rfl⟩
    simp only [crossingLines, one_mul, sub_eq_add_neg]
  obtain ⟨root, hroot, hsolve⟩ :=
    (solve_linearises ⟨5, 1, 10⟩ crossingLines (0, 0)
      (by norm_num : (0 : ℚ) < 1 / 10)
      one_pos).2.2 (by decide +kernel) _ _ haffine (by decide +kernel)
  obtain rfl : (1, 2) = root := (hroot (1, 2)).mp (by decide +kernel)
  obtain ⟨r, e, rest, hr, -, -, hpoint, hresidual, hiterations, hconverged⟩ :=
    hsolve (by decide +kernel) (by decide +kernel) (by decide)
  exact ⟨r, hr, hpoint, hconverged (by decide), hresidual, hiterations⟩

end PlaneNewton
end NumericalMethods
