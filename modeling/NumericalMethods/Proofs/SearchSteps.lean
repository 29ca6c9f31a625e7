import NumericalMethods.Proofs.Search

/-!
# The four searches by steps

For each method the right steps are described by the functions given and the
limits observed, without the values a run carries along.  A round of the method
makes such a step, or breaks down where there is none, so every outcome obeys
the law of a trace.  No law of arithmetic is used.
-/

namespace NumericalMethods

/-- Finite, and not beyond the bound. -/
structure Within {α : Type} [Scalar α] (bound x : α) : Prop where
  finite : Scalar.isFinite x = true
  bounded : ¬ bound < Scalar.abs x

variable {α : Type} [Scalar α]

namespace RootFinding

theorem inBound_eq_true_iff {settings : RootSettings α} {x : α} :
    inBound settings x = true ↔ Within settings.divergenceBound x := by
  rw [inBound, Bool.and_eq_true, Bool.not_eq_true', decide_eq_false_iff_not]
  exact ⟨fun h => ⟨h.1, h.2⟩, fun h => ⟨h.finite, h.bounded⟩⟩

/-- The result names a root, the function there, and the last distance moved. -/
structure TellsRoot (f : ScalarFunction α) (r : SolveResult α)
    (x moved : α) : Prop where
  value_eq : r.value = x
  functionValue_eq : r.functionValue = some (f.evaluate x)
  errorValue_eq : r.errorValue = moved

omit [Scalar α] in
theorem reports_searchResult
    {π τ σ : Type} {search : Search α π τ (SolveResult α)} {point : σ → π}
    {x moved : σ → α} (method : RootMethod) (f : ScalarFunction α)
    {warnings : List (Warning α)} (settings : RootSettings α)
    (htells : ∀ r s, TellsRoot f r (x s) (moved s) →
      search.Tells r (point s) (moved s))
    (hwarnings : Warning.occurs warnings .iterationLimitExceeded = false)
    (run : Run τ σ) :
    search.Reports point moved run
      (searchResult method f x moved search.record warnings settings run) where
  iterations_eq := List.length_map _
  steps_eq := rfl
  tells := htells _ _ ⟨rfl, rfl, rfl⟩
  stoppedAtCap_iff := stoppedAtCap_iff rfl hwarnings

/-! ## Simple iteration -/

/-- A step of the iteration function `x ↦ x + λ f(x)`. -/
structure AppliesOnce (settings : RootSettings α) (f : α → α) (lambda x : α)
    (e : SimpleIterationStep α) (next : α) : Prop where
  x_eq : e.x = x
  phi_eq : e.phi = x + lambda * f x
  next_eq : e.next = e.phi
  fNext_eq : e.fNext = f e.next
  absDiff_eq : e.absDiff = Scalar.abs (e.next - e.x)
  within : Within settings.divergenceBound e.next
  arrives : next = e.next

def simpleIterationSearch (settings : RootSettings α) (f : ScalarFunction α)
    (lambda : α) :
    Search α α (SimpleIterationStep α) (SolveResult α) where
  Makes := AppliesOnce settings f.evaluate lambda
  moved := SimpleIterationStep.absDiff
  record := .simpleIteration
  Tells := TellsRoot f

theorem performs_applyOnce
    (settings : RootSettings α) (f : ScalarFunction α) (lambda tolerance : α)
    (s : Iterate α) :
    (simpleIterationSearch settings f lambda).Performs tolerance Iterate.x
      Iterate.moved
      (fun _ => True) s (applyOnce settings f.evaluate lambda tolerance s) := by
  rw [applyOnce]
  by_cases hbound : inBound settings (s.x + lambda * f.evaluate s.x) = true
  · simp only [hbound, if_true]
    refine Search.Performs.of_makes ?_ rfl rfl trivial
    exact ⟨rfl, rfl, rfl, rfl, rfl, inBound_eq_true_iff.mp hbound, rfl⟩
  · simp only [hbound]
    refine .fail ?_
    intro e next h
    have hwithin := h.within
    rw [h.next_eq, h.phi_eq] at hwithin
    exact hbound (inBound_eq_true_iff.mpr hwithin)

theorem lawful_simpleIteration
    (settings : RootSettings α) (f : ScalarFunction α) (start : RootStart α)
    {tolerance : α} (htolerance : ¬ (Scalar.infinity : α) < tolerance)
    {s : SlopedStart α} (hstart : slopedStart f start = .ok s)
    (hslope : ¬ Scalar.abs s.slope < settings.derivativeFloor) :
    (simpleIterationSearch settings f (-1 / s.slope)).Lawful s.x tolerance
      settings.maxIterations (simpleIteration settings f start tolerance) := by
  rw [simpleIteration_eq, hstart]
  simp only [hslope]
  refine Search.lawful_ofIteration
    (fun s _ => performs_applyOnce settings f _ tolerance s) ?_
    rfl rfl trivial htolerance
  intro run
  exact reports_searchResult _ _ _ (fun _ _ h => h)
    (occurs_contractionWarning _) run

/-- A result of simple iteration is one of a start with a usable slope. -/
theorem exists_slopedStart_of_simpleIteration_eq_ok
    {settings : RootSettings α} {f : ScalarFunction α} {start : RootStart α}
    {tolerance : α} {r : SolveResult α}
    (hr : simpleIteration settings f start tolerance = .ok r) :
    ∃ s, slopedStart f start = .ok s ∧
      ¬ Scalar.abs s.slope < settings.derivativeFloor := by
  rw [simpleIteration_eq] at hr
  cases hstart : slopedStart f start with
  | error e => simp [hstart] at hr
  | ok s =>
      refine ⟨s, rfl, ?_⟩
      intro hslope
      simp [hstart, hslope] at hr

/-! ## Tangents -/

/-- A step along the tangent at `x`. -/
structure FollowsTangent (settings : RootSettings α)
    (f : ScalarFunction α) (x : α) (e : NewtonStep α) (next : α) : Prop where
  x_eq : e.x = x
  fx_eq : e.fx = f.evaluate e.x
  slope_eq : f.derivative x = some e.slope
  steep : settings.derivativeFloor ≤ Scalar.abs e.slope
  next_eq : e.next = e.x - e.fx / e.slope
  absDiff_eq : e.absDiff = Scalar.abs (e.next - e.x)
  within : Within settings.divergenceBound e.next
  arrives : next = e.next

def newtonSearch (settings : RootSettings α) (f : ScalarFunction α) :
    Search α α (NewtonStep α) (SolveResult α) where
  Makes := FollowsTangent settings f
  moved := NewtonStep.absDiff
  record := .newton
  Tells := TellsRoot f

theorem performs_followTangent
    (settings : RootSettings α) (f : ScalarFunction α) (tolerance : α)
    (s : Iterate α) :
    (newtonSearch settings f).Performs tolerance Iterate.x Iterate.moved
      (fun _ => True) s (followTangent settings f tolerance s) := by
  rw [followTangent]
  cases hslope : f.derivative s.x with
  | none =>
      refine .fail ?_
      intro e next h
      have hsome := h.slope_eq
      rw [hslope] at hsome
      cases hsome
  | some slope =>
      have hunique : ∀ e next, FollowsTangent settings f s.x e next →
          slope = e.slope := by
        intro e next h
        have hsome := h.slope_eq
        rw [hslope] at hsome
        exact Option.some.inj hsome
      by_cases hsteep : settings.derivativeFloor ≤ Scalar.abs slope
      · by_cases hbound : inBound settings (s.x - f.evaluate s.x / slope) = true
        · simp only [hsteep, hbound, if_true]
          refine Search.Performs.of_makes ?_ rfl rfl trivial
          exact ⟨rfl, rfl, hslope, hsteep, rfl, rfl,
            inBound_eq_true_iff.mp hbound, rfl⟩
        · simp only [hsteep, hbound, if_true]
          refine .fail ?_
          intro e next h
          have hwithin := h.within
          rw [h.next_eq, h.fx_eq, h.x_eq, ← hunique e next h] at hwithin
          exact hbound (inBound_eq_true_iff.mpr hwithin)
      · simp only [hsteep]
        refine .fail ?_
        intro e next h
        have hsteep' := h.steep
        rw [← hunique e next h] at hsteep'
        exact hsteep hsteep'

theorem lawful_newton
    (settings : RootSettings α) (f : ScalarFunction α) (start : RootStart α)
    {tolerance : α} (htolerance : ¬ (Scalar.infinity : α) < tolerance) :
    (newtonSearch settings f).Lawful (tangentStart f start) tolerance
      settings.maxIterations (newton settings f start tolerance) := by
  rw [newton_eq]
  dsimp only
  by_cases hslope : (f.derivative (tangentStart f start)).isNone = true
  · rw [if_pos hslope]
    exact ⟨nofun, nofun⟩
  · rw [if_neg hslope]
    refine Search.lawful_ofIteration
      (fun s _ => performs_followTangent settings f tolerance s) ?_
      rfl rfl trivial htolerance
    intro run
    exact reports_searchResult _ _ _ (fun _ _ h => h) rfl run

/-- A search along tangents that never gets stuck answers. -/
theorem exists_newton_eq_ok
    (settings : RootSettings α) (f : ScalarFunction α) (start : RootStart α)
    (tolerance : α) {slope : α}
    (hslope : f.derivative (tangentStart f start) = some slope)
        (hnext : ∀ made stop,
          Path (FollowsTangent settings f) (tangentStart f start) made stop →
      ∃ e next, FollowsTangent settings f stop e next) :
    ∃ r made, newton settings f start tolerance = .ok r ∧
      r.steps = Step.number (made.map .newton) ∧
      Path (FollowsTangent settings f) (tangentStart f start) made r.value := by
  have hperforms := fun (s : Iterate α) (_ : True) =>
    performs_followTangent settings f tolerance s
  have hmoved : Iterate.moved ⟨tangentStart f start, Scalar.infinity⟩ =
      Scalar.infinity := rfl
  obtain ⟨run, hrun, hcompletes⟩ :=
    Search.exists_completes_of_forall_path settings.maxIterations hperforms
      trivial hmoved hnext
  refine ⟨searchResult .newton f Iterate.x Iterate.moved .newton [] settings
    run, run.entries,
    ?_, rfl, hcompletes.path⟩
  rw [newton_eq]
  simp only [hslope, Option.isNone_some, if_neg Bool.false_ne_true]
  exact ofIteration_eq_ok_iff.mpr ⟨run, hrun, rfl⟩

/-! ## Chords -/

/-- A step along the chord over two points. -/
structure FollowsChord (settings : RootSettings α) (f : α → α) (ends : α × α)
    (e : SecantStep α) (next : α × α) : Prop where
  previous_eq : e.previous = ends.1
  x_eq : e.x = ends.2
  steep : settings.divisorFloor ≤ Scalar.abs (f e.x - f e.previous)
  next_eq : e.next = e.x - f e.x * (e.x - e.previous) / (f e.x - f e.previous)
  fNext_eq : e.fNext = f e.next
  absDiff_eq : e.absDiff = Scalar.abs (e.next - e.x)
  within : Within settings.divergenceBound e.next
  arrives : next = (e.x, e.next)

def secantSearch (settings : RootSettings α) (f : ScalarFunction α) :
    Search α (α × α) (SecantStep α) (SolveResult α) where
  Makes := FollowsChord settings f.evaluate
  moved := SecantStep.absDiff
  record := .secant
  Tells r ends moved := TellsRoot f r ends.2 moved

/-- The two points of a chord. -/
def Chord.ends (s : Chord α) : α × α :=
  (s.previous, s.x)

/-- The values carried along are those of the function. -/
structure Chord.Carries (f : α → α) (s : Chord α) : Prop where
  fPrevious_eq : s.fPrevious = f s.previous
  fx_eq : s.fx = f s.x

/-- The step is described by the function, and the round by the values carried
along. -/
theorem performs_followChord
    (settings : RootSettings α) (f : ScalarFunction α) (tolerance : α)
    {s : Chord α} (hs : s.Carries f.evaluate) :
    (secantSearch settings f).Performs tolerance Chord.ends Chord.moved
      (Chord.Carries f.evaluate) s
        (followChord settings f.evaluate tolerance s) := by
  rw [followChord, hs.fPrevious_eq, hs.fx_eq]
  dsimp only
  by_cases hsteep : settings.divisorFloor ≤
      Scalar.abs (f.evaluate s.x - f.evaluate s.previous)
  · rw [if_pos hsteep]
    by_cases hbound : inBound settings
      (s.x - f.evaluate s.x * (s.x - s.previous) /
        (f.evaluate s.x - f.evaluate s.previous)) = true
    · rw [if_pos hbound]
      refine Search.Performs.of_makes ?_ rfl rfl ⟨rfl, rfl⟩
      exact ⟨rfl, rfl, hsteep, rfl, rfl, rfl,
        inBound_eq_true_iff.mp hbound, rfl⟩
    · rw [if_neg hbound]
      refine .fail ?_
      intro e next h
      have hwithin := h.within
      rw [h.next_eq, h.x_eq, h.previous_eq] at hwithin
      exact hbound (inBound_eq_true_iff.mpr hwithin)
  · rw [if_neg hsteep]
    refine .fail ?_
    intro e next h
    have hsteep' := h.steep
    rw [h.x_eq, h.previous_eq] at hsteep'
    exact hsteep hsteep'

theorem lawful_secant
    (settings : RootSettings α) (f : ScalarFunction α) (start : RootStart α)
    {tolerance : α} (htolerance : ¬ (Scalar.infinity : α) < tolerance) :
    (secantSearch settings f).Lawful (chordEnds start) tolerance
      settings.maxIterations (secant settings f start tolerance) := by
  rw [secant_eq]
  refine Search.lawful_ofIteration
    (fun s hs => performs_followChord settings f tolerance hs) ?_
    rfl rfl ⟨rfl, rfl⟩ htolerance
  intro run
  exact reports_searchResult _ _ _ (fun _ _ h => h) rfl run

end RootFinding

/-! ## Two equations -/

namespace PlaneNewton

theorem inBound_eq_true_iff {settings : Settings α} {x : α} :
    inBound settings x = true ↔ Within settings.divergenceBound x := by
  rw [inBound, Bool.and_eq_true, Bool.not_eq_true', decide_eq_false_iff_not]
  exact ⟨fun h => ⟨h.1, h.2⟩, fun h => ⟨h.finite, h.bounded⟩⟩

/-- What the linearised system takes off a point, if its matrix can be
inverted. -/
def correction? (system : PlaneSystem α) (p : α × α) : Option (α × α) :=
  (system.jacobian p.1 p.2).inverse?.map fun inverse =>
    inverse.apply (system.values p.1 p.2)

/-- A step of the linearised system by the correction `delta`. -/
structure Takes (p delta : α × α) (e : SystemStep α) : Prop where
  x_eq : e.x = p.1 - delta.1
  y_eq : e.y = p.2 - delta.2
  dx_eq : e.dx = -delta.1
  dy_eq : e.dy = -delta.2
  updateNorm_eq : e.updateNorm = pairNorm delta

/-- A step of the linearised system at `p`. -/
structure Corrects (settings : Settings α) (system : PlaneSystem α) (p : α × α)
    (e : SystemStep α) (next : α × α) : Prop where
  regular : settings.determinantFloor ≤
    Scalar.abs (system.jacobian p.1 p.2).determinant
  takes : ∃ delta, correction? system p = some delta ∧ Takes p delta e
  residualNorm_eq : e.residualNorm = pairNorm (system.values e.x e.y)
  within_x : Within settings.divergenceBound e.x
  within_y : Within settings.divergenceBound e.y
  arrives : next = (e.x, e.y)

/-- The result names a point, the values there, and the length of the
last step. -/
structure TellsPoint (system : PlaneSystem α)
    (r : SystemSolveResult α) (p : α × α) (moved : α) : Prop where
  point_eq : (r.x, r.y) = p
  residualNorm_eq : r.residualNorm = pairNorm (system.values p.1 p.2)
  errorValue_eq : r.errorValue = moved

def search (settings : Settings α) (system : PlaneSystem α) :
    Search α (α × α) (SystemStep α) (SystemSolveResult α) where
  Makes := Corrects settings system
  moved := SystemStep.updateNorm
  record := .system
  Tells := TellsPoint system

def State.point (s : State α) : α × α :=
  (s.x, s.y)

theorem performs_linearStep
    (settings : Settings α) (system : PlaneSystem α) (tolerance : α)
    (s : State α) :
    (search settings system).Performs tolerance State.point State.moved
      (fun _ => True) s
      (linearStep settings system tolerance s) := by
  rw [linearStep]
  dsimp only
  by_cases hregular : settings.determinantFloor ≤
    Scalar.abs (system.jacobian s.x s.y).determinant
  · rw [if_pos hregular]
    cases hinverse : (system.jacobian s.x s.y).inverse? with
    | none =>
        have hnone : correction? system s.point = none := by
          simp [correction?, State.point, hinverse]
        refine .fail ?_
        rintro e next ⟨-, ⟨delta, hdelta, -⟩, -⟩
        rw [hnone] at hdelta
        cases hdelta
    | some inverse =>
        have hsome : correction? system s.point =
            some (inverse.apply (system.values s.x s.y)) := by
          simp [correction?, State.point, hinverse]
        dsimp only
        generalize inverse.apply (system.values s.x s.y) = delta at hsome
        by_cases hbound : (inBound settings (s.x - delta.1) &&
            inBound settings (s.y - delta.2)) = true
        · rw [if_pos hbound]
          rw [Bool.and_eq_true, inBound_eq_true_iff, inBound_eq_true_iff]
            at hbound
          refine Search.Performs.of_makes ?_ rfl rfl trivial
          exact ⟨hregular, ⟨delta, hsome, rfl, rfl, rfl, rfl, rfl⟩, rfl,
            hbound.1, hbound.2, rfl⟩
        · rw [if_neg hbound]
          rw [Bool.and_eq_true, inBound_eq_true_iff, inBound_eq_true_iff]
            at hbound
          refine .fail ?_
          rintro e next ⟨-, ⟨delta', hdelta', htakes⟩, -, hx, hy, -⟩
          obtain rfl : delta = delta' :=
            Option.some.inj (hsome.symm.trans hdelta')
          rw [htakes.x_eq] at hx
          rw [htakes.y_eq] at hy
          exact hbound ⟨hx, hy⟩
  · rw [if_neg hregular]
    refine .fail ?_
    intro e next h
    exact hregular h.regular

theorem reports_result
    (settings : Settings α) (system : PlaneSystem α)
    (run : Run (SystemStep α) (State α)) :
    (search settings system).Reports State.point State.moved run
      (result settings system run) :=
  ⟨rfl, rfl, ⟨rfl, rfl, rfl⟩, stoppedAtCap_iff (List.nil_append _).symm rfl⟩

theorem lawful_solve
    (settings : Settings α) (system : PlaneSystem α) (guess : α × α)
    {tolerance : α} (htolerance : ¬ (Scalar.infinity : α) < tolerance) :
    (search settings system).Lawful guess tolerance settings.maxIterations
      (solve settings system guess tolerance) := by
  rw [solve_eq]
  split
  · exact ⟨nofun, nofun⟩
  · split
    · exact ⟨nofun, nofun⟩
    · exact Search.lawful_ofIteration
        (fun s _ => performs_linearStep settings system tolerance s)
        (reports_result settings system) rfl rfl trivial htolerance

end PlaneNewton

end NumericalMethods
