import NumericalMethods.Proofs.InitialValue.Grid
import NumericalMethods.Scalar.Binary64

/-!
# Longer and shorter runs

A method computes the points of a solution one after the other, and the number
of steps only says where it stops.  So the points at more steps begin with the
points at fewer steps.  A method that breaks down keeps the points of the
longest run that succeeds, and breaks down in the same way in every run that
is longer.

This is shown once, for rounds that leave a point at the next node, and holds of
the method of Milne with its own start-up as it does of the one-step methods.
-/

namespace NumericalMethods
namespace InitialValue

variable {α : Type} [Scalar α]

/-- Points at each number of steps that belong to one solution. -/
structure Continues (x0 y0 h : α)
    (points : ℕ → Except (EngineError α) (List (α × α))) : Prop where
  map_fst : ∀ {n found}, points n = .ok found →
    found.map Prod.fst = abscissae x0 h n
  head?_eq : ∀ {n found}, points n = .ok found → found.head? = some (x0, y0)
  isFinite : ∀ {n found}, points n = .ok found →
    ∀ point ∈ found, Scalar.isFinite point.2 = true
  take : ∀ {n found}, points n = .ok found →
    ∀ k ≤ n, points k = .ok (found.take (k + 1))
  stops : ∀ {n e}, points n = .error e →
    ∃ cause reached j, e = .breakdown cause (.points reached) ∧ j < n ∧
      reached.length = j + 1 ∧ points j = .ok reached ∧ ∀ m, j < m →
        points m = .error e

section Rounds

variable {σ : Type} {round : σ → Round (Breakdown α) (α × α) σ}
  {index : σ → ℕ} {start : σ} {x0 y0 h : α}

theorem Advances.isFinite_of_steps
    (hround : Advances round index x0 h) {made : List (α × α)} {s : σ}
    (hsteps : Steps round start made s) :
    ∀ point ∈ made, Scalar.isFinite point.2 = true := by
  induction hsteps with
  | refl => exact nofun
  | snoc _ hnext ih =>
      intro point hpoint
      rcases List.mem_append.mp hpoint with hbefore | hlast
      · exact ih point hbefore
      · rw [List.mem_singleton.mp hlast]
        exact (hround.of_step hnext).2.1

omit [Scalar α] in
theorem collect_of_steps
    (origin : α × α) {made : List (α × α)} {s : σ}
    (hsteps : Steps round start made s) :
    collect origin (iterate round made.length start) =
      .ok (origin :: made) := by
  rw [iterate_eq_ok_of_steps hsteps]
  rfl

theorem Advances.continues
    (hround : Advances round index x0 h) (hstart : index start = 0)
    (hy0 : Scalar.isFinite y0 = true) :
    Continues x0 y0 h fun n => collect (x0, y0) (iterate round n start) where
  map_fst hfound := hround.map_fst_of_collect hstart hfound
  head?_eq hfound := by
    obtain ⟨made, s, -, -, rfl⟩ := hround.exists_steps_of_collect_eq_ok hfound
    rfl
  isFinite hfound := by
    obtain ⟨made, s, hsteps, -, rfl⟩ :=
      hround.exists_steps_of_collect_eq_ok hfound
    intro point hpoint
    rcases List.mem_cons.mp hpoint with rfl | hmade
    · exact hy0
    · exact hround.isFinite_of_steps hsteps point hmade
  take hfound k hk := by
    obtain ⟨made, s, hsteps, rfl, rfl⟩ :=
      hround.exists_steps_of_collect_eq_ok hfound
    obtain ⟨s', hfirst⟩ := hsteps.take hk
    have hcollect := collect_of_steps (x0, y0) hfirst
    rwa [List.length_take, Nat.min_eq_left hk] at hcollect
  stops {n e} he := by
    cases hrun : iterate round n start with
    | ok run => simp [hrun, collect] at he
    | error stopped =>
        obtain ⟨cause, made⟩ := stopped
        simp only [hrun, collect, Except.error.injEq] at he
        obtain ⟨s, hsteps, hlength, hfail⟩ :=
          exists_steps_of_iterate_eq_error hrun
        refine ⟨cause, (x0, y0) :: made, made.length, he.symm, hlength, rfl,
          collect_of_steps _ hsteps, ?_⟩
        intro m hm
        rw [iterate_eq_error_of_steps hsteps hfail hm, ← he]
        rfl

end Rounds

/-! ## The methods -/

/-- The points at so many steps can be held in memory. -/
def Storable (n : ℕ) : Prop :=
  (n + 1) * 16 ≤ largestBlock

instance (n : ℕ) : Decidable (Storable n) :=
  inferInstanceAs (Decidable (_ ≤ _))

theorem Storable.of_le {n k : ℕ} (hn : Storable n) (hk : k ≤ n) :
    Storable k := by
  rw [Storable] at hn ⊢
  omega

theorem solutionPoints_of_storable
    (settings : Settings) (method : OdeMethod) (f : OdeFunction α)
    (x0 y0 h tolerance : α) {n : ℕ} (hn : Storable n) :
    solutionPoints settings method f x0 y0 h n tolerance =
      liftError (match method with
        | .euler => eulerPoints f x0 y0 h n
        | .extendedEuler => extendedEulerPoints f x0 y0 h n
        | .milne =>
            milnePoints f settings.maxCorrectorIterations x0 y0 h n
              tolerance) := by
  rw [Storable] at hn
  cases method with
  | euler => simp [solutionPoints, reserve, hn, bind, Except.bind]
  | extendedEuler => simp [solutionPoints, reserve, hn, bind, Except.bind]
  | milne => simp [solutionPoints, reserve, hn, bind, Except.bind]

theorem exists_continues
    (settings : Settings) (method : OdeMethod) (f : OdeFunction α)
    (x0 h tolerance : α) {y0 : α} (hy0 : Scalar.isFinite y0 = true) :
    ∃ points, Continues x0 y0 h points ∧
      ∀ n, Storable n →
        solutionPoints settings method f x0 y0 h n tolerance =
          liftError (points n) := by
  cases method with
  | euler =>
      exact ⟨_,
        (advances_advance .euler (eulerStep f.rhs h) x0 h).continues rfl hy0,
        fun n hn =>
          solutionPoints_of_storable settings .euler f x0 y0 h tolerance hn⟩
  | extendedEuler =>
      exact ⟨_,
        (advances_advance .extendedEuler (midpointStep f.rhs h) x0
          h).continues rfl hy0,
        fun n hn =>
          solutionPoints_of_storable settings .extendedEuler f x0 y0 h
            tolerance hn⟩
  | milne =>
      exact ⟨_,
        (advances_milneRound f settings.maxCorrectorIterations tolerance
          x0 h).continues
          rfl hy0,
        fun n hn =>
          solutionPoints_of_storable settings .milne f x0 y0 h tolerance hn⟩

/-- A run that succeeds has a point at each node, with finite ordinates, and
begins with every shorter run.  A run that breaks down kept the points of a
shorter run that succeeds, and all runs longer than that break down in the
same way. -/
theorem solutionPoints_prefix
    (settings : Settings) (method : OdeMethod) (f : OdeFunction α)
    (x0 h tolerance : α) {y0 : α} (hy0 : Scalar.isFinite y0 = true) {n : ℕ}
    (hn : Storable n) :
    (∀ points, solutionPoints settings method f x0 y0 h n tolerance =
      .ok points →
      points.length = n + 1 ∧ points[0]? = some (x0, y0) ∧
      (∀ i, 1 ≤ i → i ≤ n → ∃ y,
        points[i]? = some (x0 + Scalar.ofNat i * h, y)) ∧
      (∀ point ∈ points, Scalar.isFinite point.2 = true) ∧
      ∀ k ≤ n, solutionPoints settings method f x0 y0 h k tolerance =
        .ok (points.take (k + 1))) ∧
    ∀ failure, solutionPoints settings method f x0 y0 h n tolerance =
        .error failure →
      ∃ cause reached j, failure =
          .error (.breakdown cause (.points reached)) ∧ j < n ∧
        reached.length = j + 1 ∧
        solutionPoints settings method f x0 y0 h j tolerance = .ok reached ∧
        ∀ m, j < m → Storable m →
          solutionPoints settings method f x0 y0 h m tolerance =
            .error failure := by
  obtain ⟨points, hpoints, hlift⟩ :=
    exists_continues settings method f x0 h tolerance hy0
  rw [hlift n hn]
  constructor
  · intro found hfound
    rw [liftError_eq_ok_iff] at hfound
    have hfst := hpoints.map_fst hfound
    have hlength : found.length = n + 1 := by
      rw [← List.length_map Prod.fst, hfst, length_abscissae]
    refine ⟨hlength, ?_, ?_, hpoints.isFinite hfound, ?_⟩
    · rw [← List.head?_eq_getElem?]
      exact hpoints.head?_eq hfound
    · intro i hpositive hi
      obtain ⟨k, rfl⟩ := Nat.exists_eq_add_of_le' hpositive
      have habscissa : (found.map Prod.fst)[k + 1]? =
          some (node x0 h (k + 1)) := by
        rw [hfst]
        exact getElem?_abscissae_of_lt hi
      rw [List.getElem?_map, Option.map_eq_some_iff] at habscissa
      obtain ⟨point, hpoint, hx⟩ := habscissa
      exact ⟨point.2, by rw [hpoint, ← node, ← hx]⟩
    · intro k hk
      rw [hlift k (hn.of_le hk), hpoints.take hfound k hk]
      rfl
  · intro failure hfailure
    cases he : points n with
    | ok found => simp [he, liftError] at hfailure
    | error e =>
        simp only [he, liftError, Except.error.injEq] at hfailure
        obtain ⟨cause, reached, j, rfl, hj, hlength, hreached, hlonger⟩ :=
          hpoints.stops he
        refine ⟨cause, reached, j, hfailure.symm, hj, hlength, ?_, ?_⟩
        · rw [hlift j (hn.of_le (Nat.le_of_lt hj)), hreached]
          rfl
        · intro m hm hstorable
          rw [hlift m hstorable, hlonger m hm, ← hfailure]
          rfl

/-- Growth at the rate of what there is. -/
def growth : OdeFunction Float where
  rhs _ y := y

/-- The corrector may be applied once and does not settle, so the start-up is
all there is, in longer runs too. -/
theorem solutionPoints_prefix_growth :
    ∃ failure reached,
      solutionPoints ⟨1, false, 0⟩ .milne growth 0 1 1 5 0 = .error failure ∧
      reached.length = 4 ∧
      solutionPoints ⟨1, false, 0⟩ .milne growth 0 1 1 3 0 = .ok reached ∧
      solutionPoints ⟨1, false, 0⟩ .milne growth 0 1 1 1000000 0 =
        .error failure := by
  have hvalue : (match solutionPoints ⟨1, false, 0⟩ .milne growth 0 1 1 5 0 with
      | .error (.error e) => e.partialTrace?.map PartialTrace.length
      | _ => none) = some 4 := by decide +kernel
  have hfinite : Scalar.isFinite (1 : Float) = true := by decide
  have hstorable : Storable 5 := by decide
  obtain ⟨-, hstops⟩ :=
    solutionPoints_prefix ⟨1, false, 0⟩ .milne growth 0 1 0 hfinite hstorable
  cases hrun : solutionPoints ⟨1, false, 0⟩ .milne growth 0 1 1 5 0 with
  | ok points =>
      rw [hrun] at hvalue
      cases hvalue
  | error failure =>
      obtain ⟨cause, reached, j, rfl, hj, hlength, hreached, hlonger⟩ :=
        hstops failure hrun
      rw [hrun] at hvalue
      have hfour : reached.length = 4 := Option.some.inj hvalue
      obtain rfl : j = 3 := by omega
      exact ⟨_, reached, rfl, hfour, hreached,
        hlonger 1000000 (by decide) (by decide)⟩

end InitialValue
end NumericalMethods
