import NumericalMethods.Interpolation
import NumericalMethods.Proofs.Exact.Rational
import NumericalMethods.Proofs.Interpolation.Forms
import NumericalMethods.Proofs.Interpolation.Selection

/-!
# All forms interpolate

In exact arithmetic the three methods of interpolation evaluate one polynomial,
which takes the value of every selected node there.  The forward form joins the
other two when the selected nodes are equally spaced.
-/

namespace NumericalMethods

namespace DataSet

/-! ## Data sets and sequences -/

/-- The points are the first entries of two sequences. -/
def Tabulates {α : Type} (d : DataSet α) (X Y : ℕ → α) : Prop :=
  d.points = (List.range d.points.length).map fun i => (X i, Y i)

section Tabulates

variable {α : Type} {d : DataSet α} {X Y : ℕ → α}

theorem Tabulates.getElem (h : d.Tabulates X Y) {i : ℕ}
    (hi : i < d.points.length) :
    d.points[i] = (X i, Y i) := by
  have hi' : i <
      ((List.range d.points.length).map fun i => (X i, Y i)).length := by
    simpa using hi
  have hget : d.points[i] =
      ((List.range d.points.length).map fun i => (X i, Y i))[i] := by
    congr 1
  simpa using hget

theorem Tabulates.x_eq (h : d.Tabulates X Y) :
    d.x = (List.range d.points.length).map X := by
  conv_lhs => rw [DataSet.x, h, List.map_map]
  rfl

theorem Tabulates.y_eq (h : d.Tabulates X Y) :
    d.y = (List.range d.points.length).map Y := by
  conv_lhs => rw [DataSet.y, h, List.map_map]
  rfl

theorem Tabulates.injOn (h : d.Tabulates X Y) (hdistinct : d.x.Nodup) :
    Set.InjOn X (Finset.range d.points.length) := by
  intro i hi j hj hij
  rw [h.x_eq] at hdistinct
  exact List.inj_on_of_nodup_map hdistinct (by simpa using hi)
    (by simpa using hj) hij

theorem tabulates_getD [Zero α] (d : DataSet α) :
    d.Tabulates (fun i => (d.points.getD i (0, 0)).1)
      (fun i => (d.points.getD i (0, 0)).2) := by
  apply List.ext_getElem
  · simp
  · intro i hi _
    simp [hi]

theorem Tabulates.dividedDifferences_eq [Sub α] [Div α] (h : d.Tabulates X Y) :
    d.dividedDifferences =
      (List.range d.points.length).map fun k => dividedDifference X Y 0 k := by
  let nodes : Vector (α × α) d.points.length := ⟨d.points.toArray, rfl⟩
  have hX : ∀ i : Fin d.points.length, X i = (nodes.map Prod.fst).get i := by
    intro i
    change X i = (nodes.map Prod.fst)[i.val]
    rw [Vector.getElem_map]
    exact (congrArg Prod.fst (h.getElem i.isLt)).symm
  have hY : ∀ i : Fin d.points.length, Y i = (nodes.map Prod.snd).get i := by
    intro i
    change Y i = (nodes.map Prod.snd)[i.val]
    rw [Vector.getElem_map]
    exact (congrArg Prod.snd (h.getElem i.isLt)).symm
  exact toList_dividedDifferences hX hY

end Tabulates

/-! ## Equal spacing -/

/-- All neighbours have the same distance. -/
def EquallySpaced {α : Type} [Sub α] (d : DataSet α) : Prop :=
  ∃ h, d.x.IsChain fun a b => b - a = h

section EquallySpaced

variable {K : Type} [Field K]

theorem eq_map_range_of_isChain {h : K} {a : K} {rest : List K}
    (hchain : (a :: rest).IsChain fun a b => b - a = h) :
    a :: rest = (List.range (rest.length + 1)).map fun i : ℕ => a + i * h := by
  induction rest generalizing a with
  | nil => simp
  | cons b rest ih =>
      obtain ⟨hab, hrest⟩ := List.isChain_cons_cons.mp hchain
      have hb : b = a + h := by rw [← hab]; ring
      rw [List.length_cons, List.range_succ_eq_map, List.map_cons, List.map_map,
        ih hrest]
      simp only [Nat.cast_zero, zero_mul, add_zero, List.cons.injEq, true_and]
      apply List.map_congr_left
      intro i _
      rw [hb, Function.comp_apply]
      push_cast
      ring

/-- Distinct equally spaced nodes lie on an arithmetic progression.  A single
node leaves the distance open. -/
theorem EquallySpaced.exists_tabulates {d : DataSet K} (hd : d.EquallySpaced)
    (hdistinct : d.x.Nodup) :
    ∃ (X Y : ℕ → K) (h : K), h ≠ 0 ∧ (∀ i, X i = X 0 + i * h) ∧
      d.Tabulates X Y := by
  obtain ⟨h, hchain⟩ := hd
  obtain ⟨h, hh, hchain⟩ :
      ∃ h, h ≠ 0 ∧ d.x.IsChain fun a b => b - a = h := by
    rcases hx : d.x with _ | ⟨a, _ | ⟨b, rest⟩⟩
    · exact ⟨1, one_ne_zero, .nil⟩
    · exact ⟨1, one_ne_zero, .singleton _⟩
    · rw [hx] at hchain hdistinct
      refine ⟨h, ?_, hchain⟩
      rw [← (List.isChain_cons_cons.mp hchain).1, sub_ne_zero]
      rintro rfl
      simp at hdistinct
  let Y : ℕ → K := fun i => (d.points.getD i (0, 0)).2
  obtain ⟨a, hx⟩ :
      ∃ a, d.x = (List.range d.points.length).map fun i : ℕ => a + i * h := by
    have hlength : d.x.length = d.points.length := by simp [DataSet.x]
    rcases hxs : d.x with _ | ⟨a, rest⟩
    · rw [hxs] at hlength
      exact ⟨0, by rw [← hlength]; rfl⟩
    · rw [hxs] at hlength hchain
      exact ⟨a, by rw [← hlength]; exact eq_map_range_of_isChain hchain⟩
  refine ⟨fun i => a + i * h, Y, h, hh, fun i => by simp, ?_⟩
  apply List.ext_getElem
  · simp
  · intro i hi _
    have hxi : d.x[i]? = some (a + i * h) := by simp [hx, hi]
    have hfst : d.points[i].1 = a + i * h := by
      simpa [DataSet.x, hi] using hxi
    simp [Y, hi, ← hfst]

end EquallySpaced

end DataSet

namespace Interpolation

open Polynomial

variable {K : Type} [Field K] [LinearOrder K] [ExactArithmetic K]

/-! ## The three methods on selected nodes -/

section Methods

variable {nodes : DataSet K} {X Y : ℕ → K}

theorem lagrange_eq_eval (htab : nodes.Tabulates X Y) (x : K) :
    lagrange nodes.points x =
      (Lagrange.interpolate (Finset.range nodes.points.length) X Y).eval x := by
  conv_lhs => rw [htab]
  exact lagrange_map_range X Y x nodes.points.length

theorem newtonForm_eq_eval (htab : nodes.Tabulates X Y)
    (hdistinct : nodes.x.Nodup) (x : K) :
    newtonForm x (nodes.x.zip nodes.dividedDifferences) =
      (Lagrange.interpolate (Finset.range nodes.points.length) X Y).eval x := by
  rw [htab.x_eq, htab.dividedDifferences_eq, List.zip_map',
    newtonForm_map_range,
    eval_interpolate_eq_sum_dividedDifference (htab.injOn hdistinct)]

theorem forwardForm_eq_eval [CharZero K] {h : K} (htab : nodes.Tabulates X Y)
    (hne : nodes.points ≠ []) (hh : h ≠ 0)
    (hX : ∀ i, X i = X 0 + i * h) (x : K) :
    forwardForm nodes.x (nodes.finiteDifferences.map fun row => row.headD 0) x =
      (Lagrange.interpolate (Finset.range nodes.points.length) X Y).eval x := by
  have hpos : 0 < nodes.points.length := List.length_pos_of_ne_nil hne
  have hstep : X 1 - X 0 = h := by rw [hX 1]; simp
  rw [DataSet.finiteDifferences, htab.y_eq,
    headD_finiteDifferences_map_range Y hpos, htab.x_eq,
    forwardForm_map_range X _ x hpos, hstep,
    eval_interpolate_eq_sum_fwdDiff hh hX]

end Methods

/-! ## Results of interpolation -/

theorem isEquallySpaced_of_equallySpaced [IsStrictOrderedRing K] {d : DataSet K}
    (hd : d.EquallySpaced) : isEquallySpaced d.x = true := by
  obtain ⟨h, hchain⟩ := hd
  rcases hx : d.x with _ | ⟨x0, _ | ⟨x1, _ | ⟨x2, rest⟩⟩⟩
  · rfl
  · rfl
  · rfl
  · rw [hx] at hchain
    have hfirst : x1 - x0 = h := (List.isChain_cons_cons.mp hchain).1
    rw [isEquallySpaced, List.all_eq_true]
    intro v hv
    obtain ⟨i, hi, rfl⟩ := List.getElem_of_mem hv
    have hgap := (List.isChain_iff_getElem.mp hchain) i (by simpa using hi)
    simp only [List.getElem_zipWith, List.getElem_tail, Scalar.abs_eq_abs, hgap,
      hfirst, sub_self, abs_zero, decide_eq_true_eq]
    positivity

/-- The tables of a result are those of the nodes it used. -/
theorem exists_interpolate_eq_ok (method : InterpolationMethod)
    {data nodes : DataSet K} {point : K} {amount : Option ℕ}
    (hnodes : selectNodes data point amount = .ok nodes)
    (hspacing : method = .newtonFinite → isEquallySpaced nodes.x = true) :
    ∃ r, interpolate method data point amount = .ok r ∧ r.nodes = nodes ∧
      ∀ x, r.evaluate x =
        evaluateAt method nodes nodes.dividedDifferences
          nodes.finiteDifferences x := by
  have hrefuse : (decide (method = .newtonFinite) && !isEquallySpaced nodes.x) =
      false := by
    by_cases hmethod : method = .newtonFinite
    · simp [hspacing hmethod]
    · simp [hmethod]
  obtain ⟨warnings, hok⟩ :
      ∃ warnings, interpolate method data point amount = .ok {
          method := method
          point := point
          interpolatedValue :=
            evaluateAt method nodes nodes.dividedDifferences
              nodes.finiteDifferences point
          differenceTable := nodes.finiteDifferences
          dividedDifferences := nodes.dividedDifferences
          nodes := nodes
          warnings := warnings } := by
    simp only [interpolate, hnodes, Scalar.isFinite_eq_true, bind, Except.bind,
      hrefuse, Bool.not_true, Bool.false_eq_true, if_false, pure, Except.pure]
    exact ⟨_, rfl⟩
  exact ⟨_, hok, rfl, fun _ => rfl⟩

/-- The form of Lagrange and the form of Newton through the same selected nodes
agree everywhere and take the values of the nodes there; so does the forward
form if the nodes are equally spaced. -/
theorem forms_agree [IsStrictOrderedRing K] {data : DataSet K}
    (hne : data.points ≠ []) (hdistinct : data.x.Nodup)
    (point : K) {amount : Option ℕ} (hamount : amount ≠ some 0) :
    ∃ l s : InterpolationResult K,
      interpolate .lagrange data point amount = .ok l ∧
      interpolate .newtonSeparated data point amount = .ok s ∧
      selectNodes data point amount = .ok l.nodes ∧ s.nodes = l.nodes ∧
      (∀ x, s.evaluate x = l.evaluate x) ∧
      (∀ p ∈ l.nodes.points, p ∈ data.points ∧ l.evaluate p.1 = p.2) ∧
      (l.nodes.EquallySpaced → ∃ f : InterpolationResult K,
        interpolate .newtonFinite data point amount = .ok f ∧
        f.nodes = l.nodes ∧
        ∀ x, f.evaluate x = l.evaluate x) := by
  obtain ⟨nodes, hnodes, hnodesNe, hpart⟩ :=
    exists_selectNodes_eq_ok hne hdistinct point hamount
  have hnodesDistinct : nodes.x.Nodup := nodup_x_of_subperm hpart hdistinct
  obtain ⟨l, hl, rfl, hlEval⟩ :=
    exists_interpolate_eq_ok .lagrange hnodes (by simp)
  obtain ⟨s, hs, hsNodes, hsEval⟩ :=
    exists_interpolate_eq_ok .newtonSeparated hnodes (by simp)
  have htab := DataSet.tabulates_getD l.nodes
  refine ⟨l, s, hl, hs, hnodes, hsNodes, ?_, ?_, ?_⟩
  · intro x
    rw [hsEval, hlEval]
    exact (newtonForm_eq_eval htab hnodesDistinct x).trans
      (lagrange_eq_eval htab x).symm
  · intro p hp
    refine ⟨hpart.subset hp, ?_⟩
    obtain ⟨i, hi, rfl⟩ := List.getElem_of_mem hp
    have hmem : i ∈ Finset.range l.nodes.points.length :=
      Finset.mem_range.mpr hi
    rw [hlEval, htab.getElem hi]
    exact (lagrange_eq_eval htab _).trans
      (Lagrange.eval_interpolate_at_node _ (htab.injOn hnodesDistinct) hmem)
  · intro hspaced
    obtain ⟨f, hf, hfNodes, hfEval⟩ :=
      exists_interpolate_eq_ok .newtonFinite hnodes
        fun _ => isEquallySpaced_of_equallySpaced hspaced
    obtain ⟨X, Y, h, hh, hX, hprog⟩ := hspaced.exists_tabulates hnodesDistinct
    refine ⟨f, hf, hfNodes, ?_⟩
    intro x
    rw [hfEval, hlEval]
    exact (forwardForm_eq_eval hprog hnodesNe hh hX x).trans
      (lagrange_eq_eval hprog x).symm

/-- All three forms of the parabola through three unsorted points. -/
theorem forms_agree_parabola :
    let data : DataSet ℚ := ⟨[(2, 5), (0, 1), (1, 2)]⟩
    data.points ≠ [] ∧ data.x.Nodup ∧ (none : Option ℕ) ≠ some 0 ∧
    ∃ l s f : InterpolationResult ℚ,
      interpolate .lagrange data 3 none = .ok l ∧
      interpolate .newtonSeparated data 3 none = .ok s ∧
      interpolate .newtonFinite data 3 none = .ok f ∧
      (∀ x, s.evaluate x = l.evaluate x) ∧ (∀ x, f.evaluate x = l.evaluate x) ∧
      l.evaluate 0 = 1 ∧ l.evaluate 1 = 2 ∧ l.evaluate 2 = 5 := by
  intro data
  have hne : data.points ≠ [] := by simp [data]
  have hdistinct : data.x.Nodup := by decide
  have hamount : (none : Option ℕ) ≠ some 0 := by simp
  obtain ⟨l, s, hl, hs, hnodes, -, hagree, hvalues, hforward⟩ :=
    forms_agree hne hdistinct 3 hamount
  have hselected : selectNodes data 3 none =
      .ok ⟨[(0, 1), (1, 2), (2, 5)]⟩ := by
    simp [data, selectNodes, ascending, List.mergeSort,
      List.MergeSort.Internal.splitInTwo, sharedAbscissa?, DataSet.isEmpty]
  have hsorted : l.nodes = ⟨[(0, 1), (1, 2), (2, 5)]⟩ :=
    Except.ok.inj (hnodes.symm.trans hselected)
  have hspaced : l.nodes.EquallySpaced := by
    rw [hsorted]
    refine ⟨1, ?_⟩
    norm_num [DataSet.x]
  obtain ⟨f, hf, -, hfEval⟩ := hforward hspaced
  rw [hsorted] at hvalues
  refine ⟨hne, hdistinct, hamount, l, s, f, hl, hs, hf, hagree,
    hfEval, ?_, ?_, ?_⟩
  · exact (hvalues (0, 1) (by simp)).2
  · exact (hvalues (1, 2) (by simp)).2
  · exact (hvalues (2, 5) (by simp)).2

end Interpolation
end NumericalMethods
