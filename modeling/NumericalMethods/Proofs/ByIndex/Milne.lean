import NumericalMethods.Proofs.ByIndex.Reading
import NumericalMethods.Proofs.InitialValue.Grid

/-!
# The method of Milne by index

The method keeps two lists, the points and the slopes at the nodes so far, and a
round reads up to three places back in them.  The first three rounds only read
the last point, and from then on there are three nodes to go back to.  A history
holds the same ordinates and slopes with the latest node first, so a round on
the lists is a round on a history that matches them, and every run stays inside
the lists.
-/

namespace NumericalMethods
namespace InitialValue

variable {α : Type}

/-- The points and the slopes at the nodes so far. -/
structure MilneLists (α : Type) where
  points : List (α × α)
  slopes : List α

/-- The lists with one more node. -/
def MilneLists.push (l : MilneLists α) (point : α × α) (slope : α) :
    MilneLists α :=
  ⟨l.points ++ [point], l.slopes ++ [slope]⟩

/-- The outcome of a round that found an ordinate, or broke down. -/
def MilneLists.proceed (f : OdeFunction α) (x : α) (l : MilneLists α) :
    Except (Breakdown α) α → Except (Failure α) (MilneLists α)
  | .ok y => .ok (l.push (x, y) (f.rhs x y))
  | .error cause => .error (.error (.breakdown cause (.points l.points)))

section Rounds

variable [Scalar α]

/-- A round of the start-up. -/
def startRoundByIndex (f : OdeFunction α) (x0 h : α)
    (l : MilneLists α) (i : ℕ) :
    Except (Failure α) (MilneLists α) := do
  let last ← readAt l.points i
  let y := rungeKuttaStep f.rhs h (node x0 h i) last.2
  l.proceed f (node x0 h (i + 1)) <|
    if Scalar.isFinite y then
      .ok y
    else .error (.solutionNotFinite OdeMethod.milne.name)

/-- A round with a prediction and its correction. -/
def correctorRoundByIndex (f : OdeFunction α) (cap : ℕ) (tolerance x0 h : α)
    (l : MilneLists α) (i : ℕ) : Except (Failure α) (MilneLists α) := do
  let p3 ← readBefore l.points i 3
  let f2 ← readBefore l.slopes i 2
  let f1 ← readBefore l.slopes i 1
  let f0 ← readAt l.slopes i
  let p1 ← readBefore l.points i 1
  let x := node x0 h (i + 1)
  l.proceed f x <|
    settle (fun y => corrector h p1.2 f1 f0 (f.rhs x y)) cap tolerance
      (predictor h p3.2 f2 f1 f0) x

def milnePointsByIndex (f : OdeFunction α) (cap : ℕ) (x0 y0 h : α) (n : ℕ)
    (tolerance : α) :
    Except (Failure α) (List (α × α)) := do
  let start : MilneLists α := ⟨[(x0, y0)], [f.rhs x0 y0]⟩
  let started ← (List.range (min n 3)).foldlM (startRoundByIndex f x0 h) start
  let finished ← (List.range' 3 (n - 3)).foldlM
    (correctorRoundByIndex f cap tolerance x0 h) started
  return finished.points

end Rounds

/-! ## Lists and histories -/

/-- The nodes of a history, the latest first. -/
def History.nodes (s : History α) : List (Slope α) :=
  s.latest :: s.earlier

/-- Lists hold the ordinates and the slopes of a history, one for each node. -/
structure MilneLists.Matches (l : MilneLists α) (s : History α) : Prop where
  ordinates : l.points.map Prod.snd = s.nodes.reverse.map Slope.y
  slopes : l.slopes = s.nodes.reverse.map Slope.slope
  length_nodes : s.nodes.length = s.index + 1

namespace MilneLists.Matches

variable {l : MilneLists α} {s : History α}

theorem getElem?_reverse_nodes
    (hl : l.Matches s) {places : ℕ} {node : Slope α}
    (hnode : s.nodes[places]? = some node) :
    places ≤ s.index ∧ s.nodes.reverse[s.index - places]? = some node := by
  obtain ⟨hlt, -⟩ := List.getElem?_eq_some_iff.mp hnode
  have hlength := hl.length_nodes
  refine ⟨by omega, ?_⟩
  rw [List.getElem?_reverse (by omega), hlength]
  have hplace : s.index + 1 - 1 - (s.index - places) = places := by omega
  rw [hplace, hnode]

/-- A slope is found as many places back as its node is in the history. -/
theorem readBefore_slopes
    (hl : l.Matches s) {places : ℕ} {node : Slope α}
    (hnode : s.nodes[places]? = some node) :
    (readBefore l.slopes s.index places : Except (Failure α) α) =
      .ok node.slope := by
  obtain ⟨hle, hentry⟩ := hl.getElem?_reverse_nodes hnode
  rw [readBefore_of_le hle, hl.slopes]
  exact readAt_map _ hentry

/-- So is a point. -/
theorem exists_readBefore_points
    (hl : l.Matches s) {places : ℕ} {node : Slope α}
    (hnode : s.nodes[places]? = some node) :
    ∃ point : α × α, point.2 = node.y ∧
      (readBefore l.points s.index places : Except (Failure α) (α × α)) =
        .ok point := by
  obtain ⟨hle, hentry⟩ := hl.getElem?_reverse_nodes hnode
  have hordinate : (l.points.map Prod.snd)[s.index - places]? =
      some node.y := by
    rw [hl.ordinates, List.getElem?_map, hentry]
    rfl
  rw [List.getElem?_map, Option.map_eq_some_iff] at hordinate
  obtain ⟨point, hpoint, hy⟩ := hordinate
  exact ⟨point, hy, by rw [readBefore_of_le hle, readAt_of_getElem? hpoint]⟩

theorem push (hl : l.Matches s) (x : α) (next : Slope α) :
    (l.push (x, next.y) next.slope).Matches (s.push next) where
  ordinates := by
    have hnodes : (s.push next).nodes = next :: s.nodes := rfl
    simp [MilneLists.push, hnodes, hl.ordinates]
  slopes := by
    have hnodes : (s.push next).nodes = next :: s.nodes := rfl
    simp [MilneLists.push, hnodes, hl.slopes]
  length_nodes := congrArg Nat.succ hl.length_nodes

end MilneLists.Matches

/-! ## One round -/

section Rounds

variable [Scalar α] {f : OdeFunction α} {cap : ℕ} {tolerance x0 h : α}
  {l : MilneLists α} {s : History α}

/-- The round that follows on a history, on lists. -/
def roundByIndex (f : OdeFunction α) (cap : ℕ) (tolerance x0 h : α)
    (l : MilneLists α) (i : ℕ) :
    Except (Failure α) (MilneLists α) :=
  if i < 3 then
    startRoundByIndex f x0 h l i
  else correctorRoundByIndex f cap tolerance x0 h l i

theorem startRoundByIndex_eq (hl : l.Matches s) (hstart : s.index < 3) :
    startRoundByIndex f x0 h l s.index =
      l.proceed f (node x0 h (s.index + 1))
        (nextOrdinate f cap tolerance x0 h s) := by
  have hearlier : s.earlier.length < 3 := Nat.succ.inj hl.length_nodes ▸ hstart
  have hfirst : s.nodes[0]? = some s.latest := rfl
  obtain ⟨last, hy, hlast⟩ := hl.exists_readBefore_points hfirst
  rw [readBefore_of_le (Nat.zero_le _), Nat.sub_zero] at hlast
  rw [startRoundByIndex, hlast, ok_bind, hy, nextOrdinate]
  split
  · rename_i heq
    simp only [heq, List.length_cons] at hearlier
    omega
  · rfl

theorem correctorRoundByIndex_eq (hl : l.Matches s) (hstart : ¬ s.index < 3) :
    correctorRoundByIndex f cap tolerance x0 h l s.index =
      l.proceed f (node x0 h (s.index + 1))
        (nextOrdinate f cap tolerance x0 h s) := by
  have hlength : s.earlier.length = s.index := Nat.succ.inj hl.length_nodes
  match hearlier : s.earlier with
  | [] | [_] | [_, _] =>
      simp only [hearlier, List.length_cons, List.length_nil] at hlength
      omega
  | p1 :: p2 :: p3 :: rest =>
      have hnodes : s.nodes = s.latest :: p1 :: p2 :: p3 :: rest := by
        rw [History.nodes, hearlier]
      have hat0 : s.nodes[0]? = some s.latest := rfl
      have hat1 : s.nodes[1]? = some p1 := by rw [hnodes]; rfl
      have hat2 : s.nodes[2]? = some p2 := by rw [hnodes]; rfl
      have hat3 : s.nodes[3]? = some p3 := by rw [hnodes]; rfl
      obtain ⟨point1, hy1, hpoint1⟩ := hl.exists_readBefore_points hat1
      obtain ⟨point3, hy3, hpoint3⟩ := hl.exists_readBefore_points hat3
      have hlatest : (readAt l.slopes s.index : Except (Failure α) α) =
        .ok s.latest.slope :=
        hl.readBefore_slopes hat0
      rw [correctorRoundByIndex, hpoint3, hl.readBefore_slopes hat2,
        hl.readBefore_slopes hat1, hlatest, hpoint1, nextOrdinate, hearlier]
      simp only [ok_bind, hy1, hy3]

/-- A round stays inside the lists and finds the next ordinate of the
history. -/
theorem roundByIndex_eq
    (f : OdeFunction α) (cap : ℕ) (tolerance x0 h : α) (hl : l.Matches s) :
    roundByIndex f cap tolerance x0 h l s.index =
      l.proceed f (node x0 h (s.index + 1))
        (nextOrdinate f cap tolerance x0 h s) := by
  rw [roundByIndex]
  by_cases hstart : s.index < 3
  · rw [if_pos hstart, startRoundByIndex_eq hl hstart]
  · rw [if_neg hstart, correctorRoundByIndex_eq hl hstart]

/-! ## All rounds -/

/-- The lists of a run that made the steps `made` and came to a history. -/
def MilneLists.ofRun (origin : α × α) (made : List (α × α)) (s : History α) :
    MilneLists α :=
  ⟨origin :: made, s.nodes.reverse.map Slope.slope⟩

omit [Scalar α] in
theorem MilneLists.push_ofRun
    (origin : α × α) (made : List (α × α)) (s : History α) (point : α × α)
    (next : Slope α) :
    (ofRun origin made s).push point next.slope =
      ofRun origin (made ++ [point]) (s.push next) := by
  simp [ofRun, MilneLists.push, History.nodes, History.push]

/-- Rounds that make steps lead from lists to lists. -/
theorem foldlM_roundByIndex_of_steps
    {y0 : α} {made : List (α × α)}
    (hsteps : Steps (milneRound f cap tolerance x0 h)
      ⟨0, ⟨y0, f.rhs x0 y0⟩, []⟩ made s) :
    (MilneLists.ofRun (x0, y0) made s).Matches s ∧ s.index = made.length ∧
      (List.range made.length).foldlM (roundByIndex f cap tolerance x0 h)
        ⟨[(x0, y0)], [f.rhs x0 y0]⟩ =
          .ok (MilneLists.ofRun (x0, y0) made s) := by
  induction hsteps with
  | refl => exact ⟨⟨rfl, rfl, rfl⟩, rfl, rfl⟩
  | @snoc made s next entry _ hround ih =>
      obtain ⟨hmatches, hindex, hloop⟩ := ih
      have hnext := roundByIndex_eq f cap tolerance x0 h hmatches
      obtain ⟨y, hy, rfl, rfl⟩ :=
        exists_nextOrdinate_of_milneRound_eq_step hround
      have hpush :=
        hmatches.push (node x0 h (s.index + 1))
          ⟨y, f.rhs (node x0 h (s.index + 1)) y⟩
      rw [MilneLists.push_ofRun] at hpush
      refine ⟨hpush, by simp [History.push, hindex], ?_⟩
      rw [hy, MilneLists.proceed] at hnext
      rw [List.length_append, List.length_singleton, List.range_succ,
        List.foldlM_append, hloop, ok_bind, List.foldlM_cons, ← hindex, hnext,
        ← MilneLists.push_ofRun]
      rfl

/-- The two loops are one loop over all rounds. -/
theorem milnePointsByIndex_eq_bind (f : OdeFunction α) (cap : ℕ)
    (x0 y0 h : α) (n : ℕ) (tolerance : α) :
    milnePointsByIndex f cap x0 y0 h n tolerance = (do
      let finished ← (List.range n).foldlM (roundByIndex f cap tolerance x0 h)
        ⟨[(x0, y0)], [f.rhs x0 y0]⟩
      return finished.points) := by
  have hrange : List.range n =
      List.range (min n 3) ++ List.range' 3 (n - 3) := by
    rcases Nat.le_total n 3 with hle | hle
    · rw [Nat.min_eq_left hle, Nat.sub_eq_zero_of_le hle, List.range'_zero,
        List.append_nil]
    · rw [Nat.min_eq_right hle, ← range_add_eq_append, Nat.add_sub_cancel' hle]
  have hstart : ∀ l,
      (List.range (min n 3)).foldlM (startRoundByIndex f x0 h) l =
      (List.range (min n 3)).foldlM (roundByIndex f cap tolerance x0 h) l := by
    refine foldlM_congr_of_mem fun i hi l => ?_
    have hlt : i < 3 :=
      Nat.lt_of_lt_of_le (List.mem_range.mp hi) (Nat.min_le_right n 3)
    rw [roundByIndex, if_pos hlt]
  have hrest : ∀ l,
      (List.range' 3 (n - 3)).foldlM
        (correctorRoundByIndex f cap tolerance x0 h) l =
      (List.range' 3 (n - 3)).foldlM (roundByIndex f cap tolerance x0 h) l := by
    refine foldlM_congr_of_mem fun i hi l => ?_
    have hle : 3 ≤ i := (List.mem_range'_1.mp hi).1
    rw [roundByIndex, if_neg (Nat.not_lt.mpr hle)]
  rw [milnePointsByIndex, hrange, List.foldlM_append]
  simp only [hstart, hrest, bind_assoc]

/-- The method on lists never reads beyond their ends. -/
theorem milnePointsByIndex_eq (f : OdeFunction α) (cap : ℕ)
    (x0 y0 h : α) (n : ℕ) (tolerance : α) :
    milnePointsByIndex f cap x0 y0 h n tolerance =
      liftError (milnePoints f cap x0 y0 h n tolerance) := by
  rw [milnePointsByIndex_eq_bind, milnePoints]
  cases hrun : iterate (milneRound f cap tolerance x0 h) n
    ⟨0, ⟨y0, f.rhs x0 y0⟩, []⟩ with
  | ok run =>
      have hadvances := advances_milneRound f cap tolerance x0 h
      obtain ⟨hsteps, rfl⟩ :=
        steps_of_iterate_eq_ok hrun hadvances.ne_halt hadvances.ne_last
      obtain ⟨-, -, hloop⟩ := foldlM_roundByIndex_of_steps hsteps
      rw [hloop]
      rfl
  | error stopped =>
      obtain ⟨cause, made⟩ := stopped
      obtain ⟨s, hsteps, hlength, hfail⟩ :=
        exists_steps_of_iterate_eq_error hrun
      obtain ⟨hmatches, hindex, hloop⟩ := foldlM_roundByIndex_of_steps hsteps
      have hnext := roundByIndex_eq f cap tolerance x0 h hmatches
      obtain ⟨more, rfl⟩ := Nat.exists_eq_add_of_lt hlength
      rw [Nat.add_assoc, range_add_eq_append, List.foldlM_append,
        hloop, ok_bind, List.range'_succ, List.foldlM_cons, ← hindex, hnext,
        nextOrdinate_eq_error_of_milneRound_eq_fail hfail]
      rfl

end Rounds

end InitialValue
end NumericalMethods
