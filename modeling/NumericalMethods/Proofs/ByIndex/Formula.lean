import NumericalMethods.Interpolation.Formula
import NumericalMethods.Proofs.ByIndex.Interpolation
import NumericalMethods.Scalar.Binary64

/-!
# Formulas of interpolating polynomials by index

The formula of a polynomial names the entries that its form reads, in the order
of their indices, so it is written inside the same lists.
-/

namespace NumericalMethods
namespace Interpolation

open Decimal (text)

/-! ## The form of Lagrange -/

def lagrangeTermTextByIndex (x y : List Float) (i : ℕ) :
    Except (Failure Float) String := do
  let others := (List.range x.length).filter fun j => j ≠ i
  let numerator ← others.mapM fun j => do
    let other ← readAt x j
    return factor other
  let denominator ← others.mapM fun j => do
    let node ← readAt x i
    let other ← readAt x j
    return s!"({text node} - {text other})"
  let value ← readAt y i
  if others.isEmpty then return text value
  else
    let numerator := String.join numerator
    let denominator := String.join denominator
    return s!"{text value} \\cdot \\frac\x7b{numerator}\x7d\x7b{denominator}\x7d"

def lagrangeTextByIndex (x y : List Float) : Except (Failure Float) String := do
  let terms ← (List.range x.length).mapM (lagrangeTermTextByIndex x y)
  return String.intercalate " + " terms

theorem lagrangeTermTextByIndex_eq_ok
    {nodes : List (Float × Float)} {i : ℕ} {node : Float × Float}
    (hnode : nodes[i]? = some node) :
    lagrangeTermTextByIndex (nodes.map Prod.fst) (nodes.map Prod.snd) i =
      .ok (lagrangeTermText nodes i node) := by
  let others := nodes.zipIdx.filter fun item => item.2 ≠ i
  have hothers : (List.range (nodes.map Prod.fst).length).filter
      (fun j => j ≠ i) =
      others.map Prod.snd := by
    have hindices : List.range nodes.length = nodes.zipIdx.map Prod.snd := by
      rw [List.zipIdx_map_snd, List.range_eq_range']
    rw [List.length_map, hindices, List.filter_map]
    rfl
  have hentries : ∀ item ∈ others, nodes[item.2]? = some item.1 :=
    fun item hitem =>
      List.mem_zipIdx_iff_getElem?.mp (List.mem_of_mem_filter hitem)
  have hnumerator : ((others.map Prod.snd).mapM fun j => do
      let other ← readAt (nodes.map Prod.fst) j
      return factor other : Except (Failure Float) (List String)) =
        .ok (others.map fun item => factor item.1.1) :=
    mapM_indices_eq_ok hentries fun j other hother => by
      rw [readAt_map _ hother]; rfl
  have hdenominator : ((others.map Prod.snd).mapM fun j => do
      let node ← readAt (nodes.map Prod.fst) i
      let other ← readAt (nodes.map Prod.fst) j
      return s!"({text node} - {text other})" :
        Except (Failure Float) (List String)) =
        .ok (others.map fun item => s!"({text node.1} - {text item.1.1})") :=
    mapM_indices_eq_ok hentries fun j other hother => by
      rw [readAt_map _ hnode, readAt_map _ hother]
      rfl
  rw [lagrangeTermTextByIndex, hothers, hnumerator, ok_bind,
    hdenominator, ok_bind, readAt_map _ hnode, ok_bind, lagrangeTermText]
  dsimp only
  rw [List.isEmpty_map, List.isEmpty_map, List.map_map, List.map_map]
  by_cases hempty : others.isEmpty = true
  · rw [if_pos hempty, if_pos hempty]
    rfl
  · rw [if_neg hempty, if_neg hempty]
    rfl

theorem lagrangeTextByIndex_eq_ok (nodes : List (Float × Float)) :
    lagrangeTextByIndex (nodes.map Prod.fst) (nodes.map Prod.snd) =
      .ok (String.intercalate " + "
        (nodes.zipIdx.map fun (node, i) => lagrangeTermText nodes i node)) := by
  have hterms : (List.range (nodes.map Prod.fst).length).mapM
      (lagrangeTermTextByIndex (nodes.map Prod.fst) (nodes.map Prod.snd)) =
        .ok (nodes.zipIdx.map fun (node, i) =>
          lagrangeTermText nodes i node) := by
    rw [List.length_map]
    exact mapM_range_eq_ok fun i node hnode =>
      lagrangeTermTextByIndex_eq_ok hnode
  rw [lagrangeTextByIndex, hterms]
  rfl

/-! ## The form of Newton -/

/-- One more term, behind the product of the factors so far. -/
def newtonTermTextByIndex (x divided : List Float)
    (state : List String × String) (i : ℕ) :
    Except (Failure Float) (List String × String) := do
  let node ← readBefore x i 1
  let product := state.2 ++ factor node
  let coefficient ← readAt divided i
  return (state.1 ++ [s!"{text coefficient} \\cdot {product}"], product)

def newtonTextByIndex (x divided : List Float) :
    Except (Failure Float) String := do
  let first ← readAt divided 0
  let written ← (List.range' 1 (x.length - 1)).foldlM
    (newtonTermTextByIndex x divided) ([text first], "")
  return String.intercalate " + " written.1

/-- From a node on, the terms of the nodes behind it are written.  The lists
stay whole, since an entry is read at its place in all of them. -/
theorem foldlM_newtonTermTextByIndex
    (before : List (Float × Float)) (pair : Float × Float)
    (behind : List (Float × Float)) (terms : List String) (product : String) :
    let pairs := before ++ pair :: behind
    ∃ last, (List.range' (before.length + 1) behind.length).foldlM
      (newtonTermTextByIndex (pairs.map Prod.fst) (pairs.map Prod.snd))
        (terms, product) =
        .ok (terms ++ newtonTermTexts product (pair :: behind), last) := by
  induction behind generalizing before pair terms product with
  | nil => exact ⟨product, by rw [newtonTermTexts, List.append_nil]; rfl⟩
  | cons next behind ih =>
      intro pairs
      have hnode : (readBefore (pairs.map Prod.fst) (before.length + 1) 1 :
          Except (Failure Float) Float) = .ok pair.1 := by
        rw [readBefore_of_le (Nat.le_add_left 1 _), Nat.add_sub_cancel]
        exact readAt_of_getElem? (by simp [pairs])
      have hcoefficient : (readAt (pairs.map Prod.snd) (before.length + 1) :
          Except (Failure Float) Float) = .ok next.2 :=
        readAt_of_getElem? (by simp [pairs])
      let term := s!"{text next.2} \\cdot {product ++ factor pair.1}"
      obtain ⟨last, hrest⟩ :=
        ih (before ++ [pair]) next (terms ++ [term]) (product ++ factor pair.1)
      have hpairs : before ++ [pair] ++ next :: behind = pairs := by
        simp [pairs]
      have hterms : terms ++ newtonTermTexts product (pair :: next :: behind) =
          terms ++ [term] ++ newtonTermTexts (product ++ factor pair.1)
            (next :: behind) := by
        rw [newtonTermTexts, List.append_assoc]
        rfl
      rw [hpairs, List.length_append, List.length_singleton] at hrest
      refine ⟨last, ?_⟩
      rw [List.length_cons, List.range'_succ, List.foldlM_cons,
        newtonTermTextByIndex, hnode, ok_bind, hcoefficient, ok_bind, hterms]
      exact hrest

theorem newtonTextByIndex_eq_ok {pairs : List (Float × Float)}
    (hne : pairs ≠ []) :
    newtonTextByIndex (pairs.map Prod.fst) (pairs.map Prod.snd) =
      .ok (String.intercalate " + "
        (text ((pairs.map Prod.snd).headD 0) :: newtonTermTexts "" pairs)) := by
  cases pairs with
  | nil => exact absurd rfl hne
  | cons pair behind =>
      obtain ⟨last, hterms⟩ :=
        foldlM_newtonTermTextByIndex [] pair behind [text pair.2] ""
      have hfirst :
          (readAt ((pair :: behind).map Prod.snd) 0 : Except
            (Failure Float) Float) =
          .ok pair.2 := rfl
      have hlength : ((pair :: behind).map Prod.fst).length - 1 =
          behind.length := by simp
      rw [newtonTextByIndex, hfirst, ok_bind, hlength]
      exact congrArg
        (· >>= fun written => pure (String.intercalate " + " written.1)) hterms

/-! ## The forward form -/

/-- One more term, from row `k` of the table, behind the product of the factors
so far. -/
def forwardTermTextByIndex (state : List String × String)
    (row : List Float × ℕ) :
    Except (Failure Float) (List String × String) := do
  let product :=
    if row.2 = 1 then state.2 ++ "t" else state.2 ++ s!"(t - {row.2 - 1})"
  let difference ← readAt row.1 0
  return (state.1 ++
    [s!"\\frac\x7b{text difference}\x7d\x7b{row.2}!\x7d {product}"], product)

def forwardTextByIndex (x : List Float) (table : List (List Float)) :
    Except (Failure Float) String := do
  let row ← readAt table 0
  let start ← readAt row 0
  if 1 < x.length then
    let x1 ← readAt x 1
    let x0 ← readAt x 0
    let written ← (table.zipIdx.drop 1).foldlM forwardTermTextByIndex
      ([text start], "")
    let first ← readAt x 0
    let sum := String.intercalate " + " written.1
    return s!"{sum}, \\quad t = \\frac\x7b{factor first}\x7d\x7b{text (x1 - x0)}\x7d"
  else return text start

theorem foldlM_forwardTermTextByIndex
    {rows : List (List Float)} (hrows : ∀ row ∈ rows, row ≠ []) (k : ℕ)
    (terms : List String) (product : String) :
    ∃ last, (rows.zipIdx k).foldlM forwardTermTextByIndex (terms, product) =
      .ok (terms ++ forwardTermTexts product k
        (rows.map fun row => row.headD 0), last) := by
  induction rows generalizing k terms product with
  | nil =>
      exact ⟨product, by
        rw [List.map_nil, forwardTermTexts, List.append_nil]; rfl⟩
  | cons row rows ih =>
      let next := if k = 1 then product ++ "t" else product ++ s!"(t - {k - 1})"
      let term := s!"\\frac\x7b{text (row.headD 0)}\x7d\x7b{k}!\x7d {next}"
      obtain ⟨last, hrest⟩ :=
        ih (fun later hlater => hrows later (List.mem_cons_of_mem _ hlater))
        (k + 1) (terms ++ [term]) next
      have hterms : terms ++
          forwardTermTexts product k
            ((row :: rows).map fun row => row.headD 0) =
          terms ++ [term] ++ forwardTermTexts next (k + 1)
            (rows.map fun row => row.headD 0) := by
        rw [List.map_cons, forwardTermTexts, List.append_assoc]
        rfl
      refine ⟨last, ?_⟩
      rw [List.zipIdx_cons, List.foldlM_cons, forwardTermTextByIndex,
        readAt_zero (hrows row List.mem_cons_self), ok_bind, hterms]
      exact hrest

theorem forwardTextByIndex_eq_ok
    {x first : List Float} {rows : List (List Float)}
    (hlength : x.length = rows.length + 1) (hfirst : first ≠ [])
    (hrows : ∀ row ∈ rows, row ≠ []) :
    forwardTextByIndex x (first :: rows) =
      .ok (forwardText x ((first :: rows).map fun row => row.headD 0)) := by
  have hrow : (readAt (first :: rows) 0 : Except (Failure Float) (List Float)) =
      .ok first := rfl
  rw [forwardTextByIndex, hrow, ok_bind, readAt_zero hfirst, ok_bind]
  match x, rows, hlength with
  | [_], [], _ => rfl
  | x0 :: x1 :: x, row :: rows, _ =>
      have hnext : (readAt (x0 :: x1 :: x) 1 : Except (Failure Float) Float) =
          .ok x1 := rfl
      have hnode : (readAt (x0 :: x1 :: x) 0 : Except (Failure Float) Float) =
          .ok x0 := rfl
      obtain ⟨last, hterms⟩ :=
        foldlM_forwardTermTextByIndex hrows 1 [text (first.headD 0)] ""
      rw [if_pos (by simp), hnext, ok_bind, hnode, ok_bind, List.zipIdx_cons,
        List.drop_one, List.tail_cons, hterms]
      rfl

/-! ## Results -/

def displayFormulaByIndex (method : InterpolationMethod) (nodes : DataSet Float)
    (divided : List Float) (table : List (List Float)) :
    Except (Failure Float) String :=
  match method with
  | .lagrange => lagrangeTextByIndex nodes.x nodes.y
  | .newtonSeparated => newtonTextByIndex nodes.x divided
  | .newtonFinite => forwardTextByIndex nodes.x table

/-- What a result reads by index is there: the values behind its tables, the
nodes and tables behind its polynomial, and those that its formula names. -/
structure ReadsInRange (r : InterpolationResult Float) : Prop where
  table : finiteDifferencesByIndex r.nodes.y = .ok r.differenceTable
  divided : dividedDifferencesByIndex r.nodes.x r.nodes.y =
    .ok r.dividedDifferences
  value : ∀ x,
  evaluateAtByIndex r.method r.nodes r.dividedDifferences r.differenceTable x =
    .ok (r.evaluate x)
  formula : displayFormulaByIndex r.method r.nodes r.dividedDifferences
    r.differenceTable =
    .ok r.displayFormula

/-- The formula of a result was written inside its lists. -/
theorem displayFormulaByIndex_eq_ok
    {method : InterpolationMethod} {data : DataSet Float} {point : Float}
    {amount : Option ℕ} {r : InterpolationResult Float}
    (hr : interpolate method data point amount = .ok r) :
    displayFormulaByIndex r.method r.nodes r.dividedDifferences
      r.differenceTable =
      .ok r.displayFormula := by
  obtain ⟨hnodes, htable, hdivided⟩ := exists_nodes_of_interpolate_eq_ok hr
  have hne := (points_of_selectNodes_eq_ok hnodes).2
  rw [displayFormulaByIndex.eq_def, InterpolationResult.displayFormula.eq_def,
    htable, hdivided]
  cases r.method with
  | lagrange => exact lagrangeTextByIndex_eq_ok r.nodes.points
  | newtonSeparated =>
      obtain ⟨pairs, hpairs, hzip, hx, hcoefficients⟩ :=
        exists_pairs_of_ne_nil hne
      have h := newtonTextByIndex_eq_ok hpairs
      rwa [hx, hcoefficients, hzip] at h
  | newtonFinite =>
      obtain ⟨first, rows, hrows, hcount, hfirst, hbehind⟩ :=
        exists_rows_of_ne_nil hne
      rw [hrows]
      exact forwardTextByIndex_eq_ok hcount hfirst hbehind

theorem readsInRange
    {method : InterpolationMethod} {data : DataSet Float} {point : Float}
    {amount : Option ℕ} {r : InterpolationResult Float}
    (hr : interpolate method data point amount = .ok r) :
    ReadsInRange r := by
  obtain ⟨htable, hdivided, hvalues⟩ := interpolate_byIndex hr
  exact ⟨htable, hdivided, hvalues, displayFormulaByIndex_eq_ok hr⟩

end Interpolation
end NumericalMethods
