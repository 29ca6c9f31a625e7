import Mathlib.Data.Nat.Notation
import NumericalMethods.Error

/-!
# Lists read and written by index

An access beyond the end of a list aborts.  A loop over indices that stays
inside its lists makes the steps of a fold over the entries, and `foldlM_eq_ok`
says so for every such loop: what is shown for one step holds for all of them.
-/

namespace NumericalMethods

variable {α β : Type}

/-- A value that is missing where an access went beyond the end of a list. -/
def ofReading : Option β → Except (Failure α) β
  | some value => .ok value
  | none => .error (.abort .indexOutOfRange)

/-- The entry at an index. -/
def readAt (xs : List β) (i : ℕ) : Except (Failure α) β :=
  ofReading xs[i]?

/-- The entry a number of places before an index. -/
def readBefore (xs : List β) (i places : ℕ) : Except (Failure α) β :=
  if places ≤ i then
    readAt xs (i - places)
  else .error (.abort .indexOutOfRange)

/-- The list with an entry replaced. -/
def writeAt (xs : List β) (i : ℕ) (entry : β) : Except (Failure α) (List β) :=
  if i < xs.length then
    .ok (xs.set i entry)
  else .error (.abort .indexOutOfRange)

theorem ok_bind {ε γ : Type} (b : β) (next : β → Except ε γ) :
    (Except.ok b >>= next) = next b :=
  rfl

theorem readAt_of_getElem? {xs : List β} {i : ℕ} {entry : β}
    (hentry : xs[i]? = some entry) :
    (readAt xs i : Except (Failure α) β) = .ok entry := by
  rw [readAt, hentry]
  rfl

theorem readAt_map {γ : Type} {xs : List γ} (f : γ → β) {i : ℕ} {entry : γ}
    (hentry : xs[i]? = some entry) :
    (readAt (xs.map f) i : Except (Failure α) β) = .ok (f entry) :=
  readAt_of_getElem? (by rw [List.getElem?_map, hentry]; rfl)

theorem readAt_of_le {xs : List β} {i : ℕ} (hi : xs.length ≤ i) :
    (readAt xs i : Except (Failure α) β) =
      .error (.abort .indexOutOfRange) := by
  rw [readAt, List.getElem?_eq_none hi]
  rfl

theorem readBefore_of_le {xs : List β} {i places : ℕ} (hplaces : places ≤ i) :
    (readBefore xs i places : Except (Failure α) β) = readAt xs (i - places) :=
  if_pos hplaces

theorem writeAt_of_lt {xs : List β} {i : ℕ} (hi : i < xs.length) (entry : β) :
    (writeAt xs i entry : Except (Failure α) (List β)) = .ok (xs.set i entry) :=
  if_pos hi

/-- A range of indices cut in two. -/
theorem range_add_eq_append (n more : ℕ) :
    List.range (n + more) = List.range n ++ List.range' n more := by
  simpa [List.range_eq_range'] using (List.range'_append_1 (s := 0) (m := n)
    (n := more)).symm

/-- Loops whose steps agree on all items are equal. -/
theorem foldlM_congr_of_mem
    {ε ι σ : Type} {loop loop' : σ → ι → Except ε σ} {items : List ι}
    (hloop : ∀ item ∈ items, ∀ s, loop s item = loop' s item) (s : σ) :
    items.foldlM loop s = items.foldlM loop' s := by
  induction items generalizing s with
  | nil => rfl
  | cons item items ih =>
      rw [List.foldlM_cons, List.foldlM_cons, hloop item List.mem_cons_self]
      exact bind_congr fun next =>
        ih (fun later hlater =>
          hloop later (List.mem_cons_of_mem _ hlater)) next

/-- A loop of which every step succeeds is the fold of these steps.  It may
go over indices of the items, and its state may be a view of the state of
the fold. -/
theorem foldlM_eq_ok
    {ε ι κ σ τ : Type} (index : κ → ι) (view : τ → σ)
    {loop : σ → ι → Except ε σ} {step : τ → κ → τ} {items : List κ}
    (hstep : ∀ item ∈ items, ∀ t,
      loop (view t) (index item) = .ok (view (step t item))) (t : τ) :
    (items.map index).foldlM loop (view t) =
      .ok (view (items.foldl step t)) := by
  induction items generalizing t with
  | nil => rfl
  | cons item items ih =>
      rw [List.map_cons, List.foldlM_cons,
        hstep item List.mem_cons_self, ok_bind, List.foldl_cons]
      exact ih
        (fun later hlater => hstep later (List.mem_cons_of_mem _ hlater)) _

/-- The same for a loop over all indices of a list. -/
theorem foldlM_range_eq_ok
    {ε σ : Type} {xs : List β} {loop : σ → ℕ → Except ε σ}
    {step : σ → β × ℕ → σ}
    (hstep : ∀ i entry, xs[i]? = some entry →
      ∀ s, loop s i = .ok (step s (entry, i))) (s : σ) :
    (List.range xs.length).foldlM loop s = .ok (xs.zipIdx.foldl step s) := by
  have hindices : List.range xs.length = xs.zipIdx.map Prod.snd := by
    rw [List.zipIdx_map_snd, List.range_eq_range']
  rw [hindices]
  refine foldlM_eq_ok Prod.snd id (fun item hitem s => ?_) s
  obtain ⟨entry, i⟩ := item
  exact hstep i entry (List.mem_zipIdx_iff_getElem?.mp hitem) s

/-- Values read one after the other, at indices that come with their entries. -/
theorem mapM_indices_eq_ok
    {ε γ : Type} {xs : List β} {read : ℕ → Except ε γ} {value : β × ℕ → γ}
    {items : List (β × ℕ)} (hitems : ∀ item ∈ items, xs[item.2]? = some item.1)
    (hread : ∀ i entry, xs[i]? = some entry → read i = .ok (value (entry, i))) :
    (items.map Prod.snd).mapM read = .ok (items.map value) := by
  induction items with
  | nil => rfl
  | cons item items ih =>
      rw [List.map_cons, List.mapM_cons,
        hread _ _ (hitems item List.mem_cons_self), ok_bind,
        ih fun later hlater =>
          hitems later (List.mem_cons_of_mem _ hlater), ok_bind]
      rfl

/-- The same at all indices of a list. -/
theorem mapM_range_eq_ok
    {ε γ : Type} {xs : List β} {read : ℕ → Except ε γ} {value : β × ℕ → γ}
    (hread : ∀ i entry, xs[i]? = some entry → read i = .ok (value (entry, i))) :
    (List.range xs.length).mapM read = .ok (xs.zipIdx.map value) := by
  have hindices : List.range xs.length = xs.zipIdx.map Prod.snd := by
    rw [List.zipIdx_map_snd, List.range_eq_range']
  rw [hindices]
  exact mapM_indices_eq_ok
    (fun item hitem => List.mem_zipIdx_iff_getElem?.mp hitem) hread

theorem mapM_readAt (xs : List β) :
    (List.range xs.length).mapM (readAt xs) =
      (.ok xs : Except (Failure α) (List β)) := by
  have hall : (List.range xs.length).mapM (readAt xs) =
      (.ok (xs.zipIdx.map Prod.fst) : Except (Failure α) (List β)) :=
    mapM_range_eq_ok fun _ _ => readAt_of_getElem?
  rwa [List.zipIdx_map_fst] at hall

end NumericalMethods
