import Mathlib.Data.Nat.Notation
import NumericalMethods.SolveResult

/-!
# Numbered traces and the warning of the cap

A trace numbers its steps from one on, in the order they were made, so a trace
of fewer steps is the front of a trace that goes on from it.  The warning that
the cap was reached is attached to runs that did not settle.
-/

namespace NumericalMethods
namespace Step

variable {α : Type} {front whole : List (StepData α)}

theorem map_iteration_number (made : List (StepData α)) :
    (number made).map iteration = List.range' 1 made.length := by
  refine List.ext_getElem (by simp [number]) ?_
  intro i _ _
  simp [number, Nat.add_comm]

theorem map_data_number (made : List (StepData α)) :
    (number made).map data = made := by
  rw [number, List.map_map]
  exact List.zipIdx_map_fst 0 made

theorem number_prefix_number (h : front <+: whole) :
    number front <+: number whole := by
  obtain ⟨rest, rfl⟩ := h
  rw [number, number, List.zipIdx_append, List.map_append]
  exact List.prefix_append _ _

end Step

namespace Warning

variable {α : Type}

theorem occurs_append (front rest : List (Warning α)) (kind : ErrorKind) :
    occurs (front ++ rest) kind = (occurs front kind || occurs rest kind) :=
  List.any_append

theorem occurs_unless_settled (settled : Bool) (cap : ℕ) :
    occurs (if settled then [] else [iterationLimitExceeded (α := α) cap])
      .iterationLimitExceeded = !settled := by
  cases settled with
  | true => rfl
  | false => rfl

end Warning
end NumericalMethods
