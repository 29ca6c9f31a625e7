import NumericalMethods.Error

/-!
# Looking up registered functions

A registry is a list of functions; the number of a function is its position.
-/

namespace NumericalMethods
namespace Registry

/-- The entry of a registry with a number, or an error that names the
registry. -/
def find {α β : Type} (registry : String) (entries : List β) (id : Nat) :
    Except (EngineError α) β :=
  match entries[id]? with
  | some entry => .ok entry
  | none => .error (.unknownFunctionId registry id)

end Registry
end NumericalMethods
