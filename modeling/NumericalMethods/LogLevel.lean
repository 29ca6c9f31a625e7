import NumericalMethods.Error
import NumericalMethods.Text.Lowercase

/-!
# Log levels

Levels are named in any case.
-/

namespace NumericalMethods

inductive LogLevel where
  | debug
  | info
  | warn
  | error
  | off
  deriving Repr, DecidableEq

namespace LogLevel

/-- The name of a level, in capitals. -/
def name : LogLevel → String
  | debug => "DEBUG"
  | info => "INFO"
  | warn => "WARN"
  | error => "ERROR"
  | off => "OFF"

/-- The level with a lower-case name. -/
def ofLowercase? (name : String) : Option LogLevel :=
  if name = "debug" then some debug
  else if name = "info" then some info
  else if name = "warn" then some warn
  else if name = "error" then some error
  else if name = "off" ∨ name = "none" then some off
  else none

/-- The level with a name in any case, or an error. -/
def lookup {α : Type} (name : String) : Except (EngineError α) LogLevel :=
  let lower := Text.lowercase name
  match ofLowercase? lower with
  | some level => .ok level
  | none => .error (.invalidParameter (.logLevel lower))

def isActive (level : LogLevel) : Bool :=
  level != off

end LogLevel
end NumericalMethods
