import NumericalMethods.Config
import NumericalMethods.Scalar.Binary64
import NumericalMethods.Toml.Codec

/-!
# Configurations as documents

A document names the settings it wants to change; the others keep their standard
values, and names that mean nothing are passed over.  A setting of the wrong
type makes the whole document unusable.  Documents are written and read by a
codec; a configuration has a document if the codec writes its settings.
-/

namespace NumericalMethods
namespace Config

/-- A cap or a number of subintervals: a whole number that fits into a machine
count. -/
def asCount : Toml.Value → Option Nat
  | .integer n => if 0 ≤ n ∧ n < Machine.countBound then some n.toNat else none
  | _ => none

/-- A floor, a bound or an offset: a number of either kind. -/
def asNumber : Toml.Value → Option Float
  | .float x => some x
  | .integer n =>
    if -(Machine.signedBound : Int) ≤ n ∧ n < Machine.countBound then
      some (if n < 0 then -(Float.ofNat n.natAbs) else Float.ofNat n.natAbs)
    else none
  | _ => none

def asBoolean : Toml.Value → Option Bool
  | .boolean b => some b
  | _ => none

def asText : Toml.Value → Option String
  | .text s => some s
  | _ => none

/-- A setting, or its standard value where a document is silent. -/
def setting {β : Type} (entries : Toml.Entries)
    (convert : Toml.Value → Option β) (name : String)
    (standard : β) : Option β :=
  match entries.find? name with
  | some value => convert value
  | none => some standard

/-- The configuration the entries of a document describe. -/
def ofEntries (entries : Toml.Entries) : Option (Config Float) := do
  let d : Config Float := standard
  return {
    maxIterations := ← setting entries asCount "max_iterations" d.maxIterations
    derivativeFloor :=
      ← setting entries asNumber "derivative_floor" d.derivativeFloor
    divisorFloor := ← setting entries asNumber "divisor_floor" d.divisorFloor
    determinantFloor :=
      ← setting entries asNumber "determinant_floor" d.determinantFloor
    divergenceBound :=
      ← setting entries asNumber "divergence_bound" d.divergenceBound
    initialSubintervals :=
      ← setting entries asCount "initial_subintervals" d.initialSubintervals
    maxSubintervals :=
      ← setting entries asCount "max_subintervals" d.maxSubintervals
    singularityOffset :=
      ← setting entries asNumber "singularity_offset" d.singularityOffset
    maxCorrectorIterations :=
      ← setting entries asCount "max_corrector_iterations"
        d.maxCorrectorIterations
    refineOdeStep :=
      ← setting entries asBoolean "refine_ode_step" d.refineOdeStep
    maxStepHalvings :=
      ← setting entries asCount "max_step_halvings" d.maxStepHalvings
    weakCorrelation :=
      ← setting entries asNumber "weak_correlation" d.weakCorrelation
    logLevel := ← setting entries asText "log_level" d.logLevel
    logFile :=
      ← setting entries (fun v => (asText v).map some) "log_file" d.logFile }

variable (codec : Toml.Codec)

/-- Reads and checks a configuration. -/
def ofDocument (document : String) :
    Except (EngineError Float) (Config Float) := do
  match (codec.read document).bind ofEntries with
  | none => throw (.invalidParameter .malformedConfig)
  | some config =>
    config.validate
    return config

/-- Reads and checks a configuration from the contents of a file, if there
are any. -/
def ofContents (contents : Option String) :
    Except (EngineError Float) (Config Float) :=
  match contents with
  | some document => ofDocument codec document
  | none => .error (.invalidParameter .unreadableConfig)

/-- The table of a configuration. -/
def entries (c : Config Float) : Toml.Entries :=
  [("max_iterations", .integer c.maxIterations),
    ("derivative_floor", .float c.derivativeFloor),
    ("divisor_floor", .float c.divisorFloor),
    ("determinant_floor", .float c.determinantFloor),
    ("divergence_bound", .float c.divergenceBound),
    ("initial_subintervals", .integer c.initialSubintervals),
    ("max_subintervals", .integer c.maxSubintervals),
    ("singularity_offset", .float c.singularityOffset),
    ("max_corrector_iterations", .integer c.maxCorrectorIterations),
    ("refine_ode_step", .boolean c.refineOdeStep),
    ("max_step_halvings", .integer c.maxStepHalvings),
    ("weak_correlation", .float c.weakCorrelation),
    ("log_level", .text c.logLevel)] ++
  (c.logFile.map fun file => ("log_file", Toml.Value.text file)).toList

/-- What to say of a configuration without a document. -/
def failureOf : Toml.Refusal → Failure Float
  | .error => .error (.invalidParameter .unencodableConfig)
  | .abort reason => .abort reason

/-- The document of a configuration. -/
def toDocument (c : Config Float) : Except (Failure Float) String :=
  (codec.write c.entries).mapError failureOf

/-- Whether a document is read as a given configuration. -/
def isDocumentOf (c : Config Float) (document : String) : Bool :=
  match ofDocument codec document with
  | .ok d => c.agrees d
  | .error _ => false

end Config
end NumericalMethods
