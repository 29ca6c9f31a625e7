import NumericalMethods.Error
import NumericalMethods.Toml.Reader
import NumericalMethods.Toml.Writer

/-!
# Codecs

A codec writes tables as documents and reads documents as tables.  What uses one
takes it as a parameter.  `codec` writes one value on each line and reads all of
TOML; with a whole number beyond the signed machine numbers it gives up.
-/

namespace NumericalMethods
namespace Toml

/-- Why a table has no document. -/
inductive Refusal where
  /-- The writer reports that there is none. -/
  | error
  /-- The writer ends without an answer. -/
  | abort (reason : Abort)
  deriving Repr, DecidableEq

/-- A writer and a reader of documents. -/
structure Codec where
  write : Entries → Except Refusal String
  read : String → Option Entries

/-- The text of a value on one line. -/
def valueText : Value → Except Refusal String
  | .integer n =>
    match integer n with
    | some text => .ok text
    | none => .error (.abort .unwritableNumber)
  | .float x => .ok (float x)
  | .boolean b => .ok (boolean b)
  | .text s => .ok (quote s)
  | .moment _ | .array _ | .table .. | .tables _ => .error .error

/-- The line of an entry. -/
def lineOf (entry : String × Value) : Except Refusal String :=
  (valueText entry.2).map fun text => entry.1 ++ " = " ++ text ++ "\n"

/-- The document of a table without tables or lists in it, one value on
each line. -/
def write (entries : Entries) : Except Refusal String :=
  (entries.mapM lineOf).map String.join

def codec : Codec where
  write := write
  read := read?

end Toml
end NumericalMethods
