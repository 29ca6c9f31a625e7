/-!
# Values and tables of a TOML document

A table remembers how it came about, because that decides what may still be
added to it: a table written in braces is closed, a table opened by a header may
not be opened again, and a table that came about on the way to a deeper key may
be opened once.
-/

namespace NumericalMethods
namespace Toml

/-- How a table came about. -/
inductive Origin where
  | braces
  /-- Opened by a header. -/
  | header
  /-- On the way of a header to a deeper table. -/
  | path
  /-- On the way of a dotted key to its last part. -/
  | dots
  deriving Repr, DecidableEq

inductive Value where
  | integer (value : Int)
  | float (value : Float)
  | boolean (value : Bool)
  | text (value : String)
  /-- A date, a time of day, or both. -/
  | moment (value : String)
  | array (items : List Value)
  | table (origin : Origin) (entries : List (String × Value))
  /-- A list of tables, each opened by a header of its own. -/
  | tables (rows : List (List (String × Value)))

abbrev Entries :=
  List (String × Value)

namespace Entries

def find? (entries : Entries) (key : String) : Option Value :=
  List.lookup key entries

/-- The entries with the value of a key replaced. -/
def replace (entries : Entries) (key : String) (value : Value) : Entries :=
  entries.map fun (k, v) => if k = key then (k, value) else (k, v)

/-- Assigns a value to a dotted key.  The tables on the way have to come from
dotted keys as well; one from the way of a header, or the last of a list of
tables, may be passed as well, but does not take the last part itself.  `direct`
says that the entries at hand do. -/
def assign (value : Value) : (keys : List String) → (direct : Bool) → Entries →
    Option Entries
  | [], _, _ => none
  | [key], direct, entries =>
    if direct && (entries.find? key).isNone then
      some (entries ++ [(key, value)])
    else none
  | key :: rest, _, entries =>
    match entries.find? key with
    | none => do
      let inner ← assign value rest true []
      return entries ++ [(key, .table .dots inner)]
    | some (.table .dots inner) => do
      let inner ← assign value rest true inner
      return entries.replace key (.table .dots inner)
    | some (.table .path inner) => do
      let inner ← assign value rest false inner
      return entries.replace key (.table .path inner)
    | some (.tables rows) => do
      let inner ← assign value rest false (rows.getLastD [])
      return entries.replace key (.tables (rows.dropLast ++ [inner]))
    | some _ => none

/-- Changes the entries of the table a header leads to, through the last table
of each list of tables on the way. -/
def change (f : Entries → Option Entries) :
    (keys : List String) → Entries → Option Entries
  | [], entries => f entries
  | key :: rest, entries =>
    match entries.find? key with
    | some (.table origin inner) => do
      let inner ← change f rest inner
      return entries.replace key (.table origin inner)
    | some (.tables rows) => do
      let inner ← change f rest (rows.getLastD [])
      return entries.replace key (.tables (rows.dropLast ++ [inner]))
    | _ => none

/-- Goes the way of a header up to its last part, creating tables where there
are none, and changes the entries there. -/
def descend (f : String → Entries → Option Entries) :
      (keys : List String) → Entries →
    Option Entries
  | [], _ => none
  | [key], entries => f key entries
  | key :: rest, entries =>
    match entries.find? key with
    | none => do
      let inner ← descend f rest []
      return entries ++ [(key, .table .path inner)]
    | some (.table .braces _) => none
    | some (.table origin inner) => do
      let inner ← descend f rest inner
      return entries.replace key (.table origin inner)
    | some (.tables rows) => do
      let inner ← descend f rest (rows.getLastD [])
      return entries.replace key (.tables (rows.dropLast ++ [inner]))
    | some _ => none

/-- Opens a table. -/
def openTable (keys : List String) (entries : Entries) : Option Entries :=
  descend
    (fun key entries =>
      match entries.find? key with
      | none => some (entries ++ [(key, .table .header [])])
      | some (.table .path inner) =>
        some (entries.replace key (.table .header inner))
      | some _ => none)
    keys entries

/-- Opens one more table of a list of tables. -/
def openRow (keys : List String) (entries : Entries) : Option Entries :=
  descend
    (fun key entries =>
      match entries.find? key with
      | none => some (entries ++ [(key, .tables [[]])])
      | some (.tables rows) =>
        some (entries.replace key (.tables (rows ++ [[]])))
      | some _ => none)
    keys entries

end Entries

/-- A line of a document that says something. -/
inductive Statement where
  | assign (keys : List String) (value : Value)
  | openTable (keys : List String)
  | openRow (keys : List String)

/-- Carries out statements, the last header having led to `header`. -/
def assemble : List Statement → (header : List String) → Entries →
    Option Entries
  | [], _, entries => some entries
  | .assign keys value :: rest, header, entries => do
    let entries ← entries.change (Entries.assign value keys true) header
    assemble rest header entries
  | .openTable keys :: rest, _, entries => do
    let entries ← entries.openTable keys
    assemble rest keys entries
  | .openRow keys :: rest, _, entries => do
    let entries ← entries.openRow keys
    assemble rest keys entries

end Toml
end NumericalMethods
