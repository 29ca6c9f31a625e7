import NumericalMethods.Decimal.Layout

/-!
# Records as text

`Json` is the shape of every record the library hands out: fields keep the
order in which they are declared.  The text has no blanks; numbers without a
finite value have no text of their own and are written as `null`.
-/

namespace NumericalMethods

inductive Json where
  | null
  | bool (value : Bool)
  | count (value : Nat)
  | number (value : Float)
  | text (value : String)
  | list (values : List Json)
  | record (fields : List (String × Json))

namespace Json

/-- The value if there is one. -/
def ofOption {β : Type} (encode : β → Json) : Option β → Json
  | some value => encode value
  | none => null

def numbers (values : List Float) : Json :=
  list (values.map number)

def grid (rows : List (List Float)) : Json :=
  list (rows.map numbers)

def point (p : Float × Float) : Json :=
  numbers [p.1, p.2]

def points (ps : List (Float × Float)) : Json :=
  list (ps.map point)

def hexDigit (n : Nat) : Char :=
  Nat.digitChar n

/-- A character inside a quoted text: quotes, backslashes and control
characters are escaped. -/
def escapeChar (c : Char) : List Char :=
  if c = '"' then ['\\', '"']
  else if c = '\\' then ['\\', '\\']
  else if c = '\n' then ['\\', 'n']
  else if c = '\r' then ['\\', 'r']
  else if c = '\t' then ['\\', 't']
  else if c = '\x08' then ['\\', 'b']
  else if c = '\x0c' then ['\\', 'f']
  else if c.toNat < 0x20 then
    ['\\', 'u', '0', '0', hexDigit (c.toNat / 16), hexDigit (c.toNat % 16)]
  else [c]

def quote (s : String) : String :=
  String.ofList ('"' :: s.toList.flatMap escapeChar ++ ['"'])

mutual

/-- The pieces of the text of a value, in front of what follows it. -/
def pieces : Json → List String → List String
  | null, rest => "null" :: rest
  | bool value, rest => (if value then "true" else "false") :: rest
  | count value, rest => toString value :: rest
  | number value, rest =>
    (if value.isFinite then Decimal.Layout.record.render value
      else "null") :: rest
  | text value, rest => quote value :: rest
  | list values, rest => "[" :: listPieces values ("]" :: rest)
  | record fields, rest => "\x7b" :: fieldPieces fields ("\x7d" :: rest)

/-- The pieces of the texts of values, divided by commas. -/
def listPieces : List Json → List String → List String
  | [], rest => rest
  | [v], rest => pieces v rest
  | v :: v' :: vs, rest => pieces v ("," :: listPieces (v' :: vs) rest)

/-- The pieces of the texts of named values, divided by commas. -/
def fieldPieces : List (String × Json) → List String → List String
  | [], rest => rest
  | [(name, v)], rest => quote name :: ":" :: pieces v rest
  | (name, v) :: f :: fs, rest =>
    quote name :: ":" :: pieces v ("," :: fieldPieces (f :: fs) rest)

end

def render (value : Json) : String :=
  String.join (value.pieces [])

end Json
end NumericalMethods
