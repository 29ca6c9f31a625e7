import NumericalMethods.Text.Width

/-!
# Boxed tables

A table is a list of rows of cells.  Rows with fewer cells than the longest one
are filled up with empty cells, every column is as wide as its widest cell, and
a rule separates all rows.  A table without a column has no text at all.
-/

namespace NumericalMethods
namespace Text

def cellLines (cell : String) : List (List Char) :=
  cell.toList.splitOn '\n'

/-- The columns a cell takes: the width of its widest line. -/
def cellWidth (cell : String) : Nat :=
  (cellLines cell).foldl (fun n line => max n (width line)) 0

/-- A line of a cell, filled up to a width, with a blank on both sides. -/
def padCell (columns : Nat) (line : List Char) : String :=
  String.ofList
    (' ' :: line ++ List.replicate (columns - width line) ' ' ++ [' '])

/-- A horizontal rule with its corner or crossing characters. -/
def rule (left middle right : String) (widths : List Nat) : String :=
  let bars := widths.map fun n => String.ofList (List.replicate (n + 2) '─')
  left ++ String.intercalate middle bars ++ right

/-- The display lines of a row. -/
def rowLines (widths : List Nat) (row : List String) : List String :=
  let cells := row.map cellLines
  let height := cells.foldl (fun n lines => max n lines.length) 1
  (List.range height).map fun i =>
    let padded :=
      (widths.zip cells).map fun (n, lines) => padCell n (lines.getD i [])
    "│" ++ String.intercalate "│" padded ++ "│"

/-- The widths of the columns of a table whose rows have equal length. -/
def columnWidths (columns : Nat) (rows : List (List String)) : List Nat :=
  rows.foldl
    (fun widths row =>
      List.zipWith (fun n cell => max n (cellWidth cell)) widths row)
    (List.replicate columns 0)

/-- A row filled up with empty cells. -/
def fillRow (columns : Nat) (row : List String) : List String :=
  row ++ List.replicate (columns - row.length) ""

def boxed (rows : List (List String)) : String :=
  let columns := rows.foldl (fun n row => max n row.length) 0
  if columns = 0 then ""
  else
    let rows := rows.map (fillRow columns)
    let widths := columnWidths columns rows
    let separator := rule "├" "┼" "┤" widths
    let body := (rows.map (rowLines widths)).intersperse [separator]
    String.intercalate "\n"
      (rule "╭" "┬" "╮" widths :: body.flatten ++ [rule "╰" "┴" "╯" widths])

end Text
end NumericalMethods
