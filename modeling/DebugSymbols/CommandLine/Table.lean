import DebugSymbols.Text.Blank

/-!
# Tables

A table has columns of cells below a header, without borders and with two spaces between columns. A
cell may have several lines; the row is then as high as its highest cell. No line of the table ends
in blanks.
-/

namespace DebugSymbols.CommandLine

/-- The side of a column at which its cells stand. -/
inductive Align
  | left
  | right
deriving DecidableEq, Repr

/-- A column: its header and how its cells are aligned. -/
structure Column where
  header : String
  align : Align
deriving DecidableEq, Repr

/-- A table: columns, and rows with a cell for each of them. -/
structure Table where
  columns : List Column
  rows : List (List String)
deriving DecidableEq, Repr

/-- The lines of a text, split at every line feed. -/
def splitLines : List Char → List (List Char)
  | [] => [[]]
  | c :: rest =>
    match splitLines rest with
    | [] => [[c]]
    | line :: lines => if c = '\n' then [] :: line :: lines else (c :: line) :: lines

namespace Table

/-- The lines of the cells of a row. -/
abbrev Row : Type := List (List (List Char))

/-- The header and the rows, cell by cell and line by line. -/
def cells (table : Table) : List Row :=
  (table.columns.map (·.header) :: table.rows).map fun row =>
    row.map fun cell => splitLines cell.toList

/-- The length of the longest line in column `index`. -/
def width (rows : List Row) (index : Nat) : Nat :=
  (rows.flatMap fun row => (row[index]?.getD []).map List.length).foldl max 0

/-- A line of a cell, filled up to the width of its column. -/
def pad (align : Align) (width : Nat) (line : List Char) : List Char :=
  let fill := List.replicate (width - line.length) ' '
  match align with
  | .left => line ++ fill
  | .right => fill ++ line

/-- The lines of a row; a cell without a line there is blank. -/
def rowLines (aligns : List Align) (widths : List Nat) (row : Row) : List (List Char) :=
  let height := (row.map List.length).foldl max 0
  (List.range height).map fun index =>
    let parts := (aligns.zip (widths.zip row)).map fun (align, width, cell) =>
      pad align width (cell[index]?.getD [])
    Text.trimEnd ([' ', ' '].intercalate parts)

/-- The text of a table. -/
def text (table : Table) : String :=
  let rows := table.cells
  let widths := (List.range table.columns.length).map (width rows)
  let aligns := table.columns.map (·.align)
  String.ofList ((rows.flatMap (rowLines aligns widths)).flatMap fun line => line ++ ['\n'])

end Table

end DebugSymbols.CommandLine
