/-!
# Tables

A table has titles and rows of cells, and a cell has one or more lines. It is drawn with a line
under the titles and a line at the bottom; columns are as wide as their widest line. A table
can be put into a cell of another, as its lines.
-/

namespace RegisterMachine

/-- The side on which the text of a cell stands. -/
inductive Side where
  | left
  | right
  deriving DecidableEq, Repr

/-- The contents of a table at one row and column. -/
structure Cell where
  side : Side
  lines : List String

/-- A table. Every row has as many cells as there are titles. -/
structure Table where
  titles : List Cell
  rows : List (List Cell)

namespace Cell

/-- A cell with a single line. -/
def ofText (side : Side) (text : String) : Cell :=
  ⟨side, [text]⟩

/-- The length of the longest line. -/
def width (cell : Cell) : Nat :=
  cell.lines.foldl (fun width line => max width line.length) 0

/-- A line of a cell, filled up to a width; lines past the last are blank. -/
def paddedLine (cell : Cell) (width index : Nat) : String :=
  let line := cell.lines.getD index ""
  let blanks := String.ofList (List.replicate (width - line.length) ' ')
  match cell.side with
  | .left => line ++ blanks
  | .right => blanks ++ line

end Cell

namespace Table

/-- The width of each column. -/
def widths (table : Table) : List Nat :=
  let widen (widths : List Nat) (row : List Cell) : List Nat :=
    List.zipWith (fun width cell => max width cell.width) widths row
  table.rows.foldl widen (table.titles.map Cell.width)

/-- The lines of a row. -/
def rowLines (widths : List Nat) (row : List Cell) : List String :=
  let height := row.foldl (fun height cell => max height cell.lines.length) 0
  (List.range height).map fun index =>
    let padded (width : Nat) (cell : Cell) : String := " " ++ cell.paddedLine width index ++ " "
    " " ++ "│".intercalate (List.zipWith padded widths row) ++ " "

/-- A line across the table, with a given sign where it meets a column separator. -/
def rule (widths : List Nat) (crossing : String) : String :=
  let dashes := widths.map fun width => String.ofList (List.replicate (width + 2) '─')
  " " ++ crossing.intercalate dashes ++ " "

/-- The lines of a table. -/
def lines (table : Table) : List String :=
  let widths := table.widths
  rowLines widths table.titles ++ [rule widths "┼"] ++ table.rows.flatMap (rowLines widths) ++
    [rule widths "┴"]

end Table

end RegisterMachine
