import ClassWeave.Text.Blank
import ClassWeave.Text.Wrapping

/-!
# Tables

A table is shown without lines, its columns two blanks apart and each as wide as its widest cell, up
to a limit.  What is wider is put on several lines.  A cell of several lines makes its row as high
as it has lines.

* `Table.lines` : the lines of a table, indented, and without blanks at their ends.
-/

namespace ClassWeave

/-- The side of its column to which a cell is moved. -/
inductive Alignment where
  | left
  | right
  deriving DecidableEq, Repr

/-- A table.  Every row has a cell for each column. -/
structure Table where
  /-- What stands above the columns, and how their cells are aligned. -/
  columns : List (String × Alignment)
  /-- The rows. -/
  rows : List (List String) := []
  deriving DecidableEq, Repr

namespace Table

/-- What stands before every line. -/
def indent : String := "  "

/-- What stands between columns. -/
def gap : String := "  "

/-- The columns of text that a column of the table takes at most. -/
def widthLimit : Nat := 65535

/-- The columns of text that `cell` takes: those of its widest line. -/
def cellWidth (cell : String) : Nat :=
  ((cell.toList.splitOn '\n').map DisplayWidth.listWidth).foldl max 0

/-- The lines of `cell` in a column of `width` columns of text. -/
def cellLines (width : Nat) (cell : String) : List String :=
  ((cell.toList.splitOn '\n').flatMap (Wrapping.lines width)).map String.ofList

/-- The `line` of a cell, filled up to `width` on the side that `alignment` leaves. -/
def fill (width : Nat) (alignment : Alignment) (line : String) : String :=
  let blanks := String.ofList (List.replicate (width - DisplayWidth.width line) ' ')
  match alignment with
  | .left => line ++ blanks
  | .right => blanks ++ line

variable (t : Table)

/-- The row above all others. -/
def header : List String := t.columns.map Prod.fst

/-- The widths of the columns. -/
def widths : List Nat :=
  (List.range t.columns.length).map fun i =>
    min widthLimit (((t.header :: t.rows).map fun row => cellWidth (row.getD i "")).foldl max 0)

/-- The lines of `row`, in `columns` of these widths and alignments. -/
def rowLines (columns : List (Nat × Alignment)) (row : List String) : List String :=
  let cells := (row.zip columns).map fun (cell, width, _) => cellLines width cell
  let height := (cells.map List.length).foldl max 1
  (List.range height).map fun i =>
    let parts := (cells.zip columns).map fun (lines, width, side) =>
      fill width side (lines.getD i "")
    indent ++ Text.trimEnd (String.intercalate gap parts)

/-- The lines of a table. -/
def lines : List String :=
  (t.header :: t.rows).flatMap (rowLines (t.widths.zip (t.columns.map Prod.snd)))

end Table

end ClassWeave
