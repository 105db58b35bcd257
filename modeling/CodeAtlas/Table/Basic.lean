import CodeAtlas.Table.Width

/-!
# Tables

A table of labels and values with a header, drawn in lines with rounded corners. A column is as
wide as the widest line in it, and a row as high as its highest cell.
-/

namespace CodeAtlas

/-- A row of a table. -/
structure Row where
  label : String
  value : String
deriving DecidableEq, Repr

namespace Row

/-- The row above the others. -/
def header : Row := ⟨"Metric", "Value"⟩

/-- The cells of a row. -/
def cells (r : Row) : List String := [r.label, r.value]

end Row

namespace Table

/-- The lines of a cell. -/
def cellLines (cell : String) : List String :=
  cell.splitOn "\n"

/-- The width of a column. -/
def columnWidth (cells : List String) : Nat :=
  ((cells.flatMap cellLines).map Width.ofText).foldl max 0

/-- A line of a cell, filled up with spaces to a width. -/
def pad (width : Nat) (line : String) : String :=
  line ++ String.ofList (List.replicate (width - Width.ofText line) ' ')

/-- A line of a row. -/
def rowLine (widths : List Nat) (lines : List String) : String :=
  "│" ++ String.join ((widths.zip lines).map fun (width, line) ↦ " " ++ pad width line ++ " │")

/-- The lines of a row. Cells with fewer lines than others are filled up below. -/
def rowLines (widths : List Nat) (cells : List String) : List String :=
  let lines := cells.map cellLines
  let height := (lines.map List.length).foldl max 0
  (List.range height).map fun i ↦ rowLine widths (lines.map fun l ↦ l[i]?.getD "")

/-- A line between rows. -/
def rule (left middle right : String) (widths : List Nat) : String :=
  let bars := widths.map fun width ↦ String.ofList (List.replicate (width + 2) '─')
  left ++ middle.intercalate bars ++ right

/-- Draws a table. Without rows there is nothing to draw. -/
def render (rows : List Row) : String :=
  if rows.isEmpty then ""
  else
    let all := Row.header :: rows
    let widths := [columnWidth (all.map Row.label), columnWidth (all.map Row.value)]
    "\n".intercalate <|
      [rule "╭" "┬" "╮" widths] ++ rowLines widths Row.header.cells ++
      [rule "├" "┼" "┤" widths] ++ rows.flatMap (fun r ↦ rowLines widths r.cells) ++
      [rule "╰" "┴" "╯" widths]

end Table

end CodeAtlas
