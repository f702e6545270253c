import CostTape.Text.Wrap

/-! Tables drawn with box characters. -/

namespace CostTape

structure Table where
  headings : List String
  rows : List (List String)

namespace Table

/-- The width of a text is that of its widest line; tabs do not count. -/
def cellWidth (cell : String) : Nat :=
  Text.widest (Text.splitLines cell.toList)

def cellHeight (width : Nat) (cell : String) : Nat :=
  ((Text.splitLines cell.toList).map (Text.wrappedHeight width)).foldl (· + ·) 0

/-- The lines of a cell with a space on both sides: exactly `height` lines, cut to
the width of the column. -/
def cellLines (width height : Nat) (cell : String) : List (List Char) :=
  let text := List.intercalate ['\n'] ((Text.splitLines cell.toList).map Text.expandTabs)
  let lines := (Text.wrap width text).map fun line => ' ' :: line ++ [' ']
  let filled := lines ++ List.replicate (height - lines.length) []
  let padded := filled.map (Text.padTo (max (width + 2) (Text.widest filled)))
  Text.even ((padded.map (Text.cut (width + 2))).take height)

def widths (table : Table) : List Nat :=
  table.rows.foldl (fun widths row => List.zipWith max widths (row.map cellWidth))
    (table.headings.map cellWidth)

def rule (left middle right : String) (widths : List Nat) : String :=
  left ++ middle.intercalate (widths.map fun width => "".pushn '─' (width + 2)) ++ right

def rowLine (cells : List (List Char)) : String :=
  "│" ++ "│".intercalate (cells.map String.ofList) ++ "│"

def rowLines (widths : List Nat) (row : List String) : List String :=
  let height := (List.zipWith cellHeight widths row).foldl max 1
  let columns := List.zipWith (fun width cell => cellLines width height cell) widths row
  (List.range height).map fun index => rowLine (columns.map (·.getD index []))

def lines (table : Table) : List String :=
  let widths := table.widths
  let drawn := [rule "┌" "┬" "┐" widths] ++ rowLines widths table.headings ++
    [rule "├" "┼" "┤" widths] ++ table.rows.flatMap (rowLines widths) ++
    [rule "└" "┴" "┘" widths]
  (Text.even (drawn.map String.toList)).map String.ofList

end Table

end CostTape
