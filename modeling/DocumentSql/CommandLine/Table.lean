import DocumentSql.QueryResult
/- Result tables for people. -/

namespace DocumentSql.CommandLine

/-- A key is left out where its row also has the caller's spelling of it. -/
def isVisible (row : Row) (key : String) : Bool :=
  NameCase.callerName key == key || !row.contains (NameCase.callerName key)

def columns (rows : List Row) : List String :=
  rows.foldl
    (fun columns row =>
      row.keys.foldl
        (fun columns key =>
          if isVisible row key && !columns.contains key then columns ++ [key] else columns)
        columns)
    []

/-- A key that is not there is an empty cell. -/
def cellText (row : Row) (column : String) : String :=
  ((row.get? column).map Value.display).getD ""

/-- The width of a column is that of its longest cell in bytes. -/
def columnWidth (rows : List Row) (column : String) : Nat :=
  rows.foldl (fun width row => max width (cellText row column).utf8ByteSize) column.utf8ByteSize

/-- The lines of a table. Cells are filled up to the width by characters. -/
def tableLines (rows : List Row) : List String :=
  let columns := columns rows
  let widths := columns.map (columnWidth rows)
  let line (cells : List String) : String :=
    String.intercalate " │ " ((cells.zip widths).map fun (cell, width) => Text.padEnd width cell)
  let rule := String.intercalate "─┼─" (widths.map fun width => Text.repeated width "─")
  line columns :: rule :: rows.map fun row => line (columns.map (cellText row))

end DocumentSql.CommandLine
