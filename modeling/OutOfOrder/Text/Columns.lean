import OutOfOrder.Text.Blank

/-!
# Columns

A table is printed with its cells aligned on the left, every column as wide as its widest cell.
Widths count characters.
-/

namespace OutOfOrder.Text

/-- The text with spaces behind it up to the width. -/
def padRight (width : Nat) (text : String) : String :=
  text ++ String.ofList (List.replicate (width - text.length) ' ')

/-- The width of every column: that of its widest cell, the header included. -/
def columnWidths (header : List String) (rows : List (List String)) : List Nat :=
  rows.foldl (fun widths row => List.zipWith (fun w cell => max w cell.length) widths row)
    (header.map String.length)

/-- One line of the table, without the blanks at its end. -/
def columnLine (widths : List Nat) (row : List String) : String :=
  let line := String.intercalate "  " (List.zipWith padRight widths row)
  String.ofList (stripRight line.toList)

def columns (header : List String) (rows : List (List String)) : List String :=
  (header :: rows).map (columnLine (columnWidths header rows))

end OutOfOrder.Text
