/-
Tables for a terminal: a frame of `+`, `-` and `|`, a line between any two rows,
and cells that are filled up with blanks on the right. A cell of several lines
makes its row as high.
-/
import VmFleet.Text.Width

namespace VmFleet.Text

/-- The lines of a cell. -/
def cellLines (cell : String) : List (List Char) :=
  splitAt '\n' [] cell.toList
where
  splitAt (mark : Char) (current : List Char) : List Char → List (List Char)
    | [] => [current.reverse]
    | c :: rest =>
      if c = mark then current.reverse :: splitAt mark [] rest else splitAt mark (c :: current) rest

def cellWidth (cell : List (List Char)) : Nat :=
  (cell.map width).foldl max 0

/-- The width of each column, as wide as its widest cell. -/
def columnWidths (rows : List (List (List (List Char)))) : List Nat :=
  match rows with
  | [] => []
  | row :: rest =>
    rest.foldl (fun widths row => widths.zipWith max (row.map cellWidth)) (row.map cellWidth)

def frameLine (widths : List Nat) : List Char :=
  '+' :: widths.flatMap fun w => List.replicate (w + 2) '-' ++ ['+']

/-- One line of a row: the `i`-th line of each of its cells. -/
def rowLine (widths : List Nat) (row : List (List (List Char))) (i : Nat) : List Char :=
  '|' :: (widths.zip row).flatMap fun (w, cell) =>
    let line := (cell[i]?).getD []
    ' ' :: line ++ List.replicate (w - width line) ' ' ++ [' ', '|']

def rowLines (widths : List Nat) (row : List (List (List Char))) : List (List Char) :=
  (List.range ((row.map List.length).foldl max 1)).map (rowLine widths row)

/-- The lines of a table with a header and rows of the same number of cells. -/
def tableLines (header : List String) (rows : List (List String)) : List String :=
  let cells := (header :: rows).map fun row => row.map cellLines
  let widths := columnWidths cells
  let frame := frameLine widths
  (frame :: cells.flatMap fun row => rowLines widths row ++ [frame]).map String.ofList

end VmFleet.Text
