import DebugSymbols.Text.CharSet
import DebugSymbols.Text.Joining

namespace DebugSymbols

inductive Align where
  | left
  | right
deriving DecidableEq, Repr

structure Column where
  heading : String
  align : Align
deriving DecidableEq, Repr

namespace Columns

def cellLines (cell : String) : List (List Char) := cell.toList.splitOn '\n'

def cellWidth (cell : String) : Nat := ((cellLines cell).map Width.ofText).foldl max 0

def fill (align : Align) (width : Nat) (line : List Char) : List Char :=
  let blanks := List.replicate (width - Width.ofText line) ' '
  match align with
  | .left => line ++ blanks
  | .right => blanks ++ line

/-- Each column is as wide as its widest cell, its heading included. -/
def widths (columns : List Column) (rows : List (List String)) : List Nat :=
  columns.zipIdx.map fun (c, i) =>
    (rows.map fun row => cellWidth (row.getD i "")).foldl max (cellWidth c.heading)

/-- The lines of a row, as many as its highest cell has, with no blanks at their ends. -/
def rowLines (layout : List (Align × Nat)) (row : List String) : List String :=
  let cells := row.map cellLines
  let height := (cells.map List.length).foldl max 0
  (List.range height).map fun i =>
    let fields := (layout.zip cells).map fun ((align, width), cell) =>
      fill align width (cell.getD i [])
    String.ofList (Blank.trimEnd ([' ', ' '].intercalate fields))

/-- The headings and the rows of a table, each line behind the indent. -/
def render (columns : List Column) (indent : String) (rows : List (List String)) : List String :=
  let layout := (columns.map (·.align)).zip (widths columns rows)
  let headings := columns.map (·.heading)
  ((headings :: rows).flatMap (rowLines layout)).map fun line => indent ++ line

end Columns

end DebugSymbols
