import CloudPing.Utf8.Text
import Mathlib.Data.List.Basic

/-!
# Tables as text

`GetHumanReadableText` measures a column in bytes, cuts what is too long at a byte, and lets
`fmt` pad what is left to as many runes as the column has bytes.

A string is its bytes, whether they are a text or not.
-/

namespace CloudPing.Table

open Utf8

/-- The bytes of a literal. -/
def text (s : String) : List UInt8 := encode s.toList

structure StyledCell where
  style : List UInt8 := []
  textContent : List UInt8

abbrev Row := List StyledCell

structure StyledTable where
  cells : List Row

/-! ## What `fmt` makes of a cell -/

/-- A width that `fmt` accepts is not larger. -/
def maxWidth : Nat := 1000000

/-- `fmt.Fprintf` of `%-*s`: the text is padded to so many runes. -/
def fprintfLeft (width : Nat) (s : List UInt8) : List UInt8 :=
  if width > maxWidth then text "%!(BADWIDTH)" ++ s
  else s ++ List.replicate (width - runeCount s) 0x20

/-! ## Columns -/

namespace StyledTable

def numCols (tb : StyledTable) : Nat :=
  tb.cells.foldl (fun numCols row => if row.length > numCols then row.length else numCols) 0

/-- The length of a cell, as far as it counts. -/
def limit (maxColWidth : Int) (cellLen : Nat) : Nat :=
  if maxColWidth > 0 ∧ (cellLen : Int) > maxColWidth then maxColWidth.toNat else cellLen

/-- The widths with one more cell. -/
def widen (maxColWidth : Int) (numCols : Nat) (colWidths : List Nat) (colIdx : Nat)
    (cell : StyledCell) : List Nat :=
  let cellLen := limit maxColWidth cell.textContent.length
  if colIdx < numCols ∧ cellLen > colWidths.getD colIdx 0 then colWidths.set colIdx cellLen
  else colWidths

/-- With the cells of a row from a column on. -/
def widenRow (maxColWidth : Int) (numCols : Nat) (colWidths : List Nat) (colIdx : Nat) :
    Row → List Nat
  | [] => colWidths
  | cell :: row =>
    widenRow maxColWidth numCols (widen maxColWidth numCols colWidths colIdx cell) (colIdx + 1) row

def colWidths (tb : StyledTable) (maxColWidth : Int) : List Nat :=
  tb.cells.foldl (fun colWidths row => widenRow maxColWidth tb.numCols colWidths 0 row)
    (List.replicate tb.numCols 0)

/-! ## Rows -/

def truncateCell (maxColWidth : Int) (cell : List UInt8) : List UInt8 :=
  if maxColWidth > 0 ∧ (cell.length : Int) > maxColWidth then
    if maxColWidth ≤ 3 then cell.take maxColWidth.toNat
    else cell.take (maxColWidth - 3).toNat ++ text "..."
  else cell

/-- The text of a row in a column, which is empty behind its last cell. -/
def cellText (maxColWidth : Int) (row : Row) (colIdx : Nat) : List UInt8 :=
  match row[colIdx]? with
  | none => []
  | some cell => truncateCell maxColWidth cell.textContent

variable (tb : StyledTable) (colGap maxColWidth : Int)

/-- One round of the loop of `writeRow`. -/
def writeCell (row : Row) (colIdx : Nat) : List UInt8 :=
  fprintfLeft ((tb.colWidths maxColWidth).getD colIdx 0) (cellText maxColWidth row colIdx) ++
    if (colIdx : Int) < tb.numCols - 1 ∧ colGap > 0 then List.replicate colGap.toNat 0x20 else []

/-- What is written of a row before the cell of a column. -/
def rowStart (row : Row) (colIdx : Nat) : List UInt8 :=
  (List.range colIdx).flatMap (tb.writeCell colGap maxColWidth row)

def writeRow (row : Row) : List UInt8 :=
  tb.rowStart colGap maxColWidth row tb.numCols ++ [0x0A]

/-- A row without cells, if it is not the first. -/
def IsGap (rowIdx : Nat) (row : Row) : Prop := rowIdx > 0 ∧ row.length = 0

instance (rowIdx : Nat) (row : Row) : Decidable (IsGap rowIdx row) :=
  inferInstanceAs (Decidable (_ ∧ _))

def writeRows : Nat → List Row → List UInt8
  | _, [] => []
  | rowIdx, row :: rows =>
    (if IsGap rowIdx row then [0x0A] else tb.writeRow colGap maxColWidth row) ++
      writeRows (rowIdx + 1) rows

/-- The gap between rows is not used. -/
def getHumanReadableText (_rowGap : Int) : List UInt8 :=
  if tb.cells.length = 0 then text "(No data)"
  else if tb.numCols = 0 then text "(No data)"
  else tb.writeRows colGap maxColWidth 0 tb.cells

end StyledTable

end CloudPing.Table
