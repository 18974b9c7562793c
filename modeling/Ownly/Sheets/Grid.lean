import Ownly.Sheets.Workbook

-- frontend/src/lib/spreadsheet/grid.ts, with what it uses of dimensions.ts.
namespace Ownly.Sheets
open Collab (Text Value Fields)

def gridMinColumnCount : Nat := 26
def gridMinRowCount : Nat := 500
def gridPaddingColumns : Nat := 10
def gridPaddingRows : Nat := 50

-- GRID_DEFAULT_ROW_HEIGHT is 25 scaled by 1.25 and rounded.
def gridDefaultColWidth : Rat := 64
def gridDefaultRowHeight : Rat := 31

def emptySheetCell : SheetCell := ⟨.null,none,[],none,none,none,none⟩

-- A scan from the right for the last element that meets `p`: the index after it.
def usedLength {α : Type} (p : α → Bool) : List α → Nat
  | [] => 0
  | x :: rest =>
    let later := usedLength p rest
    if later ≠ 0 ∨ p x = true then later + 1 else 0

def isDefaultSize (default : Rat) : Option Rat → Bool
  | none => true
  | some size => decide (size - default ≤ 1 ∧ default - size ≤ 1)

def storedCustomExtent (default : Rat) : Dimensions → Nat
  | none => 0
  | some sizes => usedLength (fun size => !isDefaultSize default size) sizes

def storedCustomColumnExtent (columnWidths : Dimensions) : Nat := storedCustomExtent gridDefaultColWidth columnWidths
def storedCustomRowExtent (rowHeights : Dimensions) : Nat := storedCustomExtent gridDefaultRowHeight rowHeights

-- What JavaScript takes for false: an absent text and an empty one.
def truthy : Option Text → Bool
  | some (_ :: _) => true
  | _ => false

def hasKeys (style : CellStyle) : Bool := cellStyleKeys.any (fun key => (style key).isSome)

def cellHasContent (cell : SheetCell) : Bool :=
  truthy cell.formula || decide (cell.value ≠ .null ∧ cell.value ≠ .text []) ||
    match cell.style with
    | some style => hasKeys style
    | none => false

def rowHasContent (row : List SheetCell) : Bool := row.any cellHasContent

def usedColumnCount (rows : List (List SheetCell)) : Nat :=
  rows.foldl (fun maxCol row => max maxCol (usedLength cellHasContent row)) 0

def usedRowCount (rows : List (List SheetCell)) : Nat := usedLength rowHasContent rows

def longestRow (rows : List (List SheetCell)) : Nat := rows.foldl (fun longest row => max longest row.length) 0

def targetGridColumnCount (rows : List (List SheetCell)) (columnWidths : Dimensions) : Nat :=
  max (max gridMinColumnCount (usedColumnCount rows + gridPaddingColumns))
    (max (longestRow rows) (storedCustomColumnExtent columnWidths))

def targetGridRowCount (rows : List (List SheetCell)) (rowHeights : Dimensions) : Nat :=
  max (max gridMinRowCount (usedRowCount rows + gridPaddingRows)) (max rows.length (storedCustomRowExtent rowHeights))

def padRow (row : List SheetCell) (columnCount : Nat) : List SheetCell :=
  (row ++ List.replicate (columnCount - row.length) emptySheetCell).take columnCount

def padSheetToSize (sheet : SheetData) (rowCount columnCount : Nat) : SheetData :=
  {sheet with rows := (List.range rowCount).map (fun rowIndex => padRow (sheet.rows.getD rowIndex []) columnCount)}

def normalizeSheetGrid (sheet : SheetData) : SheetData :=
  padSheetToSize sheet (targetGridRowCount sheet.rows sheet.rowHeights) (targetGridColumnCount sheet.rows sheet.columnWidths)

def expandSheetToAddress (sheet : SheetData) (row col : Nat) : SheetData :=
  padSheetToSize sheet (max (targetGridRowCount sheet.rows sheet.rowHeights) (row + 1 + gridPaddingRows))
    (max (targetGridColumnCount sheet.rows sheet.columnWidths) (col + 1 + gridPaddingColumns))

end Ownly.Sheets
