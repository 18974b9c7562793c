import Mathlib.Algebra.Order.Ring.Unbundled.Rat
import Ownly.Sheets.Grid

-- What a collaborative op does to a workbook: workbook-ops.ts, merge-regions.ts, the
-- addresses of cells.ts, the style patch of cell-styles.ts and the cell edit of parse.ts.
namespace Ownly.Sheets
open Collab (Text Value Fields)

-- What the rest of the browser supplies. A moment is all that differs from one call
-- to the next: the clock, and the numbers that a volatile formula draws.
structure Env where
  toLowerCase : Text → Text
  -- `Number(text)` where it is finite, and `String(…)` of what is no text
  number : Text → Option Rat
  numberText : Rat → Text
  text : Value → Text
  formatCellDisplay : CellValue → Text → Option Text → Text
  -- none where it throws
  recalculateSheet : Nat → SheetData → Nat → List SheetData → Option Value → Option SheetData
  dateNow : Nat → Nat
  isoTime : Nat → Text

def plainEnv : Env :=
  {toLowerCase := fun text => text.map Char.toLower
   number := fun text => if text.all Char.isDigit then
     some (text.foldl (fun n c => n * 10 + (c.toNat - 48)) 0 : Nat) else none
   numberText := fun n => (toString n.num).toList
   text := fun value => match value with
     | .bool b => (toString b).toList
     | _ => "[object Object]".toList
   formatCellDisplay := fun value _ _ => match value with
     | .null => []
     | .text text => text
     | .number n => (toString n.num).toList
   recalculateSheet := fun _ sheet _ _ _ => some sheet
   dateNow := fun now => now
   isoTime := fun now => (toString now).toList}

def isSpace (c : Char) : Bool :=
  ['\t','\n','\u000b','\u000c','\r',' ','\u00a0','\u1680','\u2028','\u2029','\u202f','\u205f','\u3000','\ufeff'].contains c ||
    (0x2000 ≤ c.toNat && c.toNat ≤ 0x200a)

def trim (text : Text) : Text := ((text.dropWhile isSpace).reverse.dropWhile isSpace).reverse

-- Array positions are numbers of the payload: an index finds an element only where it
-- is a whole number in range, `splice` rounds towards zero and counts back from the end.
def elementAt {α : Type} (xs : List α) (index : Rat) : Option α :=
  if index.den = 1 ∧ 0 ≤ index.num then xs[index.num.toNat]? else none

def spliceStart (position : Rat) (length : Nat) : Nat :=
  let whole := position.num.tdiv position.den
  if whole < 0 then (length + whole).toNat else min whole.toNat length

def spliceIn {α : Type} (xs : List α) (position : Rat) (x : α) : List α :=
  let start := spliceStart position xs.length
  xs.take start ++ x :: xs.drop start

def withoutIndex {α : Type} (xs : List α) (index : Rat) : List α :=
  (xs.zipIdx.filter (fun entry => decide ((entry.2 : Rat) ≠ index))).map Prod.fst

def mapSheet (workbook : SpreadsheetWorkbook) (sheetIndex : Rat) (change : SheetData → SheetData) : List SheetData :=
  workbook.sheets.mapIdx (fun index sheet => if (index : Rat) = sheetIndex then change sheet else sheet)

def mapCells (rows : List (List SheetCell)) (change : Nat → Nat → SheetCell → SheetCell) : List (List SheetCell) :=
  rows.mapIdx (fun rowIndex row => row.mapIdx (change rowIndex))

structure CellAddress where
  row : Rat
  col : Rat
  deriving DecidableEq, Repr

structure CellRange where
  start : CellAddress
  stop : CellAddress
  deriving DecidableEq, Repr

def normalizeRange (range : CellRange) : CellRange :=
  ⟨⟨min range.start.row range.stop.row,min range.start.col range.stop.col⟩,
   ⟨max range.start.row range.stop.row,max range.start.col range.stop.col⟩⟩

def inside (range : CellRange) (rowIndex colIndex : Nat) : Prop :=
  range.start.row ≤ rowIndex ∧ rowIndex ≤ range.stop.row ∧ range.start.col ≤ colIndex ∧ colIndex ≤ range.stop.col

instance (range : CellRange) (rowIndex colIndex : Nat) : Decidable (inside range rowIndex colIndex) :=
  inferInstanceAs (Decidable (_ ∧ _ ∧ _ ∧ _))

def emptyRow (cols : Nat) : List SheetCell := List.replicate cols emptySheetCell

def padRows (rows : List (List SheetCell)) (minRows minCols : Nat) : List (List SheetCell) :=
  let cols := max (max minCols (longestRow rows)) 1
  let next := rows.map (fun row => row ++ emptyRow (cols - row.length))
  next ++ List.replicate (minRows - next.length) (emptyRow cols)

def textOf (s : String) : Text := s.toList

def addSheet (workbook : SpreadsheetWorkbook) (name : Option Text) : SpreadsheetWorkbook :=
  let baseName := name.getD (textOf ("Sheet" ++ toString (workbook.sheets.length + 1)))
  let sheet := normalizeSheetGrid ⟨baseName,[[emptySheetCell]],none,none,none,[]⟩
  ofSheets (workbook.sheets ++ [sheet])

def removeSheet (workbook : SpreadsheetWorkbook) (sheetIndex : Rat) : SpreadsheetWorkbook :=
  if workbook.sheets.length ≤ 1 then workbook else ofSheets (withoutIndex workbook.sheets sheetIndex)

def renameSheet (workbook : SpreadsheetWorkbook) (sheetIndex : Rat) (name : Text) : SpreadsheetWorkbook :=
  let trimmed := trim name
  if trimmed = [] then workbook
  else ofSheets (mapSheet workbook sheetIndex (fun sheet => {sheet with name := trimmed}))

def moveSheet (workbook : SpreadsheetWorkbook) (fromIndex toIndex : Rat) : SpreadsheetWorkbook :=
  if fromIndex = toIndex then workbook
  else
    let start := spliceStart fromIndex workbook.sheets.length
    match workbook.sheets[start]? with
    | none => workbook
    | some sheet => ofSheets (spliceIn (workbook.sheets.eraseIdx start) toIndex sheet)

-- The dimension of a new row or column is that of the one it pushes on, or of the one before.
def spliceDimension (dimensions : Dimensions) (position fallback : Rat) : Dimensions :=
  dimensions.map (fun sizes =>
    let here := ((elementAt sizes position).bind (fun size => size)).orElse
      (fun _ => (elementAt sizes (position - 1)).bind (fun size => size))
    spliceIn sizes position (some (here.getD fallback)))

def insertRowInSheet (atRow : Rat) (sheet : SheetData) : SheetData :=
  let colCount := max (longestRow sheet.rows) gridMinColumnCount
  let nextRows := spliceIn sheet.rows atRow (emptyRow colCount)
  {sheet with rows := padRows nextRows gridMinRowCount colCount,rowHeights := spliceDimension sheet.rowHeights atRow 24}

def insertRow (workbook : SpreadsheetWorkbook) (sheetIndex atRow : Rat) : SpreadsheetWorkbook :=
  ofSheets (mapSheet workbook sheetIndex (insertRowInSheet atRow))

def deleteRowInSheet (atRow : Rat) (sheet : SheetData) : SheetData :=
  if sheet.rows.length ≤ 1 then sheet
  else {sheet with rows := withoutIndex sheet.rows atRow,rowHeights := sheet.rowHeights.map (withoutIndex · atRow)}

def deleteRow (workbook : SpreadsheetWorkbook) (sheetIndex atRow : Rat) : SpreadsheetWorkbook :=
  ofSheets (mapSheet workbook sheetIndex (deleteRowInSheet atRow))

def insertColumnInSheet (atCol : Rat) (sheet : SheetData) : SheetData := {sheet with
  rows := sheet.rows.map (spliceIn · atCol emptySheetCell)
  columnWidths := spliceDimension sheet.columnWidths atCol 80}

def insertColumn (workbook : SpreadsheetWorkbook) (sheetIndex atCol : Rat) : SpreadsheetWorkbook :=
  ofSheets (mapSheet workbook sheetIndex (insertColumnInSheet atCol))

def deleteColumnInSheet (atCol : Rat) (sheet : SheetData) : SheetData := {sheet with
  rows := sheet.rows.map (fun row => if row.length ≤ 1 then row else withoutIndex row atCol)
  columnWidths := sheet.columnWidths.map (withoutIndex · atCol)}

def deleteColumn (workbook : SpreadsheetWorkbook) (sheetIndex atCol : Rat) : SpreadsheetWorkbook :=
  ofSheets (mapSheet workbook sheetIndex (deleteColumnInSheet atCol))

def normalizeMergedRegion (region : MergedRegion) : MergedRegion :=
  ⟨min region.startRow region.endRow,min region.startCol region.endCol,
   max region.startRow region.endRow,max region.startCol region.endCol⟩

def upsertMergedRegion (regions : List MergedRegion) (next : MergedRegion) : List MergedRegion :=
  let normalized := normalizeMergedRegion next
  regions.filter (fun entry => !(entry.startRow = normalized.startRow && entry.startCol = normalized.startCol)) ++
    [normalized]

def removeMergesIntersecting (regions : Option (List MergedRegion)) (range : CellRange) : List MergedRegion :=
  (regions.getD []).filter (fun raw =>
    let region := normalizeMergedRegion raw
    decide (region.endRow < range.start.row ∨ range.stop.row < region.startRow ∨
      region.endCol < range.start.col ∨ range.stop.col < region.startCol))

def mergeInSheet (normalized : CellRange) (sheet : SheetData) : SheetData :=
  let topLeft := ((elementAt sheet.rows normalized.start.row).bind (elementAt · normalized.start.col)).getD emptySheetCell
  let nextRows := mapCells sheet.rows (fun rowIndex colIndex cell =>
    if ¬inside normalized rowIndex colIndex then cell
    else if (rowIndex : Rat) = normalized.start.row ∧ (colIndex : Rat) = normalized.start.col then
      {cell with display := topLeft.display}
    else {cell with value := .null,formula := none,display := []})
  {sheet with
    rows := nextRows
    mergedRegions := some (upsertMergedRegion (removeMergesIntersecting sheet.mergedRegions normalized)
      ⟨normalized.start.row,normalized.start.col,normalized.stop.row,normalized.stop.col⟩)}

def mergeCellsInRange (workbook : SpreadsheetWorkbook) (sheetIndex : Rat) (range : CellRange) : SpreadsheetWorkbook :=
  ofSheets (mapSheet workbook sheetIndex (mergeInSheet (normalizeRange range)))

def unmergeInSheet (normalized : CellRange) (sheet : SheetData) : SheetData :=
  {sheet with mergedRegions := some (removeMergesIntersecting sheet.mergedRegions normalized)}

def unmergeCellsInRange (workbook : SpreadsheetWorkbook) (sheetIndex : Rat) (range : CellRange) : SpreadsheetWorkbook :=
  ofSheets (mapSheet workbook sheetIndex (unmergeInSheet (normalizeRange range)))

def commentInSheet (row col : Nat) (comment : Option Text) (sheet : SheetData) : SheetData := {sheet with
  rows := mapCells (expandSheetToAddress sheet row col).rows (fun rowIndex colIndex cell =>
    if rowIndex ≠ row ∨ colIndex ≠ col then cell
    else
      let trimmed := trim (comment.getD [])
      {cell with comment := if trimmed = [] then none else some trimmed})}

def setCellComment (workbook : SpreadsheetWorkbook) (sheetIndex : Rat) (row col : Nat) (comment : Option Text) :
    SpreadsheetWorkbook := ofSheets (mapSheet workbook sheetIndex (commentInSheet row col comment))

-- `{...workbook, sheets}`
def withSheets (workbook : SpreadsheetWorkbook) (sheets : List SheetData) : SpreadsheetWorkbook :=
  {workbook with sheets := sheets}

def linkStyle (style : Option CellStyle) : CellStyle := fun key =>
  match key with
  | .textColor => some (.string (textOf "#2563EB"))
  | .underline => some (.bool true)
  | key => style.bind (fun style => style key)

def hyperlinkInSheet (row col : Nat) (url : Option Text) (sheet : SheetData) : SheetData := {sheet with
  rows := mapCells (expandSheetToAddress sheet row col).rows (fun rowIndex colIndex cell =>
    if rowIndex ≠ row ∨ colIndex ≠ col then cell
    else
      let trimmed := trim (url.getD [])
      if trimmed = [] then {cell with hyperlink := none}
      else {cell with hyperlink := some trimmed,style := some (linkStyle cell.style)})}

def setCellHyperlink (workbook : SpreadsheetWorkbook) (sheetIndex : Rat) (row col : Nat) (url : Option Text) :
    SpreadsheetWorkbook := withSheets workbook (mapSheet workbook sheetIndex (hyperlinkInSheet row col url))

def clearInSheet (normalized : CellRange) (sheet : SheetData) : SheetData := {sheet with
  rows := mapCells sheet.rows (fun rowIndex colIndex cell =>
    if ¬inside normalized rowIndex colIndex then cell else ⟨.null,none,[],cell.style,cell.comment,none,none⟩)}

-- With `keepStyle` and `keepComments`, as the collaborative op calls it.
def clearContentsInRange (workbook : SpreadsheetWorkbook) (sheetIndex : Rat) (range : CellRange) : SpreadsheetWorkbook :=
  withSheets workbook (mapSheet workbook sheetIndex (clearInSheet (normalizeRange range)))

-- JSON has no `undefined`, so a patch only ever sets keys.
def applyCellStylePatch (base : Option CellStyle) (patch : Value) : CellStyle := fun key =>
  (patch.get key.asStr).orElse (fun _ => base.bind (fun style => style key))

def styleText (style : Option CellStyle) (key : StyleKey) : Option Text :=
  (style.bind (fun style => style key)).bind Value.asStr

def displayOf (env : Env) (value : CellValue) (style : Option CellStyle) : Text :=
  env.formatCellDisplay value ((styleText style .numberFormat).getD (textOf "general")) (styleText style .customNumberFormat)

def applyStylePatchToCell (env : Env) (cell : SheetCell) (patch : Value) : SheetCell :=
  let style := applyCellStylePatch cell.style patch
  if truthy cell.formula then {cell with style := some style}
  else {cell with style := some style,display := displayOf env cell.value (some style)}

def isLetter (c : Char) : Bool := ('A' ≤ c && c ≤ 'Z') || ('a' ≤ c && c ≤ 'z')

def isDigit (c : Char) : Bool := '0' ≤ c && c ≤ '9'

def columnLettersToIndex (letters : Text) : Nat :=
  letters.foldl (fun col c => col * 26 + ((if 'a' ≤ c then c.toNat - 32 else c.toNat) - 64)) 0 - 1

def withoutDollar : Text → Text
  | '$' :: rest => rest
  | text => text

def parseCellAddressLabel (label : Text) : Option (Nat × Nat) :=
  let body := withoutDollar (trim label)
  let letters := body.takeWhile isLetter
  let rest := body.dropWhile isLetter
  let digits := withoutDollar rest
  if letters = [] then none
  else if rest = [] then some (0,columnLettersToIndex letters)
  else if digits ≠ [] ∧ digits.all isDigit then
    let row := digits.foldl (fun row c => row * 10 + (c.toNat - 48)) 0
    if row = 0 then none else some (row - 1,columnLettersToIndex letters)
  else none

def columnIndexToLetters (index : Nat) : Text :=
  let last := Char.ofNat (65 + index % 26)
  if index < 26 then [last] else columnIndexToLetters (index / 26 - 1) ++ [last]
termination_by index
decreasing_by omega

def recalculateWorkbook (env : Env) (now : Nat) (workbook : SpreadsheetWorkbook) : SpreadsheetWorkbook :=
  match workbook.sheets.zipIdx.mapM (fun entry =>
      env.recalculateSheet now entry.1 entry.2 workbook.sheets workbook.namedRanges) with
  | some sheets => withSheets workbook sheets
  | none => workbook

def appendTrackChange (workbook : SpreadsheetWorkbook) (entry : TrackChangeEntry) : SpreadsheetWorkbook :=
  if workbook.trackChangesEnabled = some true then
    {workbook with trackChanges := some (workbook.trackChanges.getD [] ++ [entry])}
  else workbook

def valueText (env : Env) : CellValue → Text
  | .null => []
  | .text text => text
  | .number n => env.numberText n

-- The formula, or the value, that the entry of a tracked change calls `before`.
def formulaBefore (env : Env) (workbook : SpreadsheetWorkbook) (sheetIndex row col : Nat) : Text :=
  match ((workbook.sheets[sheetIndex]?.bind (fun sheet => sheet.rows[row]?)).bind (fun cells => cells[col]?)) with
  | some cell => cell.formula.getD (valueText env cell.value)
  | none => []

def editedCell (env : Env) (input : Text) (cell : SheetCell) : SheetCell :=
  let trimmed := trim input
  if trimmed.head? = some '=' then
    {cell with formula := some trimmed,value := .text trimmed,display := trimmed,spillFrom := none}
  else
    let numeric := env.number (trimmed.filter (fun c => !(c = '$' || c = ',' || c = '%' || isSpace c)))
    let value := if trimmed = [] then .null else match numeric with
      | some n => .number n
      | none => .text trimmed
    {cell with formula := none,value := value,display := displayOf env value cell.style,spillFrom := none}

def applyFormulaBarEdit (env : Env) (now : Nat) (workbook : SpreadsheetWorkbook) (sheetIndex row col : Nat) (input : Text) :
    SpreadsheetWorkbook :=
  let before := formulaBefore env workbook sheetIndex row col
  let nextSheets := mapSheet workbook sheetIndex (fun sheet =>
    let expanded := expandSheetToAddress sheet row col
    {expanded with rows := mapCells expanded.rows (fun rowIndex colIndex cell =>
      if rowIndex = row ∧ colIndex = col then editedCell env input cell else cell)})
  let next := recalculateWorkbook env now (withSheets workbook nextSheets)
  if workbook.trackChangesEnabled = some true then
    let after := trim input
    if before ≠ after then
      appendTrackChange next
        {id := textOf ("tc-" ++ toString (env.dateNow now) ++ "-" ++ toString row ++ "-" ++ toString col)
         timestamp := env.isoTime now
         author := textOf "You"
         sheetName := (workbook.sheets[sheetIndex]?.map SheetData.name).getD (textOf "Sheet")
         cell := columnIndexToLetters col ++ textOf (toString (row + 1))
         before := before
         after := after}
    else next
  else next

end Ownly.Sheets
