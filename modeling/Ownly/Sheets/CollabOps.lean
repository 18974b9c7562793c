import Ownly.Sheets.WorkbookOps

-- frontend/src/lib/spreadsheet/collab-ops.ts
namespace Ownly.Sheets
open Collab (Text Value OpType OpEnvelope)

structure Edit where
  opType : OpType
  payload : Value

def editOf (op : OpEnvelope) : Edit := ⟨op.opType,op.payload⟩

def sheetIndexByName (env : Env) (workbook : SpreadsheetWorkbook) (sheetName : Text) : Option Nat :=
  workbook.sheets.findIdx? (fun sheet => decide (env.toLowerCase sheet.name = env.toLowerCase sheetName))

def asString (value : Option Value) : Option Text := value.bind Value.asStr

-- Every number of a payload is finite.
def asNumber (value : Option Value) : Option Rat := value.bind readNumber

def asRange (payload : Value) : Option CellRange :=
  match asNumber (payload.get "startRow"),asNumber (payload.get "startCol") with
  | some startRow,some startCol =>
    some ⟨⟨startRow,startCol⟩,
      ⟨(asNumber (payload.get "endRow")).getD startRow,(asNumber (payload.get "endCol")).getD startCol⟩⟩
  | _,_ => none

def nonEmpty : Option Text → Option Text
  | some (c :: text) => some (c :: text)
  | _ => none

def sheetOf (env : Env) (workbook : SpreadsheetWorkbook) (payload : Value) : Option Nat :=
  (nonEmpty (asString (payload.get "sheet"))).bind (sheetIndexByName env workbook)

def cellOf (payload : Value) : Option (Nat × Nat) :=
  (nonEmpty (asString (payload.get "cell"))).bind (fun cell => parseCellAddressLabel (cell.filter (fun c => c ≠ '$')))

def inputOf (env : Env) (payload : Value) : Text :=
  match payload.get "value" with
  | some (.string text) => text
  | some .null | none => []
  | some value => env.text value

def stylePatchInSheet (env : Env) (range : CellRange) (patch : Value) (sheet : SheetData) : SheetData := {sheet with
  rows := mapCells sheet.rows (fun rowIndex colIndex cell =>
    if ¬inside range rowIndex colIndex then cell else applyStylePatchToCell env cell patch)}

def stylePatch (env : Env) (workbook : SpreadsheetWorkbook) (sheetIndex : Rat) (range : CellRange) (patch : Value) :
    SpreadsheetWorkbook := withSheets workbook (mapSheet workbook sheetIndex (stylePatchInSheet env range patch))

def asPatch (payload : Value) : Option (CellRange × Value) :=
  match asRange payload,payload.get "patch" with
  | some range,some patch => if isObject patch then some (range,patch) else none
  | _,_ => none

-- The ops on one sheet: without the sheet, or what else they need, nothing happens.
def onSheet {α : Type} (env : Env) (workbook : SpreadsheetWorkbook) (payload : Value) (parsed : Option α)
    (act : Nat → α → SpreadsheetWorkbook) : SpreadsheetWorkbook :=
  match sheetOf env workbook payload,parsed with
  | some sheetIndex,some x => act sheetIndex x
  | _,_ => workbook

-- The dialog passes no `skipUserId`.
def applyCollabOpToWorkbook (env : Env) (now : Nat) (workbook : SpreadsheetWorkbook) (op : Edit) : SpreadsheetWorkbook :=
  let payload := op.payload
  match op.opType with
  | .cellEdit => onSheet env workbook payload (cellOf payload)
    (fun sheetIndex (row,col) => applyFormulaBarEdit env now workbook sheetIndex row col (inputOf env payload))
  | .stylePatch => onSheet env workbook payload (asPatch payload)
    (fun sheetIndex (range,patch) => stylePatch env workbook sheetIndex range patch)
  | .clearContents => onSheet env workbook payload (asRange payload)
    (fun sheetIndex range => clearContentsInRange workbook sheetIndex range)
  | .comment => onSheet env workbook payload (cellOf payload)
    (fun sheetIndex (row,col) => setCellComment workbook sheetIndex row col (asString (payload.get "comment")))
  | .hyperlink => onSheet env workbook payload (cellOf payload)
    (fun sheetIndex (row,col) => setCellHyperlink workbook sheetIndex row col (asString (payload.get "url")))
  | .merge => onSheet env workbook payload (asRange payload)
    (fun sheetIndex range => mergeCellsInRange workbook sheetIndex range)
  | .unmerge => onSheet env workbook payload (asRange payload)
    (fun sheetIndex range => unmergeCellsInRange workbook sheetIndex range)
  | .insertRow => onSheet env workbook payload (asNumber (payload.get "at"))
    (fun sheetIndex position => insertRow workbook sheetIndex position)
  | .deleteRow => onSheet env workbook payload (asNumber (payload.get "at"))
    (fun sheetIndex position => deleteRow workbook sheetIndex position)
  | .insertColumn => onSheet env workbook payload (asNumber (payload.get "at"))
    (fun sheetIndex position => insertColumn workbook sheetIndex position)
  | .deleteColumn => onSheet env workbook payload (asNumber (payload.get "at"))
    (fun sheetIndex position => deleteColumn workbook sheetIndex position)
  | .sheetAdd => addSheet workbook (asString (payload.get "name"))
  | .sheetRemove => match asNumber (payload.get "index") with
    | some index => removeSheet workbook index
    | none => workbook
  | .sheetRename => match asNumber (payload.get "index"),nonEmpty (asString (payload.get "name")) with
    | some index,some name => renameSheet workbook index name
    | _,_ => workbook
  | .sheetMove => match asNumber (payload.get "fromIndex"),asNumber (payload.get "toIndex") with
    | some fromIndex,some toIndex => moveSheet workbook fromIndex toIndex
    | _,_ => workbook
  | _ => workbook

def applyCollabOpsToWorkbook (env : Env) (now : Nat) (workbook : SpreadsheetWorkbook) (ops : List OpEnvelope) :
    SpreadsheetWorkbook :=
  let ordered := ops.mergeSort (fun a b => decide (a.seq ≤ b.seq))
  ordered.foldl (fun next op => applyCollabOpToWorkbook env now next (editOf op)) workbook

@[simp] theorem applyCollabOpsToWorkbook_single (env : Env) (now : Nat) (workbook : SpreadsheetWorkbook) (op : OpEnvelope) :
    applyCollabOpsToWorkbook env now workbook [op] = applyCollabOpToWorkbook env now workbook (editOf op) := by
  simp [applyCollabOpsToWorkbook]

end Ownly.Sheets
