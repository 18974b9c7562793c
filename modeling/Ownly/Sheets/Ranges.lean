import Ownly.Sheets.CollabOps

-- frontend/src/lib/spreadsheet/fill-handle.ts and the paste of clipboard.ts. What comes from
-- the grid are whole rows and columns; sums of numbers are exact, where doubles may round.
namespace Ownly.Sheets
open Collab (Text Value)

structure GridCell where
  row : Nat
  col : Nat
  deriving DecidableEq, Repr

structure GridRange where
  start : GridCell
  stop : GridCell
  deriving DecidableEq, Repr

def GridRange.normalize (range : GridRange) : GridRange :=
  ⟨⟨min range.start.row range.stop.row,min range.start.col range.stop.col⟩,
   ⟨max range.start.row range.stop.row,max range.start.col range.stop.col⟩⟩

def GridRange.holds (range : GridRange) (rowIndex colIndex : Nat) : Bool :=
  decide (range.start.row ≤ rowIndex ∧ rowIndex ≤ range.stop.row ∧ range.start.col ≤ colIndex ∧ colIndex ≤ range.stop.col)

def cellAt (rows : List (List SheetCell)) (row col : Nat) : SheetCell :=
  ((rows[row]?).bind (fun cells => cells[col]?)).getD emptySheetCell

def numberOfCell (cell : SheetCell) : Option Rat :=
  match cell.value with
  | .number n => some n
  | _ => none

-- The one difference between neighbours, of two values or more.
def cellNumericStep (values : List Rat) : Option Rat :=
  match values.zipWith (fun prev next => next - prev) values.tail with
  | [] => none
  | step :: rest => if rest.all (fun other => decide (other = step)) then some step else none

-- `%` and `Math.floor` of an offset that may be negative.
def fillValueForOffset (env : Env) (sourceCells : List SheetCell) (offset : Int) (axisLength : Nat) : SheetCell :=
  match sourceCells.getLast? with
  | none => emptySheetCell
  | some lastCell =>
    let index := offset.tmod axisLength
    let base := if 0 ≤ index then sourceCells[index.toNat]?.getD lastCell else lastCell
    match cellNumericStep (sourceCells.filterMap numberOfCell),numberOfCell base with
    | some step,some n =>
      let cycles := offset.fdiv axisLength
      let value : CellValue := .number (n + step * ((cycles * axisLength + index : Int) : Rat))
      {base with
        formula := none
        value := value
        display := env.formatCellDisplay value ((styleText base.style .numberFormat).getD (textOf "general")) none}
    | _,_ => base

def fillInSheet (env : Env) (source bounds : GridRange) (sheet : SheetData) : SheetData :=
  let sourceRows := source.stop.row - source.start.row + 1
  let sourceCols := source.stop.col - source.start.col + 1
  let expanded := expandSheetToAddress sheet bounds.stop.row bounds.stop.col
  {expanded with rows := mapCells expanded.rows (fun rowIndex colIndex cell =>
    if source.holds rowIndex colIndex then cell
    else if ¬bounds.holds rowIndex colIndex then cell
    else if source.stop.row < bounds.stop.row ∧ source.start.col ≤ colIndex ∧ colIndex ≤ source.stop.col then
      fillValueForOffset env ((List.range sourceRows).map (fun offset => cellAt expanded.rows (source.start.row + offset) colIndex))
        ((rowIndex : Int) - source.start.row) sourceRows
    else if source.stop.col < bounds.stop.col ∧ source.start.row ≤ rowIndex ∧ rowIndex ≤ source.stop.row then
      fillValueForOffset env ((List.range sourceCols).map (fun offset => cellAt expanded.rows rowIndex (source.start.col + offset)))
        ((colIndex : Int) - source.start.col) sourceCols
    else cell)}

def fillRangeInWorkbook (env : Env) (workbook : SpreadsheetWorkbook) (sheetIndex : Nat) (sourceRange targetRange : GridRange) :
    SpreadsheetWorkbook :=
  let source := sourceRange.normalize
  let target := targetRange.normalize
  let bounds : GridRange :=
    ⟨⟨min source.start.row target.start.row,min source.start.col target.start.col⟩,
     ⟨max source.stop.row target.stop.row,max source.stop.col target.stop.col⟩⟩
  ofSheets (mapSheet workbook sheetIndex (fillInSheet env source bounds))

structure ClipboardPayload where
  cells : List (List SheetCell)
  rows : Nat
  cols : Nat

inductive PasteMode where
  | all | values | formats | formulas
  deriving DecidableEq, Repr

def transposeClipboardPayload (payload : ClipboardPayload) : ClipboardPayload :=
  ⟨(List.range payload.cols).map (fun col => (List.range payload.rows).map (fun row => cellAt payload.cells row col)),
    payload.cols,payload.rows⟩

def pastedCell (env : Env) (mode : PasteMode) (source cell : SheetCell) : SheetCell :=
  match mode with
  | .values => {cell with formula := none,value := source.value,display := displayOf env source.value cell.style}
  | .formats => {cell with style := source.style}
  | .formulas =>
    if truthy source.formula then {cell with formula := source.formula,value := source.value,display := source.display}
    else {cell with formula := none,value := source.value,display := displayOf env source.value cell.style}
  | .all => source

-- none where a row of the payload is too short and the paste throws.
def pasteInSheet (env : Env) (target : GridCell) (payload : ClipboardPayload) (mode : PasteMode) (sheet : SheetData) :
    Option SheetData :=
  let expanded := expandSheetToAddress sheet (target.row + payload.rows - 1) (target.col + payload.cols - 1)
  let pasted := expanded.rows.zipIdx.mapM (fun (row,rowIndex) => row.zipIdx.mapM (fun (cell,colIndex) =>
    if target.row ≤ rowIndex ∧ rowIndex < target.row + payload.rows ∧ target.col ≤ colIndex ∧ colIndex < target.col + payload.cols then
      ((payload.cells[rowIndex - target.row]?).bind (fun cells => cells[colIndex - target.col]?)).map (pastedCell env mode · cell)
    else some cell))
  pasted.map (fun rows => {expanded with rows := rows})

def pasteRangeIntoWorkbook (env : Env) (workbook : SpreadsheetWorkbook) (sheetIndex : Nat) (target : GridCell)
    (payload : ClipboardPayload) (mode : PasteMode) (transpose : Bool) : Option SpreadsheetWorkbook :=
  let effective := if transpose then transposeClipboardPayload payload else payload
  (workbook.sheets.zipIdx.mapM (fun (sheet,index) =>
    if index = sheetIndex then pasteInSheet env target effective mode sheet else some sheet)).map ofSheets

inductive WorkbookCall where
  | op (edit : Edit)
  | fill (sheetIndex : Nat) (sourceRange targetRange : GridRange)
  | paste (sheetIndex : Nat) (target : GridCell) (payload : ClipboardPayload) (mode : PasteMode) (transpose : Bool)

namespace WorkbookCall
variable (env : Env) (now : Nat) (workbook : SpreadsheetWorkbook)

def apply : WorkbookCall → Option SpreadsheetWorkbook
  | .op edit => some (applyCollabOpToWorkbook env now workbook edit)
  | .fill sheetIndex sourceRange targetRange => some (fillRangeInWorkbook env workbook sheetIndex sourceRange targetRange)
  | .paste sheetIndex target payload mode transpose => pasteRangeIntoWorkbook env workbook sheetIndex target payload mode transpose

-- The calls that end in `{ sheets }`.
def rebuilds : WorkbookCall → Bool
  | .op edit =>
    let payload := edit.payload
    match edit.opType with
    | .comment => (sheetOf env workbook payload).isSome && (cellOf payload).isSome
    | .merge | .unmerge => (sheetOf env workbook payload).isSome && (asRange payload).isSome
    | .insertRow | .deleteRow | .insertColumn | .deleteColumn =>
      (sheetOf env workbook payload).isSome && (asNumber (payload.get "at")).isSome
    | .sheetAdd => true
    | .sheetRemove => (asNumber (payload.get "index")).isSome && decide (1 < workbook.sheets.length)
    | .sheetRename => match asNumber (payload.get "index"),nonEmpty (asString (payload.get "name")) with
      | some _,some name => decide (trim name ≠ [])
      | _,_ => false
    | .sheetMove => match asNumber (payload.get "fromIndex"),asNumber (payload.get "toIndex") with
      | some fromIndex,some toIndex =>
        decide (fromIndex ≠ toIndex) && (workbook.sheets[spliceStart fromIndex workbook.sheets.length]?).isSome
      | _,_ => false
    | _ => false
  | .fill .. | .paste .. => true

def tracked : WorkbookCall → Option (Text × Text)
  | .op ⟨.cellEdit,payload⟩ => match sheetOf env workbook payload,cellOf payload with
    | some sheetIndex,some (row,col) =>
      let before := formulaBefore env workbook sheetIndex row col
      let after := trim (inputOf env payload)
      if workbook.trackChangesEnabled = some true ∧ before ≠ after then some (before,after) else none
    | _,_ => none
  | _ => none

end WorkbookCall

-- The data of a workbook beside its sheets, where the bytes it came with are among the others.
structure DataKept (tracked : Option (Text × Text)) (workbook after : SpreadsheetWorkbook) : Prop where
  namedRanges : after.namedRanges = workbook.namedRanges
  trackChangesEnabled : after.trackChangesEnabled = workbook.trackChangesEnabled
  others : after.others = workbook.others
  trackChanges : match tracked with
    | none => after.trackChanges = workbook.trackChanges
    | some (before,text) => ∃ entry : TrackChangeEntry, entry.before = before ∧ entry.after = text ∧
      after.trackChanges = some (workbook.trackChanges.getD [] ++ [entry])

section
variable {env : Env} {now : Nat} {workbook after : SpreadsheetWorkbook} {edit : Edit} {call : WorkbookCall}

theorem DataKept.refl : DataKept none workbook workbook := ⟨rfl,rfl,rfl,rfl⟩

theorem kept_withSheets (sheets : List SheetData) : DataKept none workbook (withSheets workbook sheets) := ⟨rfl,rfl,rfl,rfl⟩

theorem kept_recalculated (sheets : List SheetData) :
    DataKept none workbook (recalculateWorkbook env now (withSheets workbook sheets)) := by
  unfold recalculateWorkbook
  split <;> exact ⟨rfl,rfl,rfl,rfl⟩

theorem kept_formulaBar (sheetIndex row col : Nat) (input : Text) :
    DataKept (let before := formulaBefore env workbook sheetIndex row col
      let text := trim input
      if workbook.trackChangesEnabled = some true ∧ before ≠ text then some (before,text) else none)
      workbook (applyFormulaBarEdit env now workbook sheetIndex row col input) := by
  unfold applyFormulaBarEdit
  extract_lets before text sheets next
  have kept : DataKept none workbook next := kept_recalculated sheets
  by_cases enabled : workbook.trackChangesEnabled = some true
  · by_cases changed : before = text
    · simpa [enabled,changed] using kept
    · have still : next.trackChangesEnabled = some true := kept.trackChangesEnabled.trans enabled
      simp only [enabled,changed,ne_eq,not_false_eq_true,and_self,if_true,appendTrackChange,still]
      have log : next.trackChanges = workbook.trackChanges := kept.trackChanges
      refine ⟨kept.namedRanges,enabled.symm,kept.others,_,?_,?_,congrArg (fun log => some (Option.getD log [] ++ _)) log⟩
      · rfl
      · rfl
  · simpa [enabled] using kept

theorem kept_ofSheets (bare : workbook = ofSheets workbook.sheets) (sheets : List SheetData) :
    DataKept none workbook (ofSheets sheets) := by
  rw [bare]
  exact ⟨rfl,rfl,rfl,rfl⟩

section
variable {α : Type} {payload : Value} {parsed : Option α}

theorem kept_onSheet {act : Nat → α → SpreadsheetWorkbook} (each : ∀ sheetIndex x, DataKept none workbook (act sheetIndex x)) :
    DataKept none workbook (onSheet env workbook payload parsed act) := by
  unfold onSheet
  cases sheetOf env workbook payload with
  | none => exact .refl
  | some sheetIndex =>
    cases parsed with
    | none => exact .refl
    | some x => exact each sheetIndex x

theorem kept_rebuilt {act : Nat → α → List SheetData}
    (spared : ((sheetOf env workbook payload).isSome && parsed.isSome) = true → workbook = ofSheets workbook.sheets) :
    DataKept none workbook (onSheet env workbook payload parsed (fun sheetIndex x => ofSheets (act sheetIndex x))) := by
  unfold onSheet
  cases found : sheetOf env workbook payload with
  | none => exact .refl
  | some sheetIndex =>
    cases parsed with
    | none => exact .refl
    | some x => exact kept_ofSheets (spared (by simp [found])) _

end

theorem kept_op (spared : (WorkbookCall.op edit).rebuilds env workbook = true → workbook = ofSheets workbook.sheets) :
    DataKept ((WorkbookCall.op edit).tracked env workbook) workbook (applyCollabOpToWorkbook env now workbook edit) := by
  obtain ⟨opType,payload⟩ := edit
  cases opType with
  | cellEdit =>
    simp only [applyCollabOpToWorkbook,onSheet,WorkbookCall.tracked]
    cases sheetOf env workbook payload with
    | none => exact .refl
    | some sheetIndex =>
      cases cellOf payload with
      | none => exact .refl
      | some cell => exact kept_formulaBar sheetIndex cell.1 cell.2 (inputOf env payload)
  | stylePatch => exact kept_onSheet (fun _ _ => kept_withSheets _)
  | clearContents => exact kept_onSheet (fun _ _ => kept_withSheets _)
  | hyperlink => exact kept_onSheet (fun _ _ => kept_withSheets _)
  | comment => exact kept_rebuilt spared
  | merge => exact kept_rebuilt spared
  | unmerge => exact kept_rebuilt spared
  | insertRow => exact kept_rebuilt spared
  | deleteRow => exact kept_rebuilt spared
  | insertColumn => exact kept_rebuilt spared
  | deleteColumn => exact kept_rebuilt spared
  | sheetAdd => exact kept_ofSheets (spared rfl) _
  | sheetRemove =>
    simp only [applyCollabOpToWorkbook,removeSheet,WorkbookCall.tracked]
    simp only [WorkbookCall.rebuilds] at spared
    cases index : asNumber (payload.get "index") with
    | none => exact .refl
    | some index =>
      dsimp only
      split
      · exact .refl
      case isFalse several => exact kept_ofSheets (spared (by simp [*]; omega)) _
  | sheetRename =>
    simp only [applyCollabOpToWorkbook,renameSheet,WorkbookCall.tracked]
    simp only [WorkbookCall.rebuilds] at spared
    cases given : asNumber (payload.get "index") with
    | none => exact .refl
    | some index =>
      cases called : nonEmpty (asString (payload.get "name")) with
      | none => exact .refl
      | some name =>
        dsimp only at spared ⊢
        split
        · exact .refl
        case isFalse named => exact kept_ofSheets (spared (by simpa [given,called] using named)) _
  | sheetMove =>
    simp only [applyCollabOpToWorkbook,moveSheet,WorkbookCall.tracked]
    simp only [WorkbookCall.rebuilds] at spared
    cases source : asNumber (payload.get "fromIndex") with
    | none => exact .refl
    | some fromIndex =>
      cases target : asNumber (payload.get "toIndex") with
      | none => exact .refl
      | some toIndex =>
        dsimp only at spared ⊢
        split
        · exact .refl
        case isFalse apart =>
          cases found : workbook.sheets[spliceStart fromIndex workbook.sheets.length]? with
          | none => exact .refl
          | some sheet => exact kept_ofSheets (spared (by simp [source,target,apart,found])) _
  | _ => exact .refl

end

-- Beside the calls that rebuild a workbook from its sheets alone, an edit that is tracked is
-- the only one that touches anything else, and adds its entry.
theorem data_kept (env : Env) (now : Nat) (workbook after : SpreadsheetWorkbook) (call : WorkbookCall)
    (spared : call.rebuilds env workbook = true → workbook = ofSheets workbook.sheets)
    (applied : call.apply env now workbook = some after) : DataKept (call.tracked env workbook) workbook after := by
  cases call with
  | op edit =>
    obtain rfl := Option.some.inj applied
    exact kept_op spared
  | fill sheetIndex sourceRange targetRange =>
    obtain rfl := Option.some.inj applied
    exact kept_ofSheets (spared rfl) _
  | paste sheetIndex target payload mode transpose =>
    obtain ⟨sheets,-,rfl⟩ := Option.map_eq_some_iff.mp applied
    exact kept_ofSheets (spared rfl) sheets

def trackedPlan : SpreadsheetWorkbook := {ofSheets [⟨textOf "plan",[],none,none,none,[]⟩] with trackChangesEnabled := some true}

def letterEdit : Edit :=
  ⟨.cellEdit,.object [("sheet",.string (textOf "plan")),("cell",.string (textOf "A1")),("value",.string (textOf "x"))]⟩

theorem data_kept_letter : DataKept ((WorkbookCall.op letterEdit).tracked plainEnv trackedPlan) trackedPlan
    (applyCollabOpToWorkbook plainEnv 0 trackedPlan letterEdit) :=
  data_kept plainEnv 0 trackedPlan _ (.op letterEdit) (fun rebuilt => by cases rebuilt) rfl

theorem data_changed :
    (applyCollabOpToWorkbook plainEnv 0 trackedPlan letterEdit).trackChanges ≠ trackedPlan.trackChanges ∧
    (applyCollabOpToWorkbook plainEnv 0 {ofSheets [] with namedRanges := some (.array [])} ⟨.sheetAdd,.object []⟩).namedRanges ≠
      some (.array []) := by
  refine ⟨fun same => ?_,fun same => by cases same⟩
  have noted : (WorkbookCall.op letterEdit).tracked plainEnv trackedPlan = some ([],textOf "x") := by decide +kernel
  have kept : DataKept ((WorkbookCall.op letterEdit).tracked plainEnv trackedPlan) trackedPlan
      (applyCollabOpToWorkbook plainEnv 0 trackedPlan letterEdit) := kept_op (fun rebuilt => by cases rebuilt)
  have log := kept.trackChanges
  rw [noted] at log
  obtain ⟨entry,-,-,log⟩ := log
  rw [log] at same
  cases same

end Ownly.Sheets
