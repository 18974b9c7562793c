import Ownly.Sheets.WorkbookOps
import Ownly.Lib.Layers

-- How recalculateSheet of formulas.ts writes what its formulas give into a sheet: the clearing
-- of old spills, the pass over the formula cells, and the spills one after another.
namespace Ownly.Sheets.Spill
open Collab (Text Value)

-- FormulaArrayValue; a formula without an array gives one of these as well, errors as texts.
inductive Scalar where
  | null
  | text (text : Text)
  | number (number : Rat)
  | bool (b : Bool)
  deriving DecidableEq, Repr

structure EvalArray where
  values : List Scalar
  spillRows : Nat
  spillCols : Nat

inductive FormulaEvalResult where
  | scalar (value : Scalar)
  | array (result : EvalArray)

-- What the pass evaluates a formula cell to, at its position in the cleared sheet.
abbrev Evaluated := SheetData → Nat → Nat → FormulaEvalResult

def evalArrayFirstValue (result : EvalArray) : Scalar := (result.values[0]?).getD .null

def toScalar : FormulaEvalResult → Scalar
  | .scalar value => value
  | .array result => evalArrayFirstValue result

-- What a cell keeps of a value: a truth value as a number.
def Scalar.stored : Scalar → CellValue
  | .null => .null
  | .text t => .text t
  | .number n => .number n
  | .bool b => .number (if b then 1 else 0)

def displayFromEvaluated (env : Env) (value : Scalar) (numberFormat customNumberFormat : Option Text) : Text :=
  match value with
  | .text ('#' :: text) => '#' :: text
  | .bool b => if b then textOf "TRUE" else textOf "FALSE"
  | value => env.formatCellDisplay value.stored (numberFormat.getD (textOf "general")) customNumberFormat

def spillOriginKey (row col : Nat) : Text := Nat.toDigits 10 row ++ ':' :: Nat.toDigits 10 col

def hasValue (value : CellValue) : Bool := decide (value ≠ .null ∧ value ≠ .text [])

def cellIsEmptyForSpill : Option SheetCell → Bool
  | none => true
  | some cell =>
    if truthy cell.formula then false
    else if truthy cell.spillFrom then true
    else !hasValue cell.value

def clearCell (cell : SheetCell) : SheetCell :=
  if !truthy cell.spillFrom || truthy cell.formula then cell
  else {cell with value := .null,display := [],spillFrom := none}

def clearSpillTargets (sheet : SheetData) : SheetData := {sheet with rows := sheet.rows.map (·.map clearCell)}

abbrev Rows := List (List SheetCell)

def cellAt (rows : Rows) (p : Nat × Nat) : Option SheetCell := rows[p.1]?.bind (·[p.2]?)

def setCell (rows : Rows) (p : Nat × Nat) (change : SheetCell → SheetCell) : Rows :=
  rows.modify p.1 (·.modify p.2 change)

def growRows (rows : Rows) (neededRows neededCols : Nat) : Rows :=
  (rows ++ List.replicate (neededRows - rows.length) []).map
    (fun (row : List SheetCell) => row ++ List.replicate (neededCols - row.length) emptySheetCell)

structure SpillCell where
  row : Nat
  col : Nat
  result : EvalArray

namespace SpillCell

def origin (spill : SpillCell) : Nat × Nat := (spill.row,spill.col)

def key (spill : SpillCell) : Text := spillOriginKey spill.row spill.col

-- The two loops over the rectangle, without the origin.
def targets (spill : SpillCell) : List (Nat × Nat) :=
  ((List.range spill.result.spillRows).flatMap (fun spillRow => (List.range spill.result.spillCols).map
    (fun spillCol => (spill.row + spillRow,spill.col + spillCol)))).filter (fun p => decide (p ≠ spill.origin))

def valueAt (spill : SpillCell) (p : Nat × Nat) : Scalar :=
  (spill.result.values[(p.1 - spill.row) * spill.result.spillCols + (p.2 - spill.col)]?).getD .null

end SpillCell

def blocks (key : Text) (existing : Option SheetCell) : Bool :=
  (match existing with
  | some cell => truthy cell.formula
  | none => false) ||
    !cellIsEmptyForSpill existing && decide (existing.bind SheetCell.spillFrom ≠ some key)

def spillError : Text := textOf "#SPILL!"

def refuse (cell : SheetCell) : SheetCell := {cell with value := .text spillError,display := spillError}

def spilled (env : Env) (spill : SpillCell) (p : Nat × Nat) (existing : SheetCell) : SheetCell := {existing with
  value := (spill.valueAt p).stored
  display := displayFromEvaluated env (spill.valueAt p) none none
  formula := none
  spillFrom := some spill.key}

def applySpillResult (env : Env) (sheet : SheetData) (spill : SpillCell) : SheetData :=
  let rows := growRows sheet.rows (spill.row + spill.result.spillRows) (spill.col + spill.result.spillCols)
  if spill.targets.any (fun p => blocks spill.key (cellAt rows p)) then
    {sheet with rows := setCell rows spill.origin refuse}
  else {sheet with rows := spill.targets.foldl (fun rows p => setCell rows p (spilled env spill p)) rows}

def evaluateCell (env : Env) (evaluated : Evaluated) (cleared : SheetData) (row col : Nat) (cell : SheetCell) : SheetCell :=
  if !truthy cell.formula then cell
  else
    let scalar := toScalar (evaluated cleared row col)
    {cell with
      value := scalar.stored
      display := displayFromEvaluated env scalar (styleText cell.style .numberFormat) (styleText cell.style .customNumberFormat)
      spillFrom := none}

def spillOf (evaluated : Evaluated) (cleared : SheetData) (row col : Nat) (cell : SheetCell) : Option SpillCell :=
  if !truthy cell.formula then none
  else match evaluated cleared row col with
    | .array result => some ⟨row,col,result⟩
    | .scalar _ => none

def evaluatePass (env : Env) (evaluated : Evaluated) (cleared : SheetData) : SheetData := {cleared with
  rows := cleared.rows.mapIdx (fun row cells => cells.mapIdx (evaluateCell env evaluated cleared row))}

def spillsOf (evaluated : Evaluated) (cleared : SheetData) : List SpillCell :=
  (cleared.rows.mapIdx (fun row cells => (cells.mapIdx (spillOf evaluated cleared row)).reduceOption)).flatten

def recalculateSheet (env : Env) (evaluated : Evaluated) (sheet : SheetData) : SheetData :=
  let cleared := clearSpillTargets sheet
  (spillsOf evaluated cleared).foldl (applySpillResult env) (evaluatePass env evaluated cleared)

end Ownly.Sheets.Spill
