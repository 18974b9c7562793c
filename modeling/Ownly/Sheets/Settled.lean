import Ownly.Sheets.Recalculation
import Ownly.Sheets.SpillsAgain

-- Whether the values that a recalculation leaves in a sheet are those that its formulas have
-- over them, and whether a second recalculation changes anything.
namespace Ownly.Sheets.Formula
open Collab (Text)
open Spill (Scalar FormulaEvalResult SpillCell toScalar clearSpillTargets cellOr ownFormula spillsOf obstructed)
open List Option

section statement
variable (engine : Engine) (sheets : List SheetData) (sheetIndex : Nat) (sheet : SheetData)

def passResults : Position → FormulaEvalResult :=
  engine.results (clearedSheets sheets sheetIndex sheet) (passOrder sheetIndex sheet)

def passSpills : List SpillCell := spillsOf (engine.evaluated sheets sheetIndex) (clearSpillTargets sheet)

def recalculated : SheetData := engine.recalculateSheet sheets sheetIndex sheet

-- What a formula reads during the pass, the same as the sheet keeps it (a truth value as a
-- number), and what it reads in the end; another sheet keeps what its formulas have given.
def valueRead (q : Position) : Scalar :=
  (engine.system (clearedSheets sheets sheetIndex sheet)).known (passResults engine sheets sheetIndex sheet) q

def valueKept (q : Position) : Scalar :=
  if q.sheetIndex = sheetIndex then scalarOf (valueRead engine sheets sheetIndex sheet q).stored
  else valueRead engine sheets sheetIndex sheet q

def valueAfter (q : Position) : Scalar :=
  if q.sheetIndex = sheetIndex then scalarOf (cellOr (recalculated engine sheets sheetIndex sheet).rows (q.row,q.col)).value
  else valueRead engine sheets sheetIndex sheet q

-- What a formula cell keeps of a result in a sheet: an array without room is #SPILL!.
def placed (rows : Spill.Rows) (p : Position) : FormulaEvalResult → CellValue
  | .scalar value => value.stored
  | .array result =>
    if (SpillCell.mk p.row p.col result).targets.any (fun q => Spill.blocks (Spill.spillOriginKey p.row p.col) (Spill.cellAt rows q)) then
      .text Spill.spillError
    else (Spill.evalArrayFirstValue result).stored

structure Settled : Prop where
  values : ∀ p ∈ passOrder sheetIndex sheet, ∃ cell formula,
    Spill.cellAt (recalculated engine sheets sheetIndex sheet).rows (p.row,p.col) = some cell ∧ cell.formula = some formula ∧
      cell.value = placed (recalculated engine sheets sheetIndex sheet).rows p
        ((engine.evaluateFormula (sheets.set sheetIndex (recalculated engine sheets sheetIndex sheet)) p formula).run
          (valueAfter engine sheets sheetIndex sheet))
  again : recalculated engine (sheets.set sheetIndex (recalculated engine sheets sheetIndex sheet)) sheetIndex
    (recalculated engine sheets sheetIndex sheet) = recalculated engine sheets sheetIndex sheet

def Evaluates (p : Position) (tree : Reading FormulaEvalResult) : Prop :=
  (engine.system (clearedSheets sheets sheetIndex sheet)).Reached (passOrder sheetIndex sheet) (passResults engine sheets sheetIndex sheet) p ∧
    (engine.system (clearedSheets sheets sheetIndex sheet)).program p = some tree

def Reads (q : Position) : Prop := q.sheetIndex = sheetIndex ∧ ∃ p tree, Evaluates engine sheets sheetIndex sheet p tree ∧
  (q ∈ Memo.asked (valueRead engine sheets sheetIndex sheet) tree ∨ q ∈ Memo.asked (valueKept engine sheets sheetIndex sheet) tree)

-- No formula reads a cell that an array spills into, or the cell of an array without room; none
-- tells a truth value from its number; what functions see of the sheets besides the values stays
-- the same; and no spill adds rows that are too short for another one.
structure Undisturbed : Prop where
  targets : ∀ q, Reads engine sheets sheetIndex sheet q → ∀ spill ∈ passSpills engine sheets sheetIndex sheet,
    (q.row,q.col) ∈ spill.targets → obstructed (clearSpillTargets sheet).rows spill = true
  origins : ∀ q, Reads engine sheets sheetIndex sheet q → ∀ spill ∈ passSpills engine sheets sheetIndex sheet,
    (q.row,q.col) = spill.origin → obstructed (clearSpillTargets sheet).rows spill = false
  truths : ∀ p tree, Evaluates engine sheets sheetIndex sheet p tree →
    tree.run (valueKept engine sheets sheetIndex sheet) = tree.run (valueRead engine sheets sheetIndex sheet)
  alike : ∀ p, engine.other (sheets.set sheetIndex (recalculated engine sheets sheetIndex sheet)) p =
      engine.other (clearedSheets sheets sheetIndex sheet) p ∧
    engine.other (sheets.set sheetIndex (clearSpillTargets (recalculated engine sheets sheetIndex sheet))) p =
      engine.other (clearedSheets sheets sheetIndex sheet) p
  level : Spill.Level (Spill.shape sheet.rows) (passSpills engine sheets sheetIndex sheet)

end statement

section sheets
variable {engine : Engine} {sheets : List SheetData} {sheetIndex : Nat} {sheet other : SheetData} {p q : Position}

end sheets

section cells
variable {engine : Engine} {sheets : List SheetData} {sheetIndex : Nat} {sheet : SheetData} {p q : Position}

end cells

section settled
variable {engine : Engine} {sheets : List SheetData} {sheetIndex : Nat} {sheet : SheetData} {p q : Position}
variable {tree : Reading FormulaEvalResult}

section
variable (listed : sheets[sheetIndex]? = some sheet) (acyclic : ∀ p, ¬OnCycle engine sheets sheetIndex sheet p)
variable (calm : Undisturbed engine sheets sheetIndex sheet)
include listed acyclic calm

end

section
variable (listed : sheets[sheetIndex]? = some sheet) (acyclic : ∀ p, ¬OnCycle engine sheets sheetIndex sheet p)
variable (calm : Undisturbed engine sheets sheetIndex sheet)
include listed acyclic calm

end

end settled

instance (lengths : List Nat) (spills : List SpillCell) : Decidable (Spill.Level lengths spills) :=
  inferInstanceAs (Decidable (∀ spill ∈ spills, ∀ length ∈ spills.foldl Spill.growShape lengths,
    spill.col + spill.result.spillCols ≤ length))

end Ownly.Sheets.Formula
