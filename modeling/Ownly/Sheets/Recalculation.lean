import Ownly.Sheets.Functions
import Ownly.Sheets.SpillsApart
import Ownly.Lib.Memo

-- getRawCellValue and evaluateFormulaCell of formulas.ts over a workbook, and what the pass of
-- recalculateSheet over the formula cells of one sheet makes of them.
namespace Ownly.Sheets.Formula
open Collab (Text)
open Spill (Scalar FormulaEvalResult Evaluated toScalar clearSpillTargets clearCell)
open List

def scalarOf : CellValue → Scalar
  | .null => .null
  | .text t => .text t
  | .number n => .number n

-- `formula.startsWith("=") ? formula.slice(1) : formula`
def expressionOf : Text → Text
  | '=' :: expression => expression
  | formula => formula

-- What an evaluation is given besides the sheets: the functions that are not spelled out, which
-- may look at the sheets by themselves, and how deep functions may be nested.
structure Engine where
  env : Env
  evaluateJs : Text → Option JsValue
  other : List SheetData → Position → Text → Text → List Scalar → Reading Called
  depth : Nat

def Engine.host (engine : Engine) (sheets : List SheetData) : Host := ⟨engine.env,sheets.map SheetData.name,engine.evaluateJs⟩

def sheetCell (sheets : List SheetData) (p : Position) : Option SheetCell :=
  sheets[p.sheetIndex]?.bind (fun sheet => Spill.cellAt sheet.rows (p.row,p.col))

def formulaOf (sheets : List SheetData) (p : Position) : Option Text :=
  (sheetCell sheets p).bind (fun cell => if truthy cell.formula then cell.formula else none)

def Engine.evaluateFormula (engine : Engine) (sheets : List SheetData) (p : Position) (formula : Text) : Reading FormulaEvalResult :=
  evaluate (engine.host sheets) (engine.other sheets p) p.sheetIndex engine.depth (expressionOf formula)

def Engine.system (engine : Engine) (sheets : List SheetData) : Memo.System Position Scalar FormulaEvalResult where
  program p := (formulaOf sheets p).map (engine.evaluateFormula sheets p)
  plain p := ((sheetCell sheets p).map (fun cell => scalarOf cell.value)).getD .null
  value := toScalar
  cut := error

def formulaCells (sheetIndex : Nat) (sheet : SheetData) : List Position :=
  (sheet.rows.mapIdx (fun row cells => (cells.mapIdx (fun col (cell : SheetCell) =>
    if truthy cell.formula then some (⟨sheetIndex,row,col⟩ : Position) else none)).reduceOption)).flatten

def allFormulaCells (sheets : List SheetData) : List Position := (sheets.mapIdx formulaCells).flatten

-- The cache after the cells of `order` have been evaluated one after the other.
def Engine.cache (engine : Engine) (sheets : List SheetData) (order : List Position) : Position → Option FormulaEvalResult :=
  Memo.table (engine.system sheets) (allFormulaCells sheets) order

def Engine.results (engine : Engine) (sheets : List SheetData) (order : List Position) (p : Position) : FormulaEvalResult :=
  (engine.cache sheets order p).getD error

-- What the pass over a cleared sheet finds in the cache; a cell's result stays in it.
def Engine.evaluated (engine : Engine) (sheets : List SheetData) (sheetIndex : Nat) : Evaluated := fun cleared row col =>
  engine.results (sheets.set sheetIndex cleared) (formulaCells sheetIndex cleared) ⟨sheetIndex,row,col⟩

def Engine.recalculateSheet (engine : Engine) (sheets : List SheetData) (sheetIndex : Nat) (sheet : SheetData) : SheetData :=
  Spill.recalculateSheet engine.env (engine.evaluated sheets sheetIndex) sheet

section lemmas
variable {engine : Engine} {sheets : List SheetData} {sheetIndex : Nat} {sheet : SheetData} {p : Position} {cell : SheetCell}

theorem mem_formulaCells : p ∈ formulaCells sheetIndex sheet ↔
    p.sheetIndex = sheetIndex ∧ ∃ cell, Spill.cellAt sheet.rows (p.row,p.col) = some cell ∧ truthy cell.formula = true := by
  obtain ⟨index,row,col⟩ := p
  simp only [formulaCells,mem_flatten,mem_mapIdx,Spill.cellAt]
  constructor
  · rintro ⟨_,⟨row',inside,rfl⟩,member⟩
    obtain ⟨col',inside',given⟩ := mem_mapIdx.mp (reduceOption_mem_iff.mp member)
    split at given
    · rename_i formula
      cases given
      exact ⟨rfl,_,by rw [getElem?_eq_getElem inside,Option.bind_some,getElem?_eq_getElem inside'],formula⟩
    · cases given
  · rintro ⟨rfl,cell,there,formula⟩
    obtain ⟨cells,first,second⟩ := Option.bind_eq_some_iff.mp there
    obtain ⟨inside,rfl⟩ := List.getElem?_eq_some_iff.mp first
    obtain ⟨inside',rfl⟩ := List.getElem?_eq_some_iff.mp second
    exact ⟨_,⟨row,inside,rfl⟩,reduceOption_mem_iff.mpr (mem_mapIdx.mpr ⟨col,inside',by simp [formula]⟩)⟩

theorem formulaOf_isSome : (formulaOf sheets p).isSome = true ↔
    ∃ sheet, sheets[p.sheetIndex]? = some sheet ∧ p ∈ formulaCells p.sheetIndex sheet := by
  simp only [mem_formulaCells,true_and,formulaOf,sheetCell]
  cases sheets[p.sheetIndex]? with
  | none => simp
  | some sheet =>
    cases there : Spill.cellAt sheet.rows (p.row,p.col) with
    | none => simp [there]
    | some cell =>
      cases formula : truthy cell.formula with
      | false => simp [there,formula]
      | true =>
        have some_ : cell.formula.isSome = true := by
          cases given : cell.formula with
          | none => simp [given,truthy] at formula
          | some text => rfl
        simp [there,formula,some_]

theorem mem_allFormulaCells : p ∈ allFormulaCells sheets ↔ (formulaOf sheets p).isSome = true := by
  rw [formulaOf_isSome,allFormulaCells,mem_flatten]
  constructor
  · rintro ⟨_,listed,member⟩
    obtain ⟨index,inside,rfl⟩ := mem_mapIdx.mp listed
    have same := (mem_formulaCells.mp member).1
    subst same
    exact ⟨_,getElem?_eq_getElem inside,member⟩
  · rintro ⟨sheet,there,member⟩
    obtain ⟨inside,rfl⟩ := List.getElem?_eq_some_iff.mp there
    exact ⟨_,mem_mapIdx.mpr ⟨p.sheetIndex,inside,rfl⟩,member⟩

theorem program_listed : ∀ p, ((engine.system sheets).program p).isSome = true → p ∈ allFormulaCells sheets := by
  intro p program
  rw [mem_allFormulaCells]
  simpa [Engine.system] using program

theorem system_program : (engine.system sheets).program p = (formulaOf sheets p).map (engine.evaluateFormula sheets p) := rfl

end lemmas

section order
variable (engine : Engine) (sheets : List SheetData) (sheetIndex : Nat) (sheet : SheetData)

-- The sheets as the pass sees them, and the formula cells it goes through.
def clearedSheets : List SheetData := sheets.set sheetIndex (clearSpillTargets sheet)

def passOrder : List Position := formulaCells sheetIndex (clearSpillTargets sheet)

def OnCycle (p : Position) : Prop :=
  (engine.system (clearedSheets sheets sheetIndex sheet)).OnCycle
    (engine.results (clearedSheets sheets sheetIndex sheet) (passOrder sheetIndex sheet)) p

end order

section lemmas
variable {engine : Engine} {sheets : List SheetData} {sheetIndex : Nat} {sheet : SheetData} {p : Position}
variable {results : Position → FormulaEvalResult} {order roots : List Position}

-- Results by which every formula gives its own when it reads the others', and #ERROR! on every
-- cycle, are found in every order.
theorem cache_solved (solves : (engine.system sheets).Solves roots results) (within : order ⊆ roots) (member : p ∈ order)
    (formula : (formulaOf sheets p).isSome) : engine.cache sheets order p = some (results p) :=
  Memo.table_solved program_listed solves within p member (by simpa [system_program] using formula)

theorem formulaOf_cleared (listed : sheets[sheetIndex]? = some sheet) (member : p ∈ passOrder sheetIndex sheet) :
    (formulaOf (clearedSheets sheets sheetIndex sheet) p).isSome := by
  have here := (mem_formulaCells.mp member).1
  obtain ⟨inside,_⟩ := List.getElem?_eq_some_iff.mp listed
  refine formulaOf_isSome.mpr ⟨clearSpillTargets sheet,?_,here ▸ member⟩
  rw [here,clearedSheets,getElem?_set_self inside]

theorem mem_passOrder (formula : (formulaOf (clearedSheets sheets sheetIndex sheet) p).isSome) (here : p.sheetIndex = sheetIndex)
    (listed : sheets[sheetIndex]? = some sheet) : p ∈ passOrder sheetIndex sheet := by
  obtain ⟨inside,_⟩ := List.getElem?_eq_some_iff.mp listed
  obtain ⟨there,found,member⟩ := formulaOf_isSome.mp formula
  rw [here,clearedSheets,getElem?_set_self inside] at found
  cases found
  exact here ▸ member

end lemmas

end Ownly.Sheets.Formula
