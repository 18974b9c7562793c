import Ownly.Sheets.Recalculation

-- What a recalculation reports of cells that lie on a cycle of references, and whether it
-- matters where it begins.
namespace Ownly.Sheets.Formula
open Collab (Text)
open Spill (Scalar FormulaEvalResult toScalar clearSpillTargets)

section cycles
variable (engine : Engine) (sheets : List SheetData) (sheetIndex : Nat) (sheet : SheetData)

-- What is asked: #ERROR! for every cell on a cycle, wherever the cycle runs, and the same result
-- for every cell of the sheet whatever is evaluated before the pass begins.
structure CyclesReported : Prop where
  reported : ∀ p result, OnCycle engine sheets sheetIndex sheet p →
    engine.cache (clearedSheets sheets sheetIndex sheet) (passOrder sheetIndex sheet) p = some result → result = error
  shown : ∀ p, OnCycle engine sheets sheetIndex sheet p → p.sheetIndex = sheetIndex →
    ∃ cell, Spill.cellAt (engine.recalculateSheet sheets sheetIndex sheet).rows (p.row,p.col) = some cell ∧
      cell.value = .text (textOf "#ERROR!") ∧ cell.display = textOf "#ERROR!"
  anyOrder : ∀ earlier ⊆ passOrder sheetIndex sheet, ∀ p ∈ passOrder sheetIndex sheet,
    engine.cache (clearedSheets sheets sheetIndex sheet) (earlier ++ passOrder sheetIndex sheet) p =
      engine.cache (clearedSheets sheets sheetIndex sheet) (passOrder sheetIndex sheet) p

end cycles

section proof
variable {engine : Engine} {sheets : List SheetData} {sheetIndex : Nat} {sheet : SheetData} {p : Position}
variable {results : Position → FormulaEvalResult}

theorem onCycle_formula (cycle : (engine.system sheets).OnCycle results p) : (formulaOf sheets p).isSome := by
  obtain ⟨next,⟨tree,program,_⟩,_⟩ := Relation.TransGen.head'_iff.mp cycle
  rw [system_program,Option.map_eq_some_iff] at program
  obtain ⟨formula,given,_⟩ := program
  simp [given]

-- Every cell on a cycle is reported, and the order of the evaluation does not matter, exactly
-- where results for the cells exist by which every formula that is reached gives its own when it
-- reads the others', and every one on a cycle #ERROR!.
theorem cycles_reported (engine : Engine) (listed : sheets[sheetIndex]? = some sheet) :
    CyclesReported engine sheets sheetIndex sheet ↔
      ∃ results, (engine.system (clearedSheets sheets sheetIndex sheet)).Solves (passOrder sheetIndex sheet) results := by
  constructor
  · intro reports
    refine ⟨_,Memo.table_solves program_listed (fun p cycle => ?_)⟩
    cases cached : engine.cache (clearedSheets sheets sheetIndex sheet) (passOrder sheetIndex sheet) p with
    | none => exact congrArg (Option.getD · error) cached
    | some result => exact (congrArg (Option.getD · error) cached).trans (reports.reported p result cycle cached)
  · rintro ⟨results,solves⟩
    have reported : ∀ p result, OnCycle engine sheets sheetIndex sheet p →
        engine.cache (clearedSheets sheets sheetIndex sheet) (passOrder sheetIndex sheet) p = some result → result = error :=
      fun p result cycle cached => Memo.table_cut program_listed solves cached cycle
    have found : ∀ order ⊆ passOrder sheetIndex sheet, ∀ p ∈ order,
        engine.cache (clearedSheets sheets sheetIndex sheet) order p = some (results p) :=
      fun order within p member => cache_solved solves within member (formulaOf_cleared listed (within member))
    refine ⟨reported,fun p cycle here => ?_,fun earlier within p member => ?_⟩
    · have member := mem_passOrder (onCycle_formula cycle) here listed
      have cached := found _ (List.Subset.refl _) p member
      have given : engine.evaluated sheets sheetIndex (clearSpillTargets sheet) p.row p.col = error := by
        have result := reported p _ cycle cached
        rw [result] at cached
        subst here
        exact congrArg (Option.getD · error) cached
      obtain ⟨cell,there,formula⟩ := (mem_formulaCells.mp member).2
      refine ⟨_,Spill.formula_result engine.env _ sheet (Spill.cleared_formula there formula) formula (fun spill listed origin => ?_),?_⟩
      · obtain ⟨_,_,_,array⟩ := Spill.mem_spillsOf.mp listed
        obtain ⟨row,col⟩ := Prod.mk.inj origin
        rw [← row,← col,given] at array
        cases array
      · simp only [Spill.evaluateCell,formula,given,Bool.not_true,Bool.false_eq_true,if_false]
        exact ⟨rfl,rfl⟩
    · rw [found _ (List.append_subset.mpr ⟨within,List.Subset.refl _⟩) p (List.mem_append_right _ member),
        found _ (List.Subset.refl _) p member]

end proof

def circular : SheetData := ⟨textOf "Sheet1",[[Spill.formulaCell "=B1+1",Spill.formulaCell "=A1+1"]],none,none,none,[]⟩

-- Arithmetic without functions.
def arithmeticEngine : Engine := ⟨plainEnv,arithmeticHost.evaluateJs,fun _ _ _ _ _ => pure (.notFinite []),2⟩

def circularA1 : Position := ⟨0,0,0⟩

def circularB1 : Position := ⟨0,0,1⟩

def circularResult (order : List Position) (p : Position) : Option Scalar := (arithmeticEngine.cache [circular] order p).map toScalar

theorem cycles_reported_circular : CyclesReported arithmeticEngine [circular] 0 circular ↔
    ∃ results, (arithmeticEngine.system (clearedSheets [circular] 0 circular)).Solves (passOrder 0 circular) results :=
  cycles_reported arithmeticEngine rfl

theorem cycles_unreported : (circularResult (passOrder 0 circular) circularA1 = some (.number 2) ∧
      circularResult (circularB1 :: passOrder 0 circular) circularA1 = some (.number 1)) ∧
    OnCycle arithmeticEngine [circular] 0 circular circularA1 ∧ ¬CyclesReported arithmeticEngine [circular] 0 circular := by
  have order : passOrder 0 circular = [circularA1,circularB1] := by decide +kernel
  have values : circularResult [circularA1,circularB1] circularA1 = some (.number 2) ∧
      circularResult (circularB1 :: [circularA1,circularB1]) circularA1 = some (.number 1) := by decide +kernel
  refine ⟨order ▸ values,?_,fun reports => ?_⟩
  · have there : (arithmeticEngine.system [circular]).Refers (arithmeticEngine.results [circular] [circularA1,circularB1])
        circularA1 circularB1 := by decide +kernel
    have back : (arithmeticEngine.system [circular]).Refers (arithmeticEngine.results [circular] [circularA1,circularB1])
        circularB1 circularA1 := by decide +kernel
    exact .tail (.single there) back
  · have same := reports.anyOrder [circularB1] (by simp [order]) circularA1 (by simp [order])
    rw [order] at same
    have first : some (Scalar.number 1) = some (Scalar.number 2) :=
      values.2.symm.trans ((congrArg (Option.map toScalar) same).trans values.1)
    simp at first

end Ownly.Sheets.Formula
