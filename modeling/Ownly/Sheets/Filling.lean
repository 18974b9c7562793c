import Ownly.Sheets.Extent
import Mathlib.Tactic.Ring

-- fill-handle.ts on a column or a row that holds an arithmetic progression.
namespace Ownly.Sheets
open List Option

inductive Axis where
  | down | right
  deriving DecidableEq, Repr

def Axis.place (axis : Axis) (origin : GridCell) (k : Nat) : GridCell :=
  match axis with
  | .down => ⟨origin.row + k,origin.col⟩
  | .right => ⟨origin.row,origin.col + k⟩

def Axis.span (axis : Axis) (origin : GridCell) (first last : Nat) : GridRange := ⟨axis.place origin first,axis.place origin last⟩

def valueAt (sheet : SheetData) (at_ : GridCell) : CellValue := (cellAt sheet.rows at_.row at_.col).value

section
variable {first step : Int} {n k : Nat} {source : Nat → SheetCell}

theorem cellNumericStep_progression (first step : Int) (several : 2 ≤ n) :
    cellNumericStep ((List.range n).map (fun k : Nat => ((first + k * step : Int) : Rat))) = some (step : Rat) := by
  have steps : ((List.range n).map (fun k : Nat => ((first + k * step : Int) : Rat))).zipWith (fun prev next => next - prev)
      ((List.range n).map (fun k : Nat => ((first + k * step : Int) : Rat))).tail = List.replicate (n - 1) (step : Rat) := by
    refine ext_getElem (by simp) (fun i low high => ?_)
    rw [getElem_zipWith,getElem_tail,getElem_map,getElem_map,getElem_range,getElem_range,getElem_replicate]
    push_cast
    ring
  obtain ⟨m,rfl⟩ : ∃ m, n = m + 2 := ⟨n - 2,by omega⟩
  rw [cellNumericStep,steps,Nat.add_sub_cancel (m + 1) 1,replicate_succ]
  have same : (List.replicate m (step : Rat)).all (fun other => decide (other = (step : Rat))) = true :=
    all_eq_true.mpr (fun other member => decide_eq_true (eq_of_mem_replicate member))
  simp only [same,if_true]

theorem fillValueForOffset_progression (env : Env) (held : ∀ k < n, (source k).value = .number ((first + k * step : Int) : Rat))
    (several : 2 ≤ n) (k : Nat) :
    (fillValueForOffset env ((List.range n).map source) k n).value = .number ((first + k * step + (k % n : Nat) * step : Int) : Rat) := by
  have inside : k % n < n := Nat.mod_lt k (by omega)
  have numbers : ((List.range n).map source).filterMap numberOfCell = (List.range n).map (fun k : Nat => ((first + k * step : Int) : Rat)) := by
    rw [filterMap_map,← filterMap_eq_map]
    refine filterMap_congr (fun j member => ?_)
    simp only [Function.comp_apply,numberOfCell,held j (mem_range.mp member)]
  have base : ((List.range n).map source)[k % n]? = some (source (k % n)) := by
    rw [getElem?_map,getElem?_range inside,map_some]
  have index : (k : Int).tmod n = (k % n : Nat) := rfl
  have nonneg : (0 : Int) ≤ (k % n : Nat) := Int.natCast_nonneg _
  have chosen : numberOfCell (source (k % n)) = some ((first + (k % n : Nat) * step : Int) : Rat) := by
    simp only [numberOfCell,held _ inside]
  have whole : (k : Int).fdiv n * n + (k % n : Nat) = k := by
    rw [Int.fdiv_eq_ediv_of_nonneg _ (Int.natCast_nonneg n),Int.natCast_emod]
    exact Int.ediv_mul_add_emod k n
  unfold fillValueForOffset
  cases last : ((List.range n).map source).getLast? with
  | none =>
    have empty := getLast?_eq_none_iff.mp last
    rw [map_eq_nil_iff,range_eq_nil] at empty
    omega
  | some lastCell =>
    dsimp only
    rw [index,if_pos nonneg,Int.toNat_natCast,base,getD_some,numbers,cellNumericStep_progression first step several,chosen]
    dsimp only
    rw [whole]
    congr 1
    push_cast
    ring

end

section
variable {env : Env} {source bounds : GridRange} {sheet : SheetData} {row col : Nat}

def filled (env : Env) (source bounds : GridRange) (rows : List (List SheetCell)) (row col : Nat) (cell : SheetCell) : SheetCell :=
  if source.holds row col then cell
  else if ¬bounds.holds row col then cell
  else if source.stop.row < bounds.stop.row ∧ source.start.col ≤ col ∧ col ≤ source.stop.col then
    fillValueForOffset env ((List.range (source.stop.row - source.start.row + 1)).map (fun offset => cellAt rows (source.start.row + offset) col))
      ((row : Int) - source.start.row) (source.stop.row - source.start.row + 1)
  else if source.stop.col < bounds.stop.col ∧ source.start.row ≤ row ∧ row ≤ source.stop.row then
    fillValueForOffset env ((List.range (source.stop.col - source.start.col + 1)).map (fun offset => cellAt rows row (source.start.col + offset)))
      ((col : Int) - source.start.col) (source.stop.col - source.start.col + 1)
  else cell

theorem filled_rows {rows rows' : List (List SheetCell)} (same : ∀ row col, cellAt rows row col = cellAt rows' row col)
    (cell : SheetCell) : filled env source bounds rows row col cell = filled env source bounds rows' row col cell := by
  simp only [filled,same]

theorem cellAt_fillInSheet (env : Env) (source bounds : GridRange) (sheet : SheetData) (row col : Nat) :
    cellAt (fillInSheet env source bounds sheet).rows row col =
      if bounds.holds row col then filled env source bounds sheet.rows row col (cellAt sheet.rows row col)
      else cellAt sheet.rows row col := by
  have there : (fillInSheet env source bounds sheet).rows = mapCells (expandSheetToAddress sheet bounds.stop.row bounds.stop.col).rows
      (filled env source bounds (expandSheetToAddress sheet bounds.stop.row bounds.stop.col).rows) := rfl
  have same := cellAt_expandSheetToAddress sheet bounds.stop.row bounds.stop.col
  rw [there,cellAt_cellIn,cellIn_mapCells]
  split
  · rename_i inside
    rw [GridRange.holds,decide_eq_true_iff] at inside
    rw [cellIn_expandSheetToAddress sheet inside.2.1 inside.2.2.2,map_some,getD_some]
    exact filled_rows same _
  · rename_i outside
    rw [← same row col,cellAt_cellIn]
    cases cellIn (expandSheetToAddress sheet bounds.stop.row bounds.stop.col).rows row col with
    | none => rfl
    | some cell =>
      simp only [map_some,getD_some,filled,outside,not_false_eq_true,if_true,ite_self,Bool.false_eq_true]

theorem fill_source (inside : source.holds row col = true) :
    cellAt (fillInSheet env source bounds sheet).rows row col = cellAt sheet.rows row col := by
  rw [cellAt_fillInSheet,filled,if_pos inside,ite_self]

theorem fill_outside (outside : bounds.holds row col = false) :
    cellAt (fillInSheet env source bounds sheet).rows row col = cellAt sheet.rows row col := by
  rw [cellAt_fillInSheet,if_neg (by rw [outside]; exact Bool.false_ne_true)]

end

section
variable {env : Env} {axis : Axis} {origin : GridCell} {sheet : SheetData} {n more k row col : Nat}

theorem holds_span (axis : Axis) (origin : GridCell) (last row col : Nat) :
    (axis.span origin 0 last).holds row col = true ↔ ∃ k ≤ last, axis.place origin k = ⟨row,col⟩ := by
  rw [GridRange.holds,decide_eq_true_iff]
  cases axis with
  | down =>
    simp only [Axis.span,Axis.place,GridCell.mk.injEq]
    constructor
    · intro inside
      exact ⟨row - origin.row,by omega,by omega,by omega⟩
    · rintro ⟨k,less,rfl,rfl⟩
      omega
  | right =>
    simp only [Axis.span,Axis.place,GridCell.mk.injEq]
    constructor
    · intro inside
      exact ⟨col - origin.col,by omega,by omega,by omega⟩
    · rintro ⟨k,less,rfl,rfl⟩
      omega

theorem fill_place (some_ : 1 ≤ n) (behind : n ≤ k) (within : k < n + more) :
    cellAt (fillInSheet env (axis.span origin 0 (n - 1)) (axis.span origin 0 (n - 1 + more)) sheet).rows
        (axis.place origin k).row (axis.place origin k).col =
      fillValueForOffset env ((List.range n).map (fun j => cellAt sheet.rows (axis.place origin j).row (axis.place origin j).col)) k n := by
  have inside : (axis.span origin 0 (n - 1 + more)).holds (axis.place origin k).row (axis.place origin k).col = true :=
    (holds_span axis origin _ _ _).mpr ⟨k,by omega,rfl⟩
  have outside : ¬(axis.span origin 0 (n - 1)).holds (axis.place origin k).row (axis.place origin k).col = true := by
    intro held
    obtain ⟨j,less,same⟩ := (holds_span axis origin _ _ _).mp held
    cases axis with
    | down => simp only [Axis.place,GridCell.mk.injEq] at same; omega
    | right => simp only [Axis.place,GridCell.mk.injEq] at same; omega
  rw [cellAt_fillInSheet,if_pos inside,filled,if_neg outside,if_neg (not_not.mpr inside)]
  cases axis with
  | down =>
    have below : origin.row + (n - 1) < origin.row + (n - 1 + more) := by omega
    have length : origin.row + (n - 1) - origin.row + 1 = n := by omega
    have offset : ((origin.row + k : Nat) : Int) - origin.row = k := by omega
    rw [if_pos ⟨below,Nat.le_refl origin.col,Nat.le_refl origin.col⟩]
    simp only [Axis.span,Axis.place,Nat.add_zero,length,offset]
  | right =>
    have beside : origin.col + (n - 1) < origin.col + (n - 1 + more) := by omega
    have length : origin.col + (n - 1) - origin.col + 1 = n := by omega
    have offset : ((origin.col + k : Nat) : Int) - origin.col = k := by omega
    rw [if_neg (fun down => Nat.lt_irrefl origin.row down.1),if_pos ⟨beside,Nat.le_refl origin.row,Nat.le_refl origin.row⟩]
    simp only [Axis.span,Axis.place,Nat.add_zero,length,offset]

-- The progression goes on over the whole box, and nothing else changes.
structure Continues (axis : Axis) (origin : GridCell) (n more : Nat) (first step : Int) (before after : SheetData) : Prop where
  values : ∀ k < n + more, valueAt after (axis.place origin k) = .number ((first + k * step : Int) : Rat)
  source : ∀ k < n, cellAt after.rows (axis.place origin k).row (axis.place origin k).col =
    cellAt before.rows (axis.place origin k).row (axis.place origin k).col
  outside : ∀ row col, (axis.span origin 0 (n - 1 + more)).holds row col = false → cellAt after.rows row col = cellAt before.rows row col

theorem fillInSheet_continues (env : Env) {first step : Int} (several : 2 ≤ n)
    (held : ∀ k < n, valueAt sheet (axis.place origin k) = .number ((first + k * step : Int) : Rat)) :
    Continues axis origin n more first step sheet (fillInSheet env (axis.span origin 0 (n - 1)) (axis.span origin 0 (n - 1 + more)) sheet) ↔
      step = 0 ∨ more ≤ 1 := by
  have within : ∀ k < n, (axis.span origin 0 (n - 1)).holds (axis.place origin k).row (axis.place origin k).col = true :=
    fun k less => (holds_span axis origin _ _ _).mpr ⟨k,by omega,rfl⟩
  have filled : ∀ k, n ≤ k → k < n + more →
      valueAt (fillInSheet env (axis.span origin 0 (n - 1)) (axis.span origin 0 (n - 1 + more)) sheet) (axis.place origin k) =
        .number ((first + k * step + (k % n : Nat) * step : Int) : Rat) := by
    intro k behind inside
    rw [valueAt,fill_place (by omega) behind inside]
    exact fillValueForOffset_progression env held several k
  constructor
  · intro continues
    by_contra both
    obtain ⟨moving,long⟩ := not_or.mp both
    have second := continues.values (n + 1) (by omega)
    have wrapped : (n + 1) % n = 1 := by rw [Nat.add_mod_left,Nat.mod_eq_of_lt several]
    rw [filled (n + 1) (by omega) (by omega),wrapped] at second
    have same := Rat.intCast_inj.mp (CellValue.number.inj second)
    refine moving ?_
    simp only [Nat.cast_one,Int.one_mul] at same
    omega
  · intro flat
    refine ⟨fun k inside => ?_,fun k less => fill_source (within k less),fun row col => fill_outside⟩
    rcases Nat.lt_or_ge k n with early | behind
    · rw [valueAt,fill_source (within k early)]
      exact held k early
    · rw [filled k behind inside]
      have none_ : ((k % n : Nat) : Int) * step = 0 := by
        rcases flat with still | short
        · rw [still,Int.mul_zero]
        · have here : k = n := by omega
          rw [here,Nat.mod_self]
          exact Int.zero_mul step
      rw [none_,Int.add_zero]

theorem fillRange_at (env : Env) {workbook : SpreadsheetWorkbook} {sheetIndex start : Nat} {sourceRange targetRange : GridRange}
    (found : workbook.sheets[sheetIndex]? = some sheet) (source : sourceRange.normalize = axis.span origin 0 (n - 1))
    (target : targetRange.normalize = axis.span origin start (n - 1 + more)) :
    (fillRangeInWorkbook env workbook sheetIndex sourceRange targetRange).sheets[sheetIndex]? =
      some (fillInSheet env (axis.span origin 0 (n - 1)) (axis.span origin 0 (n - 1 + more)) sheet) := by
  have box : fillRangeInWorkbook env workbook sheetIndex sourceRange targetRange =
      ofSheets (mapSheet workbook sheetIndex (fillInSheet env (axis.span origin 0 (n - 1)) (axis.span origin 0 (n - 1 + more)))) := by
    have corners : (⟨⟨min (axis.place origin 0).row (axis.place origin start).row,min (axis.place origin 0).col (axis.place origin start).col⟩,
        ⟨max (axis.place origin (n - 1)).row (axis.place origin (n - 1 + more)).row,
          max (axis.place origin (n - 1)).col (axis.place origin (n - 1 + more)).col⟩⟩ : GridRange) =
        axis.span origin 0 (n - 1 + more) := by
      cases axis with
      | down =>
        simp only [Axis.span,Axis.place,GridRange.mk.injEq,GridCell.mk.injEq]
        omega
      | right =>
        simp only [Axis.span,Axis.place,GridRange.mk.injEq,GridCell.mk.injEq]
        omega
    rw [fillRangeInWorkbook,source,target]
    exact congrArg (fun bounds => ofSheets (mapSheet workbook sheetIndex (fillInSheet env (axis.span origin 0 (n - 1)) bounds))) corners
  rw [box]
  exact (mapSheet_at workbook sheetIndex _ sheetIndex).trans (by rw [found,map_some,if_pos rfl])

theorem fill_continues_iff (env : Env) (workbook : SpreadsheetWorkbook) (sheetIndex : Nat) (sheet : SheetData)
    (found : workbook.sheets[sheetIndex]? = some sheet) (axis : Axis) (origin : GridCell) (n more : Nat) (first step : Int)
    (several : 2 ≤ n) (held : ∀ k < n, valueAt sheet (axis.place origin k) = .number ((first + k * step : Int) : Rat))
    (sourceRange targetRange : GridRange) (source : sourceRange.normalize = axis.span origin 0 (n - 1)) (start : Nat)
    (target : targetRange.normalize = axis.span origin start (n - 1 + more)) :
    (∃ after, (fillRangeInWorkbook env workbook sheetIndex sourceRange targetRange).sheets[sheetIndex]? = some after ∧
      Continues axis origin n more first step sheet after) ↔ step = 0 ∨ more ≤ 1 := by
  have there := fillRange_at env found source target
  rw [← fillInSheet_continues env several held]
  constructor
  · rintro ⟨after,same,continues⟩
    cases there.symm.trans same
    exact continues
  · exact fun continues => ⟨_,there,continues⟩

def counting : SheetData :=
  ⟨"Sheet1".toList,[[{emptySheetCell with value := .number 1}],[{emptySheetCell with value := .number 2}]],none,none,none,[]⟩

theorem counting_held : ∀ k < 2, valueAt counting (Axis.down.place ⟨0,0⟩ k) = .number (((1 : Int) + k * 1 : Int) : Rat) := by
  intro k less
  rcases (by omega : k = 0 ∨ k = 1) with rfl | rfl <;> rfl

theorem counting_filled : (∃ after, (fillRangeInWorkbook plainEnv (ofSheets [counting]) 0 ⟨⟨1,0⟩,⟨0,0⟩⟩ ⟨⟨0,0⟩,⟨2,0⟩⟩).sheets[0]? = some after ∧
    Continues .down ⟨0,0⟩ 2 1 1 1 counting after) ↔ (1 : Int) = 0 ∨ 1 ≤ 1 :=
  fill_continues_iff plainEnv (ofSheets [counting]) 0 counting rfl .down ⟨0,0⟩ 2 1 1 1 (by decide) counting_held _ _ rfl 0 rfl

theorem counting_breaks : ¬∃ after, (fillRangeInWorkbook plainEnv (ofSheets [counting]) 0 ⟨⟨0,0⟩,⟨1,0⟩⟩ ⟨⟨0,0⟩,⟨3,0⟩⟩).sheets[0]? = some after ∧
    Continues .down ⟨0,0⟩ 2 2 1 1 counting after := by
  rintro ⟨after,found,continues⟩
  have there := @fillRange_at .down ⟨0,0⟩ counting 2 2 plainEnv (ofSheets [counting]) 0 0 ⟨⟨0,0⟩,⟨1,0⟩⟩ ⟨⟨0,0⟩,⟨3,0⟩⟩ rfl rfl rfl
  cases there.symm.trans found
  exact absurd ((fillInSheet_continues plainEnv (by decide) counting_held).mp continues) (by decide)

end

end Ownly.Sheets
