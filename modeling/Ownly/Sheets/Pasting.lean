import Ownly.Sheets.Extent

-- The text of the system clipboard as cells: tsvToClipboardPayload of clipboard.ts, and when
-- a paste finds a cell of it at every place that it fills.
namespace Ownly.Sheets
open Collab (Text)
open List

-- `text.replace(/\r\n/g, "\n").replace(/\r/g, "\n")`
def normalizeNewlines : Text → Text
  | '\r' :: '\n' :: rest => '\n' :: normalizeNewlines rest
  | '\r' :: rest => '\n' :: normalizeNewlines rest
  | c :: rest => c :: normalizeNewlines rest
  | [] => []

-- `Number(trimmed.replace(/[$,%\s,]/g, ""))` where it is finite.
def valueOfText (env : Env) (trimmed : Text) : CellValue :=
  if trimmed = [] then .null
  else match env.number (trimmed.filter (fun c => !(['$',',','%'].contains c || isSpace c))) with
    | some numeric => .number numeric
    | none => .text trimmed

def pastedLines (text : Text) : List Text := (normalizeNewlines text).splitOn '\n'

def tsvToClipboardPayload (env : Env) (text : Text) : ClipboardPayload :=
  let cells := (pastedLines text).map (fun line => (line.splitOn '\t').map (fun display =>
    {emptySheetCell with value := valueOfText env (trim display),display := trim display}))
  ⟨cells,cells.length,max (longestRow cells) 1⟩

def ClipboardPayload.Full (payload : ClipboardPayload) : Prop :=
  ∀ row < payload.rows, ∀ col < payload.cols, (cellIn payload.cells row col).isSome

section
variable {env : Env} {payload : ClipboardPayload} {target : GridCell} {mode : PasteMode} {sheet : SheetData} {text : Text}

theorem mapM_isSome {α β : Type} (f : α → Option β) (xs : List α) : (xs.mapM f).isSome ↔ ∀ x ∈ xs, (f x).isSome := by
  induction xs with
  | nil => simp
  | cons x rest ih =>
    rw [mapM_cons,forall_mem_cons,← ih]
    cases f x with
    | none => simp
    | some y => cases rest.mapM f <;> simp

theorem transposed_full (payload : ClipboardPayload) : (transposeClipboardPayload payload).Full := by
  intro row low col left
  simp only [transposeClipboardPayload] at low left ⊢
  rw [cellIn,getElem?_map,getElem?_range low,Option.map_some,Option.bind_some,getElem?_map,getElem?_range left]
  rfl

theorem pasteInSheet_isSome (env : Env) (target : GridCell) (payload : ClipboardPayload) (mode : PasteMode) (sheet : SheetData) :
    (pasteInSheet env target payload mode sheet).isSome ↔ payload.Full := by
  rw [pasteInSheet,Option.isSome_map,mapM_isSome]
  constructor
  · intro visits row low col left
    have there : cellIn (expandSheetToAddress sheet (target.row + payload.rows - 1) (target.col + payload.cols - 1)).rows
        (target.row + row) (target.col + col) = some (cellAt sheet.rows (target.row + row) (target.col + col)) :=
      cellIn_expandSheetToAddress sheet (by omega) (by omega)
    obtain ⟨cells,inRows,inRow⟩ := cellIn_some.mp there
    have visited := (mapM_isSome _ _).mp (visits (cells,target.row + row) (mem_zipIdx_iff_getElem?.mpr inRows))
      (_,target.col + col) (mem_zipIdx_iff_getElem?.mpr inRow)
    dsimp only at visited
    rw [if_pos (by omega),Option.isSome_map,Nat.add_sub_cancel_left,Nat.add_sub_cancel_left] at visited
    exact visited
  · intro full
    rintro ⟨cells,rowIndex⟩ _
    refine (mapM_isSome _ _).mpr ?_
    rintro ⟨cell,colIndex⟩ _
    dsimp only
    split
    · rename_i inside
      rw [Option.isSome_map]
      exact full _ (by omega) _ (by omega)
    · rfl

theorem length_splitOn (separator : Char) (line : Text) : (line.splitOn separator).length = line.count separator + 1 := by
  induction line with
  | nil => rfl
  | cons c rest ih =>
    rw [splitOn_cons_eq_if_modifyHead,count_cons]
    split
    · rw [length_cons,ih]
    · rw [length_modifyHead,ih,Nat.add_zero]

theorem full_iff (cells : List (List SheetCell)) (some_ : ∀ row ∈ cells, row ≠ []) :
    (⟨cells,cells.length,max (longestRow cells) 1⟩ : ClipboardPayload).Full ↔
      ∀ row ∈ cells, ∀ other ∈ cells, row.length = other.length := by
  have longest : ∀ row ∈ cells, row.length ≤ longestRow cells := fun row member => le_foldl_max (f := List.length) member 0
  constructor
  · have reach : (⟨cells,cells.length,max (longestRow cells) 1⟩ : ClipboardPayload).Full →
        ∀ row ∈ cells, ∀ other ∈ cells, other.length ≤ row.length := by
      intro full row member other among
      obtain ⟨i,there⟩ := mem_iff_getElem?.mp member
      have low := (List.getElem?_eq_some_iff.mp there).1
      by_contra shorter
      have here := full i low row.length (by have := longest other among; dsimp only; omega)
      rw [cellIn,there,Option.bind_some,getElem?_eq_none (Nat.le_refl _)] at here
      cases here
    intro full row member other among
    exact Nat.le_antisymm (reach full other among row member) (reach full row member other among)
  · intro even row low col left
    have there := getElem?_eq_getElem low
    have member := getElem_mem low
    dsimp only at low left
    have filled := length_pos_of_ne_nil (some_ _ member)
    have width : longestRow cells ≤ cells[row].length := by
      have most : ∀ (rest : List (List SheetCell)) (start : Nat), (∀ other ∈ rest, other.length ≤ cells[row].length) →
          start ≤ cells[row].length → rest.foldl (fun longest other => max longest other.length) start ≤ cells[row].length := by
        intro rest
        induction rest with
        | nil => exact fun start _ bounded => bounded
        | cons first rest ih =>
          exact fun start short bounded => ih _ (fun other later => short other (mem_cons_of_mem _ later))
            (Nat.max_le.mpr ⟨bounded,short first mem_cons_self⟩)
      exact most cells 0 (fun other among => Nat.le_of_eq (even other among _ member)) (Nat.zero_le _)
    rw [cellIn,there,Option.bind_some,getElem?_eq_getElem (by omega)]
    rfl

theorem tsv_full (env : Env) (text : Text) : (tsvToClipboardPayload env text).Full ↔
    ∀ line ∈ pastedLines text, ∀ other ∈ pastedLines text, line.count '\t' = other.count '\t' := by
  rw [tsvToClipboardPayload,full_iff]
  · simp only [forall_mem_map,length_map,length_splitOn,Nat.add_right_cancel_iff]
  · intro row member
    obtain ⟨line,_,rfl⟩ := mem_map.mp member
    simp only [ne_eq,map_eq_nil_iff]
    exact splitOn_ne_nil _ _

theorem pasteRange_isSome (env : Env) (workbook : SpreadsheetWorkbook) (sheetIndex : Nat) (target : GridCell) (payload : ClipboardPayload)
    (mode : PasteMode) (transpose : Bool) :
    (pasteRangeIntoWorkbook env workbook sheetIndex target payload mode transpose).isSome ↔
      workbook.sheets.length ≤ sheetIndex ∨ (if transpose then transposeClipboardPayload payload else payload).Full := by
  rw [pasteRangeIntoWorkbook,Option.isSome_map,mapM_isSome]
  constructor
  · intro pasted
    rcases Nat.lt_or_ge sheetIndex workbook.sheets.length with inside | outside
    · have here := pasted (workbook.sheets[sheetIndex],sheetIndex) (mem_zipIdx_iff_getElem?.mpr (getElem?_eq_getElem inside))
      dsimp only at here
      rw [if_pos rfl,pasteInSheet_isSome] at here
      exact .inr here
    · exact .inl outside
  · intro condition
    rintro ⟨sheet,index⟩ member
    dsimp only
    split
    · rename_i here
      subst index
      have inside := (List.getElem?_eq_some_iff.mp (mem_zipIdx_iff_getElem?.mp member)).1
      rcases condition with outside | full
      · dsimp only at inside
        omega
      · exact (pasteInSheet_isSome env target _ mode sheet).mpr full
    · rfl

theorem paste_safe_iff (env : Env) (workbook : SpreadsheetWorkbook) (sheetIndex : Nat) (target : GridCell) (text : Text)
    (mode : PasteMode) (transpose : Bool) :
    (pasteRangeIntoWorkbook env workbook sheetIndex target (tsvToClipboardPayload env text) mode transpose).isSome ↔
      workbook.sheets.length ≤ sheetIndex ∨ transpose = true ∨
      ∀ line ∈ pastedLines text, ∀ other ∈ pastedLines text, line.count '\t' = other.count '\t' := by
  rw [pasteRange_isSome]
  refine or_congr Iff.rfl ?_
  cases transpose with
  | true => exact iff_of_true (transposed_full _) (.inl rfl)
  | false =>
    rw [if_neg Bool.false_ne_true,tsv_full]
    exact ⟨.inr,fun either => either.resolve_left Bool.false_ne_true⟩

theorem paste_throws : (pasteRangeIntoWorkbook plainEnv (ofSheets [⟨"Sheet1".toList,[],none,none,none,[]⟩]) 0 ⟨0,0⟩
    (tsvToClipboardPayload plainEnv "a\tb\n".toList) .all false).isSome = false := by
  rw [← Bool.not_eq_true,pasteRange_isSome]
  rintro (outside | full)
  · exact absurd outside (by decide)
  · exact absurd ((tsv_full _ _).mp full ['a','\t','b'] (by decide) [] (by decide)) (by decide)

end

end Ownly.Sheets
