import Ownly.Sheets.Ranges
import Mathlib.Data.List.TakeDrop

-- The extent of a sheet: what padding the grid and trimming it for a save keep, and where.
namespace Ownly.Sheets
open List Option

-- Both counts are one more than `maxRow` and `maxCol` of the source.
def trimSheetForSave (sheet : SheetData) : SheetData :=
  let rowCount := max (usedRowCount sheet.rows) (storedCustomRowExtent sheet.rowHeights)
  let columnCount := max (usedColumnCount sheet.rows) (storedCustomColumnExtent sheet.columnWidths)
  if rowCount = 0 ∨ columnCount = 0 then
    {sheet with rows := [[emptySheetCell]],columnWidths := none,rowHeights := none}
  else
    {sheet with
      rows := (sheet.rows.take rowCount).map (padRow · columnCount)
      columnWidths := sheet.columnWidths.map (List.take columnCount)
      rowHeights := sheet.rowHeights.map (List.take rowCount)}

section
variable {α : Type} {p : α → Bool} {xs : List α} {x : α} {i : Nat}

theorem lt_usedLength (found : xs[i]? = some x) (holds : p x = true) : i < usedLength p xs := by
  induction xs generalizing i with
  | nil => cases found
  | cons first rest ih =>
    rw [usedLength]
    cases i with
    | zero =>
      cases found
      rw [if_pos (.inr holds)]
      exact Nat.succ_pos _
    | succ i =>
      have later := ih found
      rw [if_pos (.inl (by omega))]
      exact Nat.succ_lt_succ later

theorem usedLength_pos (used : usedLength p xs ≠ 0) : ∃ (i : Nat) (x : α), xs[i]? = some x ∧ p x = true := by
  induction xs with
  | nil => exact absurd rfl used
  | cons first rest ih =>
    by_cases later : usedLength p rest = 0
    · by_cases holds : p first = true
      · exact ⟨0,first,rfl,holds⟩
      · exact absurd (by rw [usedLength,if_neg (by simp [later,holds])]) used
    · obtain ⟨i,x,found,holds⟩ := ih later
      exact ⟨i + 1,x,found,holds⟩

theorem le_foldl_max {f : α → Nat} (member : x ∈ xs) (start : Nat) : f x ≤ xs.foldl (fun most x => max most (f x)) start := by
  have grows : ∀ (xs : List α) (start : Nat), start ≤ xs.foldl (fun most x => max most (f x)) start := by
    intro xs
    induction xs with
    | nil => exact fun start => Nat.le_refl start
    | cons first rest ih => exact fun start => Nat.le_trans (Nat.le_max_left _ _) (ih _)
  induction xs generalizing start with
  | nil => cases member
  | cons first rest ih =>
    rcases mem_cons.mp member with rfl | later
    · exact Nat.le_trans (Nat.le_max_right _ _) (grows rest _)
    · exact ih later _

theorem foldl_max_pos {f : α → Nat} (positive : xs.foldl (fun most x => max most (f x)) 0 ≠ 0) : ∃ x ∈ xs, f x ≠ 0 := by
  by_contra none_
  have zeros : ∀ x ∈ xs, f x = 0 := fun x member => by_contra (fun some_ => none_ ⟨x,member,some_⟩)
  refine positive ?_
  clear positive none_
  induction xs with
  | nil => rfl
  | cons first rest ih =>
    rw [foldl_cons,zeros first mem_cons_self]
    exact ih (fun x member => zeros x (mem_cons_of_mem _ member))

end

theorem mapSheet_at (workbook : SpreadsheetWorkbook) (index : Rat) (change : SheetData → SheetData) (i : Nat) :
    (mapSheet workbook index change)[i]? = workbook.sheets[i]?.map (fun sheet => if (i : Rat) = index then change sheet else sheet) := by
  rw [mapSheet,getElem?_mapIdx]

def cellIn (rows : List (List SheetCell)) (row col : Nat) : Option SheetCell := (rows[row]?).bind (fun cells => cells[col]?)

section
variable {rows : List (List SheetCell)} {row col : Nat} {cell : SheetCell} {sheet : SheetData}

theorem cellAt_cellIn (rows : List (List SheetCell)) (row col : Nat) : cellAt rows row col = (cellIn rows row col).getD emptySheetCell := rfl

theorem cellIn_some : cellIn rows row col = some cell ↔ ∃ cells, rows[row]? = some cells ∧ cells[col]? = some cell :=
  bind_eq_some_iff

theorem cellIn_mapCells (rows : List (List SheetCell)) (change : Nat → Nat → SheetCell → SheetCell) (row col : Nat) :
    cellIn (mapCells rows change) row col = (cellIn rows row col).map (change row col) := by
  rw [cellIn,cellIn,mapCells,getElem?_mapIdx]
  cases rows[row]? with
  | none => rfl
  | some cells => simp only [map_some,bind_some,getElem?_mapIdx]

theorem getElem?_padRow (cells : List SheetCell) (columnCount col : Nat) :
    (padRow cells columnCount)[col]? = if col < columnCount then some ((cells[col]?).getD emptySheetCell) else none := by
  rw [padRow,getElem?_take]
  split
  · rename_i inside
    rcases Nat.lt_or_ge col cells.length with within | past
    · rw [getElem?_append_left within,getElem?_eq_getElem within,getD_some]
    · rw [getElem?_append_right past,getElem?_replicate,if_pos (by omega),getElem?_eq_none past,getD_none]
  · rfl

theorem cellIn_padSheetToSize (sheet : SheetData) (rowCount columnCount row col : Nat) :
    cellIn (padSheetToSize sheet rowCount columnCount).rows row col =
      if row < rowCount ∧ col < columnCount then some (cellAt sheet.rows row col) else none := by
  rw [cellIn,padSheetToSize]
  simp only [getElem?_map]
  by_cases inside : row < rowCount
  · rw [getElem?_range inside]
    simp only [map_some,bind_some,getElem?_padRow,inside,true_and]
    split
    · rw [cellAt,getD_eq_getElem?_getD]
      cases sheet.rows[row]? <;> rfl
    · rfl
  · rw [getElem?_eq_none (by simpa using inside),if_neg (fun both => inside both.1)]
    rfl

theorem inside_target (found : cellIn rows row col = some cell) (columnWidths rowHeights : Dimensions) :
    row < targetGridRowCount rows rowHeights ∧ col < targetGridColumnCount rows columnWidths := by
  obtain ⟨cells,there,here⟩ := cellIn_some.mp found
  have low := (List.getElem?_eq_some_iff.mp there).1
  have left := (List.getElem?_eq_some_iff.mp here).1
  have longest : cells.length ≤ longestRow rows := le_foldl_max (f := List.length) (mem_of_getElem? there) 0
  rw [targetGridRowCount,targetGridColumnCount]
  omega

theorem cellIn_normalizeSheetGrid (found : cellIn sheet.rows row col = some cell) :
    cellIn (normalizeSheetGrid sheet).rows row col = some cell := by
  rw [normalizeSheetGrid,cellIn_padSheetToSize,if_pos (inside_target found _ _),cellAt_cellIn,found]
  rfl

theorem cellAt_padded (rows : List (List SheetCell)) (found : ∀ cell, cellIn rows row col = some cell → row < rowCount ∧ col < columnCount)
    (same : rows = sheet.rows) : cellAt (padSheetToSize sheet rowCount columnCount).rows row col = cellAt sheet.rows row col := by
  subst same
  rw [cellAt_cellIn,cellIn_padSheetToSize]
  split
  · rfl
  · rename_i outside
    cases there : cellIn sheet.rows row col with
    | none => rw [cellAt_cellIn,there]
    | some cell => exact absurd (found cell there) outside

theorem cellAt_expandSheetToAddress (sheet : SheetData) (toRow toCol row col : Nat) :
    cellAt (expandSheetToAddress sheet toRow toCol).rows row col = cellAt sheet.rows row col := by
  refine cellAt_padded sheet.rows (fun cell found => ?_) rfl
  have inside := inside_target found sheet.columnWidths sheet.rowHeights
  omega

theorem cellIn_expandSheetToAddress (sheet : SheetData) {toRow toCol row col : Nat} (low : row ≤ toRow) (left : col ≤ toCol) :
    cellIn (expandSheetToAddress sheet toRow toCol).rows row col = some (cellAt sheet.rows row col) := by
  rw [expandSheetToAddress,cellIn_padSheetToSize,if_pos (by omega)]

end

-- What a user may have entered: what cellHasContent looks at, a comment or a link.
def carries (cell : SheetCell) : Bool := cellHasContent cell || truthy cell.comment || truthy cell.hyperlink

-- What a user entered is there, at its place and as it was.
structure Keeps (before after : SheetData) : Prop where
  cells : ∀ row col cell, cellIn before.rows row col = some cell → carries cell = true → cellIn after.rows row col = some cell
  widths : ∀ (widths : List (Option Rat)) (i : Nat) (width : Option Rat), before.columnWidths = some widths → widths[i]? = some width →
    isDefaultSize gridDefaultColWidth width = false → ∃ kept, after.columnWidths = some kept ∧ kept[i]? = some width
  heights : ∀ (heights : List (Option Rat)) (i : Nat) (height : Option Rat), before.rowHeights = some heights → heights[i]? = some height →
    isDefaultSize gridDefaultRowHeight height = false → ∃ kept, after.rowHeights = some kept ∧ kept[i]? = some height

-- Comments and links lie within the used range, and with no content sizes are set on both
-- axes or on none.
structure Trimmable (sheet : SheetData) : Prop where
  notes : ∀ row col cell, cellIn sheet.rows row col = some cell → (truthy cell.comment || truthy cell.hyperlink) = true →
    row < max (usedRowCount sheet.rows) (storedCustomRowExtent sheet.rowHeights) ∧
    col < max (usedColumnCount sheet.rows) (storedCustomColumnExtent sheet.columnWidths)
  sizes : (∀ row col cell, cellIn sheet.rows row col = some cell → cellHasContent cell = false) →
    (storedCustomRowExtent sheet.rowHeights = 0 ↔ storedCustomColumnExtent sheet.columnWidths = 0)

section
variable {sheet : SheetData} {row col i : Nat} {cell : SheetCell} {default : Rat} {sizes : List (Option Rat)} {size : Option Rat}

theorem content_used (found : cellIn sheet.rows row col = some cell) (content : cellHasContent cell = true) :
    row < usedRowCount sheet.rows ∧ col < usedColumnCount sheet.rows := by
  obtain ⟨cells,there,here⟩ := cellIn_some.mp found
  have filled : rowHasContent cells = true := any_eq_true.mpr ⟨cell,mem_of_getElem? here,content⟩
  have wide : usedLength cellHasContent cells ≤ usedColumnCount sheet.rows :=
    le_foldl_max (f := usedLength cellHasContent) (mem_of_getElem? there) 0
  exact ⟨lt_usedLength there filled,Nat.lt_of_lt_of_le (lt_usedLength here content) wide⟩

theorem unused (empty : ∀ row col cell, cellIn sheet.rows row col = some cell → cellHasContent cell = false) :
    usedRowCount sheet.rows = 0 ∧ usedColumnCount sheet.rows = 0 := by
  constructor
  · by_contra used
    obtain ⟨row,cells,there,filled⟩ := usedLength_pos used
    obtain ⟨cell,member,content⟩ := any_eq_true.mp filled
    obtain ⟨col,here⟩ := mem_iff_getElem?.mp member
    exact absurd content (by rw [empty row col cell (cellIn_some.mpr ⟨cells,there,here⟩)]; exact Bool.false_ne_true)
  · by_contra used
    obtain ⟨cells,member,some_⟩ := foldl_max_pos used
    obtain ⟨row,there⟩ := mem_iff_getElem?.mp member
    obtain ⟨col,cell,here,content⟩ := usedLength_pos some_
    exact absurd content (by rw [empty row col cell (cellIn_some.mpr ⟨cells,there,here⟩)]; exact Bool.false_ne_true)

theorem custom_extent (found : sizes[i]? = some size) (custom : isDefaultSize default size = false) :
    i < storedCustomExtent default (some sizes) := lt_usedLength found (by rw [custom]; rfl)

theorem extent_custom {dimensions : Dimensions} (some_ : storedCustomExtent default dimensions ≠ 0) :
    ∃ (sizes : List (Option Rat)) (i : Nat) (size : Option Rat), dimensions = some sizes ∧ sizes[i]? = some size ∧ isDefaultSize default size = false := by
  cases dimensions with
  | none => exact absurd rfl some_
  | some sizes =>
    obtain ⟨i,size,found,custom⟩ := usedLength_pos some_
    exact ⟨sizes,i,size,rfl,found,by simpa using custom⟩

theorem cellIn_trimmed (rowCount columnCount : Nat) (found : cellIn sheet.rows row col = some cell) (low : row < rowCount)
    (left : col < columnCount) : cellIn ((sheet.rows.take rowCount).map (padRow · columnCount)) row col = some cell := by
  obtain ⟨cells,there,here⟩ := cellIn_some.mp found
  rw [cellIn,getElem?_map,getElem?_take_of_lt low,there]
  simp only [map_some,bind_some,getElem?_padRow,if_pos left,here,getD_some]

theorem trim_empty (empty : max (usedRowCount sheet.rows) (storedCustomRowExtent sheet.rowHeights) = 0 ∨
    max (usedColumnCount sheet.rows) (storedCustomColumnExtent sheet.columnWidths) = 0) :
    trimSheetForSave sheet = {sheet with rows := [[emptySheetCell]],columnWidths := none,rowHeights := none} := if_pos empty

theorem trim_some (some_ : ¬(max (usedRowCount sheet.rows) (storedCustomRowExtent sheet.rowHeights) = 0 ∨
    max (usedColumnCount sheet.rows) (storedCustomColumnExtent sheet.columnWidths) = 0)) :
    trimSheetForSave sheet = {sheet with
      rows := (sheet.rows.take (max (usedRowCount sheet.rows) (storedCustomRowExtent sheet.rowHeights))).map
        (padRow · (max (usedColumnCount sheet.rows) (storedCustomColumnExtent sheet.columnWidths)))
      columnWidths := sheet.columnWidths.map (List.take (max (usedColumnCount sheet.rows) (storedCustomColumnExtent sheet.columnWidths)))
      rowHeights := sheet.rowHeights.map (List.take (max (usedRowCount sheet.rows) (storedCustomRowExtent sheet.rowHeights)))} :=
  if_neg some_

theorem trim_outside (outside : ¬(row < max (usedRowCount sheet.rows) (storedCustomRowExtent sheet.rowHeights) ∧
    col < max (usedColumnCount sheet.rows) (storedCustomColumnExtent sheet.columnWidths)))
    (found : cellIn (trimSheetForSave sheet).rows row col = some cell) : cell = emptySheetCell := by
  obtain ⟨cells,there,here⟩ := cellIn_some.mp found
  by_cases empty : max (usedRowCount sheet.rows) (storedCustomRowExtent sheet.rowHeights) = 0 ∨
      max (usedColumnCount sheet.rows) (storedCustomColumnExtent sheet.columnWidths) = 0
  · rw [trim_empty empty] at there
    obtain rfl := mem_singleton.mp (mem_of_getElem? there)
    exact mem_singleton.mp (mem_of_getElem? here)
  · rw [trim_some empty,getElem?_map] at there
    obtain ⟨old,kept,rfl⟩ := map_eq_some_iff.mp there
    have low := (List.getElem?_eq_some_iff.mp kept).1
    have left := (List.getElem?_eq_some_iff.mp here).1
    simp only [length_take,padRow] at low left
    omega

theorem keeps_of_trimmable (trimmable : Trimmable sheet) : Keeps sheet (normalizeSheetGrid (trimSheetForSave sheet)) := by
  by_cases empty : max (usedRowCount sheet.rows) (storedCustomRowExtent sheet.rowHeights) = 0 ∨
      max (usedColumnCount sheet.rows) (storedCustomColumnExtent sheet.columnWidths) = 0
  · have bare : ∀ row col cell, cellIn sheet.rows row col = some cell → cellHasContent cell = false := by
      intro row col cell found
      by_contra content
      have used := content_used found (Bool.not_eq_false _ ▸ content)
      omega
    have none_ := unused bare
    have both := trimmable.sizes bare
    refine ⟨fun row col cell found carried => ?_,fun widths i width stored found custom => ?_,fun heights i height stored found custom => ?_⟩
    · simp only [carries,bare row col cell found,Bool.false_or] at carried
      have inside := trimmable.notes row col cell found carried
      omega
    · have extent := custom_extent found custom
      rw [← stored] at extent
      rw [storedCustomColumnExtent] at both empty
      omega
    · have extent := custom_extent found custom
      rw [← stored] at extent
      rw [storedCustomRowExtent] at both empty
      omega
  · rw [trim_some empty]
    refine ⟨fun row col cell found carried => cellIn_normalizeSheetGrid ?_,fun widths i width stored found custom => ?_,
      fun heights i height stored found custom => ?_⟩
    · have inside : row < max (usedRowCount sheet.rows) (storedCustomRowExtent sheet.rowHeights) ∧
          col < max (usedColumnCount sheet.rows) (storedCustomColumnExtent sheet.columnWidths) := by
        cases content : cellHasContent cell with
        | true =>
          have used := content_used found content
          omega
        | false =>
          rw [carries,content,Bool.false_or] at carried
          exact trimmable.notes row col cell found carried
      exact cellIn_trimmed _ _ found inside.1 inside.2
    · have extent : i < storedCustomColumnExtent (some widths) := custom_extent found custom
      refine ⟨_,by simp only [normalizeSheetGrid,padSheetToSize,stored]; rfl,?_⟩
      rw [getElem?_take_of_lt (by omega),found]
    · have extent : i < storedCustomRowExtent (some heights) := custom_extent found custom
      refine ⟨_,by simp only [normalizeSheetGrid,padSheetToSize,stored]; rfl,?_⟩
      rw [getElem?_take_of_lt (by omega),found]

theorem trimmable_of_keeps (keeps : Keeps sheet (normalizeSheetGrid (trimSheetForSave sheet))) : Trimmable sheet := by
  constructor
  · intro row col cell found noted
    by_contra outside
    have kept := keeps.cells row col cell found (by rw [carries,Bool.or_assoc,noted,Bool.or_true])
    rw [normalizeSheetGrid,cellIn_padSheetToSize] at kept
    split at kept
    · have same := Option.some.inj kept
      have empty : cell = emptySheetCell := by
        rw [cellAt_cellIn] at same
        cases there : cellIn (trimSheetForSave sheet).rows row col with
        | none => rw [← same,there]; rfl
        | some left =>
          rw [← same,there]
          exact trim_outside outside there
      rw [empty] at noted
      cases noted
    · cases kept
  · intro bare
    have none_ := unused bare
    constructor
    · intro rows
      by_contra custom
      obtain ⟨widths,i,width,stored,found,other⟩ := extent_custom custom
      obtain ⟨kept,after,_⟩ := keeps.widths widths i width stored found other
      rw [trim_empty (.inl (by omega))] at after
      cases after
    · intro cols
      by_contra custom
      obtain ⟨heights,i,height,stored,found,other⟩ := extent_custom custom
      obtain ⟨kept,after,_⟩ := keeps.heights heights i height stored found other
      rw [trim_empty (.inr (by omega))] at after
      cases after

theorem trim_keeps_iff (sheet : SheetData) : Keeps sheet (normalizeSheetGrid (trimSheetForSave sheet)) ↔ Trimmable sheet :=
  ⟨trimmable_of_keeps,keeps_of_trimmable⟩

def commented : SheetData := ⟨"Sheet1".toList,[[{emptySheetCell with comment := some "note".toList}]],none,none,none,[]⟩

theorem comment_trimmed : ¬Keeps commented (normalizeSheetGrid (trimSheetForSave commented)) := by
  intro keeps
  have inside := (trimmable_of_keeps keeps).notes 0 0 {emptySheetCell with comment := some "note".toList} rfl rfl
  exact absurd inside.1 (by decide)

end

end Ownly.Sheets
