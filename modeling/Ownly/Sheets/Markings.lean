import Mathlib.Algebra.Order.Archimedean.Basic
import Mathlib.Data.Rat.Cast.Order
import Ownly.Sheets.Ranges

-- Row and column edits of workbook-ops.ts, and what a sheet says about its cells by their
-- coordinates. A position outside of the rows is that of an empty cell.
namespace Ownly.Sheets
open Collab (Text Value Fields)
open List Option

inductive LineEdit where
  | insertRow (atRow : Nat)
  | deleteRow (atRow : Nat)
  | insertColumn (atCol : Nat)
  | deleteColumn (atCol : Nat)
  deriving DecidableEq, Repr

def LineEdit.apply (edit : LineEdit) (sheet : SheetData) : SheetData :=
  match edit with
  | .insertRow atRow => insertRowInSheet atRow sheet
  | .deleteRow atRow => deleteRowInSheet atRow sheet
  | .insertColumn atCol => insertColumnInSheet atCol sheet
  | .deleteColumn atCol => deleteColumnInSheet atCol sheet

def pushed (position i : Nat) : Nat := if i < position then i else i + 1

def pulled (position i : Nat) : Option Nat := if i = position then none else some (if i < position then i else i - 1)

def rowLength (rows : List (List SheetCell)) (row : Nat) : Nat := ((rows[row]?).map List.length).getD 0

-- Where a cell goes, none for one that is deleted. The last row is not deleted, nor the last
-- cell of a row.
def LineEdit.moved (edit : LineEdit) (sheet : SheetData) (row col : Nat) : Option (Nat × Nat) :=
  match edit with
  | .insertRow atRow => some (pushed atRow row,col)
  | .deleteRow atRow => if sheet.rows.length ≤ 1 then some (row,col) else (pulled atRow row).map (·,col)
  | .insertColumn atCol => some (row,pushed atCol col)
  | .deleteColumn atCol => if rowLength sheet.rows row ≤ 1 then some (row,col) else (pulled atCol col).map (row,·)

section
variable {α : Type} {xs : List α} {x : α} {position i j : Nat}

theorem spliceStart_nat (position length : Nat) : spliceStart (position : Rat) length = min position length := by
  have whole : (position : Rat).num.tdiv ((position : Rat).den : Int) = position := by simp
  unfold spliceStart
  simp only [whole]
  rw [if_neg (by omega),Int.toNat_natCast]

theorem getElem?_spliceIn : (spliceIn xs (position : Rat) x)[i]? =
    if i < min position xs.length then xs[i]? else if i = min position xs.length then some x else xs[i - 1]? := by
  unfold spliceIn
  simp only [spliceStart_nat]
  have long : (xs.take (min position xs.length)).length = min position xs.length := by simp
  rcases Nat.lt_trichotomy i (min position xs.length) with before | rfl | behind
  · rw [if_pos before,getElem?_append_left (by omega),getElem?_take_of_lt before]
  · rw [if_neg (Nat.lt_irrefl _),if_pos rfl,getElem?_append_right (by omega),long,Nat.sub_self,getElem?_cons_zero]
  · rw [if_neg (by omega),if_neg (by omega),getElem?_append_right (by omega),long]
    obtain ⟨k,rfl⟩ := Nat.exists_eq_add_of_lt behind
    rw [show min position xs.length + k + 1 - min position xs.length = k + 1 by omega,getElem?_cons_succ,getElem?_drop]
    congr 1

theorem withoutIndex_nat : withoutIndex xs (position : Rat) = xs.eraseIdx position := by
  have each : ∀ start : Nat, ((xs.zipIdx start).filter (fun entry => decide ((entry.2 : Rat) ≠ (position : Rat)))).map Prod.fst =
      if start ≤ position then xs.eraseIdx (position - start) else xs := by
    induction xs with
    | nil => simp
    | cons first rest ih =>
      intro start
      rw [zipIdx_cons,filter_cons]
      rcases Nat.lt_trichotomy start position with before | rfl | behind
      · have differ : (start : Rat) ≠ (position : Rat) := by exact_mod_cast Nat.ne_of_lt before
        obtain ⟨k,rfl⟩ := Nat.exists_eq_add_of_lt before
        simp only [differ,ne_eq,not_false_eq_true,decide_true,if_true,map_cons,ih]
        rw [if_pos (by omega),if_pos (by omega),show start + k + 1 - start = k + 1 by omega,
          show start + k + 1 - (start + 1) = k by omega,eraseIdx_cons_succ]
      · simp only [ne_eq,not_true_eq_false,decide_false,Bool.false_eq_true,if_false,ih]
        rw [if_neg (by omega),if_pos (Nat.le_refl _),Nat.sub_self,eraseIdx_cons_zero]
      · have differ : (start : Rat) ≠ (position : Rat) := by exact_mod_cast Nat.ne_of_gt behind
        simp only [differ,ne_eq,not_false_eq_true,decide_true,if_true,map_cons,ih]
        rw [if_neg (by omega),if_neg (by omega)]
  simpa [withoutIndex] using each 0

theorem spliceIn_pushed : ((spliceIn xs (position : Rat) x)[pushed position i]?).getD x = (xs[i]?).getD x := by
  rw [getElem?_spliceIn]
  rcases Nat.lt_or_ge i position with before | behind
  · have stays : pushed position i = i := if_pos before
    rw [stays]
    rcases Nat.lt_trichotomy i xs.length with inside | rfl | outside
    · rw [if_pos (by omega)]
    · rw [if_neg (by omega),if_pos (by omega)]
      simp
    · rw [if_neg (by omega),if_neg (by omega),getElem?_eq_none (by omega),getElem?_eq_none (by omega)]
  · have moves : pushed position i = i + 1 := if_neg (by omega)
    rw [moves,if_neg (by omega),if_neg (by omega),Nat.add_sub_cancel]

theorem eraseIdx_pulled (survives : pulled position i = some j) : (xs.eraseIdx position)[j]? = xs[i]? := by
  unfold pulled at survives
  split at survives
  · cases survives
  · have target := Option.some.inj survives
    rw [getElem?_eraseIdx]
    rcases Nat.lt_or_ge i position with before | behind
    · rw [if_pos before] at target
      rw [if_pos (by omega),target]
    · rw [if_neg (by omega)] at target
      rw [if_neg (by omega)]
      congr 1
      omega

theorem pushed_inj (same : pushed position i = pushed position j) : i = j := by
  unfold pushed at same
  split at same <;> split at same <;> omega

theorem pulled_inj {k : Nat} (left : pulled position i = some k) (right : pulled position j = some k) : i = j := by
  unfold pulled at left right
  split at left <;> split at right <;> simp_all
  split at left <;> split at right <;> omega

variable (held : Nat → Prop)

theorem pushed_fixed (follows : ∀ i, held i ↔ held (pushed position i)) (ends : ∃ k, ¬held (i + k)) (here : held i) :
    pushed position i = i := by
  by_contra moved
  have behind : position ≤ i := by
    unfold pushed at moved
    split at moved <;> omega
  have all : ∀ k, held (i + k) := by
    intro k
    induction k with
    | zero => exact here
    | succ k ih =>
      have next := (follows (i + k)).mp ih
      unfold pushed at next
      rwa [if_neg (by omega)] at next
  obtain ⟨k,off⟩ := ends
  exact off (all k)

theorem pulled_fixed (follows : ∀ i j, pulled position i = some j → (held i ↔ held j))
    (survives : ∀ i, held i → (pulled position i).isSome) (here : held i) : pulled position i = some i := by
  have kept : i ≠ position := by
    rintro rfl
    simpa [pulled] using survives i here
  have before : i < position := by
    by_contra behind
    have all : ∀ k, held (position + k + 1) → held (position + 1) := by
      intro k
      induction k with
      | zero => exact id
      | succ k ih => 
        intro later
        refine ih ((follows _ _ ?_).mp later)
        unfold pulled
        rw [if_neg (by omega),if_neg (by omega)]
        rfl
    have next : held (position + 1) := all (i - position - 1) (by rwa [show position + (i - position - 1) + 1 = i by omega])
    have gone : held position := (follows (position + 1) position (by simp [pulled])).mp next
    simpa [pulled] using survives position gone
  unfold pulled
  rw [if_neg kept,if_pos before]

end

theorem cellAt_row (rows : List (List SheetCell)) (cols row col : Nat) :
    cellAt rows row col = (((rows[row]?).getD (emptyRow cols))[col]?).getD emptySheetCell := by
  unfold cellAt
  cases rows[row]? with
  | none =>
    simp only [bind_none,getD_none,emptyRow,getElem?_replicate]
    split <;> rfl
  | some cells => rfl

theorem cellAt_padRows (rows : List (List SheetCell)) (minRows minCols row col : Nat) :
    cellAt (padRows rows minRows minCols) row col = cellAt rows row col := by
  let cols := max (max minCols (longestRow rows)) 1
  have next : padRows rows minRows minCols = rows.map (fun row => row ++ emptyRow (cols - row.length)) ++
      List.replicate (minRows - (rows.map (fun row => row ++ emptyRow (cols - row.length))).length) (emptyRow cols) := rfl
  rw [next,cellAt_row rows cols,cellAt_row _ cols]
  rcases Nat.lt_or_ge row rows.length with inside | outside
  · rw [getElem?_append_left (by simpa using inside),getElem?_map,getElem?_eq_getElem inside]
    simp only [map_some,getD_some,emptyRow]
    rcases Nat.lt_or_ge col rows[row].length with within | past
    · rw [getElem?_append_left within]
    · rw [getElem?_append_right past,getElem?_replicate,getElem?_eq_none past]
      split <;> rfl
  · rw [getElem?_append_right (by simpa using outside),getElem?_replicate,getElem?_eq_none outside]
    split <;> rfl

section
variable {edit : LineEdit} {sheet : SheetData} {row col row' col' : Nat}

theorem cells_moved (moves : edit.moved sheet row col = some (row',col')) :
    cellAt (edit.apply sheet).rows row' col' = cellAt sheet.rows row col := by
  cases edit with
  | insertRow atRow =>
    cases moves
    simp only [LineEdit.apply,insertRowInSheet,cellAt_padRows]
    rw [cellAt_row _ (max (longestRow sheet.rows) gridMinColumnCount),spliceIn_pushed,← cellAt_row]
  | deleteRow atRow =>
    simp only [LineEdit.moved] at moves
    simp only [LineEdit.apply,deleteRowInSheet]
    split at moves
    · cases moves
      rw [if_pos (by assumption)]
    · obtain ⟨j,pulls,same⟩ := map_eq_some_iff.mp moves
      cases same
      rw [if_neg (by assumption)]
      simp only [cellAt,withoutIndex_nat,eraseIdx_pulled pulls]
  | insertColumn atCol =>
    cases moves
    simp only [LineEdit.apply,insertColumnInSheet,cellAt,getElem?_map]
    cases sheet.rows[row]? with
    | none => rfl
    | some cells => exact spliceIn_pushed
  | deleteColumn atCol =>
    simp only [LineEdit.moved,rowLength] at moves
    simp only [LineEdit.apply,deleteColumnInSheet,cellAt,getElem?_map]
    cases found : sheet.rows[row]? with
    | none =>
      simp only [found,map_none,getD_none,Nat.zero_le,if_true] at moves
      cases moves
      rw [found]
      rfl
    | some cells =>
      simp only [found,map_some,getD_some] at moves
      split at moves
      · cases moves
        simp only [found,map_some,bind_some]
        rw [if_pos (by assumption)]
      · obtain ⟨j,pulls,same⟩ := map_eq_some_iff.mp moves
        cases same
        simp only [found,map_some,bind_some]
        rw [if_neg (by assumption),withoutIndex_nat,eraseIdx_pulled pulls]

theorem moved_row {atCol : Nat} (moves : (LineEdit.deleteColumn atCol).moved sheet row col = some (row',col')) : row' = row := by
  simp only [LineEdit.moved] at moves
  split at moves
  · cases moves
    rfl
  · obtain ⟨i,-,same⟩ := map_eq_some_iff.mp moves
    cases same
    rfl

theorem moved_col {atRow : Nat} (moves : (LineEdit.deleteRow atRow).moved sheet row col = some (row',col')) : col' = col := by
  simp only [LineEdit.moved] at moves
  split at moves
  · cases moves
    rfl
  · obtain ⟨i,-,same⟩ := map_eq_some_iff.mp moves
    cases same
    rfl

theorem moved_inj {place : Nat × Nat} (left : edit.moved sheet row col = some place) (right : edit.moved sheet row' col' = some place) :
    row = row' ∧ col = col' := by
  cases edit with
  | insertRow atRow =>
    have same := left.trans right.symm
    simp only [LineEdit.moved,Option.some.injEq,Prod.mk.injEq] at same
    exact ⟨pushed_inj same.1,same.2⟩
  | insertColumn atCol =>
    have same := left.trans right.symm
    simp only [LineEdit.moved,Option.some.injEq,Prod.mk.injEq] at same
    exact ⟨same.1,pushed_inj same.2⟩
  | deleteRow atRow =>
    simp only [LineEdit.moved] at left right
    by_cases short : sheet.rows.length ≤ 1
    · rw [if_pos short] at left right
      cases left
      cases right
      exact ⟨rfl,rfl⟩
    · rw [if_neg short] at left right
      obtain ⟨i,pulls,rfl⟩ := map_eq_some_iff.mp left
      obtain ⟨j,pulls',same⟩ := map_eq_some_iff.mp right
      cases same
      exact ⟨pulled_inj pulls pulls',rfl⟩
  | deleteColumn atCol =>
    obtain rfl : row = row' := (moved_row left).symm.trans (moved_row right)
    simp only [LineEdit.moved] at left right
    by_cases short : rowLength sheet.rows row ≤ 1
    · rw [if_pos short] at left right
      cases left
      cases right
      exact ⟨rfl,rfl⟩
    · rw [if_neg short] at left right
      obtain ⟨i,pulls,rfl⟩ := map_eq_some_iff.mp left
      obtain ⟨j,pulls',same⟩ := map_eq_some_iff.mp right
      cases same
      exact ⟨rfl,pulled_inj pulls pulls'⟩

end

abbrev Cells := Nat → Nat → Prop

def area (region : MergedRegion) : Cells := inside ⟨⟨region.startRow,region.startCol⟩,⟨region.endRow,region.endCol⟩⟩

def cellValidationKey (row col : Nat) : String := toString row ++ ":" ++ toString col

-- What a sheet says by coordinates, and where it says so. A formula's references go with its cell.
inductive Marking where
  | mergedRegion (index : Nat)
  | table (index : Nat)
  | printArea
  | hiddenRow (index : Nat)
  | hiddenCol (index : Nat)
  | cellValidation (key : String)
  | rowOutlineLevel (key : String)
  | reference (row col index : Nat)
  deriving DecidableEq, Repr

namespace Marking

-- The cells that it is about, for any reading of a formula as areas of its own sheet.
def cells (references : Text → List MergedRegion) (sheet : SheetData) : Marking → Option Cells
  | .mergedRegion index => ((sheet.mergedRegions.getD [])[index]?).map (fun region => area (normalizeMergedRegion region))
  | .table index => ((readItems (Fields.get sheet.others "tables"))[index]?).map (fun table => area (readRegion table))
  | .printArea => (Fields.get sheet.others "printArea").map (fun printArea => area (normalizeMergedRegion (readRegion printArea)))
  | .hiddenRow index => (((readItems (Fields.get sheet.others "hiddenRows"))[index]?).bind readNumber).map
    (fun hidden row _ => (row : Rat) = hidden)
  | .hiddenCol index => (((readItems (Fields.get sheet.others "hiddenCols"))[index]?).bind readNumber).map
    (fun hidden _ col => (col : Rat) = hidden)
  | .cellValidation key => (((Fields.get sheet.others "cellValidations").bind Value.asObject).bind (Fields.get · key)).map
    (fun _ row col => cellValidationKey row col = key)
  | .rowOutlineLevel key => (((Fields.get sheet.others "rowOutlineLevels").bind Value.asObject).bind (Fields.get · key)).map
    (fun _ row _ => toString row = key)
  | .reference row col index => ((cellAt sheet.rows row col).formula.bind (fun formula => (references formula)[index]?)).map area

def moved (edit : LineEdit) (sheet : SheetData) : Marking → Option Marking
  | .reference row col index => (edit.moved sheet row col).map (fun place => .reference place.1 place.2 index)
  | marking => some marking

def across : LineEdit → Marking → Bool
  | .insertRow _,.hiddenCol _ | .deleteRow _,.hiddenCol _ => true
  | .insertColumn _,.hiddenRow _ | .deleteColumn _,.hiddenRow _ => true
  | .insertColumn _,.rowOutlineLevel _ | .deleteColumn _,.rowOutlineLevel _ => true
  | _,_ => false

end Marking

-- A marking that is not deleted with its cell, and none of whose cells is, is about the
-- same ones of the old cells after the edit.
def Follows (references : Text → List MergedRegion) (edit : LineEdit) (sheet : SheetData) (marking : Marking)
    (cells : Cells) : Prop :=
  ∀ marking', marking.moved edit sheet = some marking' →
    (∀ row col, cells row col → (edit.moved sheet row col).isSome) →
    ∃ cells', marking'.cells references (edit.apply sheet) = some cells' ∧
      ∀ row col row' col', edit.moved sheet row col = some (row',col') → (cells row col ↔ cells' row' col')

section
variable {references : Text → List MergedRegion} {edit : LineEdit} {sheet : SheetData} {marking marking' : Marking} {cells : Cells}

theorem markings_stay (edit : LineEdit) (sheet : SheetData) :
    (edit.apply sheet).mergedRegions = sheet.mergedRegions ∧ (edit.apply sheet).others = sheet.others := by
  cases edit with
  | deleteRow atRow =>
    simp only [LineEdit.apply,deleteRowInSheet]
    split <;> exact ⟨rfl,rfl⟩
  | _ => exact ⟨rfl,rfl⟩

theorem cells_stay (moves : marking.moved edit sheet = some marking') :
    marking'.cells references (edit.apply sheet) = marking.cells references sheet := by
  obtain ⟨regions,others⟩ := markings_stay edit sheet
  cases marking with
  | reference row col index =>
    obtain ⟨⟨row',col'⟩,places,rfl⟩ := map_eq_some_iff.mp moves
    simp only [Marking.cells,cells_moved places]
  | _ =>
    cases moves
    simp only [Marking.cells,regions,others]

theorem area_ends (region : MergedRegion) (row col : Nat) :
    (∃ k, ¬area region (row + k) col) ∧ ∃ k, ¬area region row (col + k) := by
  obtain ⟨rows,below⟩ := exists_nat_gt region.endRow
  obtain ⟨cols,beyond⟩ := exists_nat_gt region.endCol
  refine ⟨⟨rows,fun held => ?_⟩,cols,fun held => ?_⟩
  · have reach : ((row + rows : Nat) : Rat) ≤ region.endRow := held.2.1
    have far : (rows : Rat) ≤ ((row + rows : Nat) : Rat) := by exact_mod_cast Nat.le_add_left rows row
    exact absurd (lt_of_lt_of_le below far) (not_lt.mpr reach)
  · have reach : ((col + cols : Nat) : Rat) ≤ region.endCol := held.2.2.2
    have far : (cols : Rat) ≤ ((col + cols : Nat) : Rat) := by exact_mod_cast Nat.le_add_left cols col
    exact absurd (lt_of_lt_of_le beyond far) (not_lt.mpr reach)

theorem toString_inj {m n : Nat} (same : toString m = toString n) : m = n := by
  have digits : Nat.toDigits 10 m = Nat.toDigits 10 n := by
    simpa [toString,Nat.repr] using congrArg String.toList same
  rw [← Nat.ofDigitChars_ten_toDigits (n := m),digits,Nat.ofDigitChars_ten_toDigits]

theorem key_ends (key : String) (row col : Nat) :
    (∃ k, cellValidationKey (row + k) col ≠ key) ∧ ∃ k, cellValidationKey row (col + k) ≠ key := by
  have rows : cellValidationKey row col ≠ cellValidationKey (row + 1) col := by
    intro same
    have chars := congrArg String.toList same
    simp only [cellValidationKey,String.toList_append,append_assoc] at chars
    exact absurd (toString_inj (String.toList_inj.mp (append_cancel_right chars))) (by omega)
  have cols : cellValidationKey row col ≠ cellValidationKey row (col + 1) := by
    intro same
    have chars := congrArg String.toList same
    simp only [cellValidationKey,String.toList_append,append_assoc] at chars
    exact absurd (toString_inj (String.toList_inj.mp (append_cancel_left (append_cancel_left chars)))) (by omega)
  constructor
  · by_cases here : cellValidationKey row col = key
    · exact ⟨1,fun next => rows (here.trans next.symm)⟩
    · exact ⟨0,here⟩
  · by_cases here : cellValidationKey row col = key
    · exact ⟨1,fun next => cols (here.trans next.symm)⟩
    · exact ⟨0,here⟩

theorem number_ends (n : Rat) (i : Nat) : ∃ k, ((i + k : Nat) : Rat) ≠ n := by
  by_cases here : (i : Rat) = n
  · refine ⟨1,fun next => ?_⟩
    have same : i + 1 = i := by exact_mod_cast next.trans here.symm
    omega
  · exact ⟨0,here⟩

section
variable (denoted : marking.cells references sheet = some cells)
include denoted

theorem marking_ends (along : marking.across edit = false)
    (row col : Nat) : match edit with
      | .insertRow _ | .deleteRow _ => ∃ k, ¬cells (row + k) col
      | .insertColumn _ | .deleteColumn _ => ∃ k, ¬cells row (col + k) := by
  cases marking with
  | mergedRegion index =>
    obtain ⟨region,-,rfl⟩ := map_eq_some_iff.mp denoted
    have ends := area_ends (normalizeMergedRegion region) row col
    cases edit <;> simp only [ends]
  | table index =>
    obtain ⟨table,-,rfl⟩ := map_eq_some_iff.mp denoted
    have ends := area_ends (readRegion table) row col
    cases edit <;> simp only [ends]
  | printArea =>
    obtain ⟨printArea,-,rfl⟩ := map_eq_some_iff.mp denoted
    have ends := area_ends (normalizeMergedRegion (readRegion printArea)) row col
    cases edit <;> simp only [ends]
  | reference r c index =>
    obtain ⟨region,-,rfl⟩ := map_eq_some_iff.mp denoted
    have ends := area_ends region row col
    cases edit <;> simp only [ends]
  | cellValidation key =>
    obtain ⟨rule,-,rfl⟩ := map_eq_some_iff.mp denoted
    have ends := key_ends key row col
    cases edit <;> simp only [ends]
  | hiddenRow index =>
    obtain ⟨hidden,-,rfl⟩ := map_eq_some_iff.mp denoted
    cases edit with
    | insertRow => exact number_ends hidden row
    | deleteRow => exact number_ends hidden row
    | _ => cases along
  | hiddenCol index =>
    obtain ⟨hidden,-,rfl⟩ := map_eq_some_iff.mp denoted
    cases edit with
    | insertColumn => exact number_ends hidden col
    | deleteColumn => exact number_ends hidden col
    | _ => cases along
  | rowOutlineLevel key =>
    obtain ⟨level,-,rfl⟩ := map_eq_some_iff.mp denoted
    have ends : ∃ k, ¬toString (row + k) = key := by
      by_cases here : toString row = key
      · exact ⟨1,fun next => absurd (toString_inj (here.trans next.symm)) (by omega)⟩
      · exact ⟨0,here⟩
    cases edit with
    | insertRow => exact ends
    | deleteRow => exact ends
    | _ => cases along

theorem across_same (across : marking.across edit = true)
    {row col row' col' : Nat} (moves : edit.moved sheet row col = some (row',col')) : cells row col ↔ cells row' col' := by
  cases edit with
  | insertRow atRow =>
    cases moves
    cases marking with
    | hiddenCol index =>
      obtain ⟨hidden,-,rfl⟩ := map_eq_some_iff.mp denoted
      exact Iff.rfl
    | _ => cases across
  | deleteRow atRow =>
    have same : col' = col := moved_col moves
    cases marking with
    | hiddenCol index =>
      obtain ⟨hidden,-,rfl⟩ := map_eq_some_iff.mp denoted
      rw [same]
    | _ => cases across
  | insertColumn atCol =>
    cases moves
    cases marking with
    | hiddenRow index =>
      obtain ⟨hidden,-,rfl⟩ := map_eq_some_iff.mp denoted
      exact Iff.rfl
    | rowOutlineLevel key =>
      obtain ⟨level,-,rfl⟩ := map_eq_some_iff.mp denoted
      exact Iff.rfl
    | _ => cases across
  | deleteColumn atCol =>
    have same : row' = row := moved_row moves
    cases marking with
    | hiddenRow index =>
      obtain ⟨hidden,-,rfl⟩ := map_eq_some_iff.mp denoted
      rw [same]
    | rowOutlineLevel key =>
      obtain ⟨level,-,rfl⟩ := map_eq_some_iff.mp denoted
      rw [same]
    | _ => cases across

theorem along_fixed (along : marking.across edit = false)
    (survives : ∀ row col, cells row col → (edit.moved sheet row col).isSome)
    (follows : ∀ row col row' col', edit.moved sheet row col = some (row',col') → (cells row col ↔ cells row' col'))
    {row col : Nat} (here : cells row col) : edit.moved sheet row col = some (row,col) := by
  have ends := marking_ends denoted along row col
  cases edit with
  | insertRow atRow =>
    have fixed : pushed atRow row = row :=
      pushed_fixed (fun i => cells i col) (fun i => follows i col _ _ rfl) ends here
    simp only [LineEdit.moved,fixed]
  | insertColumn atCol =>
    have fixed : pushed atCol col = col :=
      pushed_fixed (fun i => cells row i) (fun i => follows row i _ _ rfl) ends here
    simp only [LineEdit.moved,fixed]
  | deleteRow atRow =>
    simp only [LineEdit.moved] at survives follows ⊢
    by_cases short : sheet.rows.length ≤ 1
    · rw [if_pos short]
    · have fixed : pulled atRow row = some row :=
        pulled_fixed (fun i => cells i col)
          (fun i j pulls => follows i col j col (by rw [if_neg short,pulls]; rfl))
          (fun i held => by simpa [short] using survives i col held) here
      rw [if_neg short,fixed]
      rfl
  | deleteColumn atCol =>
    simp only [LineEdit.moved] at survives follows ⊢
    by_cases short : rowLength sheet.rows row ≤ 1
    · rw [if_pos short]
    · have fixed : pulled atCol col = some col :=
        pulled_fixed (fun i => cells row i)
          (fun i j pulls => follows row i row j (by rw [if_neg short,pulls]; rfl))
          (fun i held => by simpa [short] using survives row i held) here
      rw [if_neg short,fixed]
      rfl

end

theorem markings_follow (references : Text → List MergedRegion) (edit : LineEdit) (sheet : SheetData) (marking : Marking)
    (cells : Cells) (denoted : marking.cells references sheet = some cells) :
    Follows references edit sheet marking cells ↔
      marking.moved edit sheet = none ∨ (∃ row col, cells row col ∧ edit.moved sheet row col = none) ∨
      marking.across edit = true ∨ ∀ row col, cells row col → edit.moved sheet row col = some (row,col) := by
  constructor
  · intro follows
    cases goes : marking.moved edit sheet with
    | none => exact .inl rfl
    | some marking' =>
      by_cases deleted : ∃ row col, cells row col ∧ edit.moved sheet row col = none
      · exact .inr (.inl deleted)
      · cases along : marking.across edit with
        | true => exact .inr (.inr (.inl rfl))
        | false =>
          have survives : ∀ row col, cells row col → (edit.moved sheet row col).isSome := by
            intro row col here
            rw [isSome_iff_ne_none]
            exact fun none_ => deleted ⟨row,col,here,none_⟩
          obtain ⟨cells',after,same⟩ := follows marking' goes survives
          rw [cells_stay goes,denoted] at after
          obtain rfl := Option.some.inj after
          exact .inr (.inr (.inr (fun row col here => along_fixed denoted along survives same here)))
  · intro condition marking' goes survives
    refine ⟨cells,(cells_stay goes).trans denoted,fun row col row' col' moves => ?_⟩
    rcases condition with gone | ⟨r,c,here,gone⟩ | across | fixed
    · rw [gone] at goes
      cases goes
    · simpa [gone] using survives r c here
    · exact across_same denoted across moves
    · constructor
      · intro here
        have stays := (fixed row col here).symm.trans moves
        cases stays
        exact here
      · intro there
        obtain ⟨rfl,rfl⟩ := moved_inj moves (fixed row' col' there)
        exact there

end

def mergedSheet : SheetData := ⟨textOf "plan",[],none,none,some [⟨1,0,2,0⟩],[]⟩

theorem markings_follow_below : Follows (fun _ => []) (.insertRow 3) mergedSheet (.mergedRegion 0) (area ⟨1,0,2,0⟩) := by
  refine (markings_follow (fun _ => []) (.insertRow 3) mergedSheet (.mergedRegion 0) (area ⟨1,0,2,0⟩) rfl).mpr
    (.inr (.inr (.inr (fun row col here => ?_))))
  have before : row < 3 := by
    have within : (row : Rat) ≤ 2 := here.2.1
    have whole : row ≤ 2 := by exact_mod_cast within
    omega
  simp [LineEdit.moved,pushed,before]

theorem marking_stays : (Marking.mergedRegion 0).cells (fun _ => []) mergedSheet = some (area ⟨1,0,2,0⟩) ∧
    ¬Follows (fun _ => []) (.insertRow 0) mergedSheet (.mergedRegion 0) (area ⟨1,0,2,0⟩) := by
  refine ⟨rfl,fun follows => ?_⟩
  obtain ⟨cells,after,same⟩ := follows _ rfl (fun _ _ _ => rfl)
  cases after
  have last : area ⟨1,0,2,0⟩ 2 0 := by simp [area,inside]
  have behind : ¬area (normalizeMergedRegion ⟨1,0,2,0⟩) 3 0 := by
    unfold area
    decide +kernel
  exact behind ((same 2 0 3 0 rfl).mp last)

end Ownly.Sheets
