import Mathlib.Data.List.Perm.Basic
import Ownly.Sheets.CollabOps

-- Which runs of the operations on whole sheets keep the sheet names apart.
namespace Ownly.Sheets
open Collab (Text Value OpType)
open List
variable {env : Env} {workbook : SpreadsheetWorkbook} {ops : List SheetOp} {name : Text} {sheet : SheetData} {i j k : Nat}

-- The tab bar adds a sheet without a name; a collaborative op may carry one.
inductive SheetOp where
  | add (name : Option Text)
  | remove (sheetIndex : Rat)
  | rename (sheetIndex : Rat) (name : Text)
  | move (fromIndex toIndex : Rat)

namespace SheetOp

def apply (workbook : SpreadsheetWorkbook) : SheetOp → SpreadsheetWorkbook
  | add name => addSheet workbook name
  | remove sheetIndex => removeSheet workbook sheetIndex
  | rename sheetIndex name => renameSheet workbook sheetIndex name
  | move fromIndex toIndex => moveSheet workbook fromIndex toIndex

def run (workbook : SpreadsheetWorkbook) (ops : List SheetOp) : SpreadsheetWorkbook := ops.foldl apply workbook

end SheetOp
open SheetOp

def nameKeys (env : Env) (sheets : List SheetData) : List Text := sheets.map (fun sheet => env.toLowerCase sheet.name)

def UniqueNames (env : Env) (workbook : SpreadsheetWorkbook) : Prop := (nameKeys env workbook.sheets).Nodup

-- Every sheet is the one that its name is resolved to, and the only one.
structure NamesResolve (env : Env) (workbook : SpreadsheetWorkbook) : Prop where
  unique : UniqueNames env workbook
  resolves : ∀ i sheet, workbook.sheets[i]? = some sheet → sheetIndexByName env workbook sheet.name = some i

def FreshName (env : Env) (workbook : SpreadsheetWorkbook) : SheetOp → Prop
  | add name => env.toLowerCase (name.getD (textOf ("Sheet" ++ toString (workbook.sheets.length + 1)))) ∉
      nameKeys env workbook.sheets
  | rename sheetIndex name => trim name = [] ∨ ∀ (i j : Nat) (renamed other : SheetData),
      workbook.sheets[i]? = some renamed → (i : Rat) = sheetIndex → workbook.sheets[j]? = some other → i ≠ j →
        env.toLowerCase other.name ≠ env.toLowerCase (trim name)
  | remove _ => True
  | move _ _ => True

def FreshNames (env : Env) (workbook : SpreadsheetWorkbook) : List SheetOp → Prop
  | [] => True
  | op :: rest => FreshName env workbook op ∧ FreshNames env (op.apply workbook) rest

theorem uniqueNames_iff : UniqueNames env workbook ↔ ∀ (i j : Nat) (a b : SheetData), workbook.sheets[i]? = some a →
    workbook.sheets[j]? = some b → env.toLowerCase a.name = env.toLowerCase b.name → i = j := by
  rw [UniqueNames,nameKeys,List.Nodup,pairwise_iff_getElem]
  constructor
  · intro apart i j a b first second same
    obtain ⟨inside,rfl⟩ := List.getElem?_eq_some_iff.mp first
    obtain ⟨inside',rfl⟩ := List.getElem?_eq_some_iff.mp second
    rcases Nat.lt_trichotomy i j with before | equal | behind
    · refine absurd ?_ (apart i j (by simpa using inside) (by simpa using inside') before)
      simpa only [getElem_map] using same
    · exact equal
    · refine absurd ?_ (apart j i (by simpa using inside') (by simpa using inside) behind)
      simpa only [getElem_map] using same.symm
  · intro apart i j inside inside' before same
    rw [length_map] at inside inside'
    have equal := apart i j _ _ (getElem?_eq_getElem inside) (getElem?_eq_getElem inside') (by simpa using same)
    omega

theorem uniqueNames_resolve (unique : UniqueNames env workbook) : NamesResolve env workbook := by
  refine ⟨unique,fun i sheet there => ?_⟩
  obtain ⟨inside,here⟩ := List.getElem?_eq_some_iff.mp there
  rw [sheetIndexByName,findIdx?_eq_some_iff_getElem]
  refine ⟨inside,by simp [here],fun j before => ?_⟩
  have inside' : j < workbook.sheets.length := Nat.lt_trans before inside
  have other : workbook.sheets[j]? = some workbook.sheets[j] := getElem?_eq_getElem inside'
  have apart := uniqueNames_iff.mp unique j i _ _ other there
  simp only [decide_eq_true_eq]
  intro same
  exact absurd (apart same) (Nat.ne_of_lt before)

theorem withoutIndex_sublist {α : Type} (xs : List α) (index : Rat) : (withoutIndex xs index).Sublist xs := by
  have whole : xs.zipIdx.map Prod.fst = xs := by simp
  have part := (filter_sublist (p := fun entry => decide ((entry.2 : Rat) ≠ index)) (l := xs.zipIdx)).map Prod.fst
  rwa [whole] at part

theorem spliceIn_perm {α : Type} (xs : List α) (position : Rat) (x : α) : (spliceIn xs position x).Perm (x :: xs) := by
  have middle : (spliceIn xs position x).Perm
      (x :: (xs.take (spliceStart position xs.length) ++ xs.drop (spliceStart position xs.length))) := perm_middle
  rwa [take_append_drop] at middle

section
variable (unique : UniqueNames env workbook)
include unique

theorem add_unique (name : Option Text) :
    UniqueNames env (addSheet workbook name) ↔ FreshName env workbook (.add name) := by
  have named : ∀ (sheet : SheetData), (normalizeSheetGrid sheet).name = sheet.name := fun _ => rfl
  simp only [UniqueNames,nameKeys,addSheet,ofSheets,map_append,map_cons,map_nil,named,FreshName]
  rw [nodup_append_comm,singleton_append,nodup_cons]
  exact and_iff_left unique

theorem remove_unique (sheetIndex : Rat) :
    UniqueNames env (removeSheet workbook sheetIndex) := by
  unfold removeSheet
  split
  · exact unique
  · exact List.Nodup.sublist ((withoutIndex_sublist workbook.sheets sheetIndex).map _) unique

theorem move_unique (fromIndex toIndex : Rat) :
    UniqueNames env (moveSheet workbook fromIndex toIndex) := by
  unfold moveSheet
  split
  · exact unique
  · dsimp only
    split
    · exact unique
    · rename_i sheet there
      obtain ⟨inside,here⟩ := List.getElem?_eq_some_iff.mp there
      have whole := getElem_cons_eraseIdx_perm inside
      rw [here] at whole
      have moved := ((spliceIn_perm _ toIndex sheet).trans whole).map (fun sheet => env.toLowerCase sheet.name)
      exact moved.nodup_iff.mpr unique

theorem rename_unique (sheetIndex : Rat) (name : Text) :
    UniqueNames env (renameSheet workbook sheetIndex name) ↔ FreshName env workbook (.rename sheetIndex name) := by
  by_cases blank : trim name = []
  · simp [renameSheet,FreshName,blank,unique]
  have named : ∀ i : Nat, (renameSheet workbook sheetIndex name).sheets[i]? = workbook.sheets[i]?.map (fun sheet =>
      if (i : Rat) = sheetIndex then {sheet with name := trim name} else sheet) := by
    intro i
    simp [renameSheet,blank,ofSheets,mapSheet]
  rw [uniqueNames_iff]
  simp only [FreshName,blank,false_or,named]
  constructor
  · intro apart i j renamed other there index there' differ same
    refine differ (apart i j {renamed with name := trim name} other ?_ ?_ same.symm)
    · simp [there,index]
    · have elsewhere : (j : Rat) ≠ sheetIndex := by
        intro equal
        exact differ (Rat.natCast_inj.mp (index.trans equal.symm))
      simp [there',elsewhere]
  · intro fresh i j a b first second same
    obtain ⟨before,there,rfl⟩ := Option.map_eq_some_iff.mp first
    obtain ⟨before',there',rfl⟩ := Option.map_eq_some_iff.mp second
    by_contra differ
    have apart := uniqueNames_iff.mp unique i j before before' there there'
    by_cases here : (i : Rat) = sheetIndex
    · have elsewhere : (j : Rat) ≠ sheetIndex := fun equal => differ (Rat.natCast_inj.mp (here.trans equal.symm))
      simp only [here,if_true,elsewhere,if_false] at same
      exact fresh i j before before' there here there' differ same.symm
    · by_cases there_ : (j : Rat) = sheetIndex
      · simp only [here,if_false,there_,if_true] at same
        exact fresh j i before' before there' there_ there (Ne.symm differ) same
      · simp only [here,there_,if_false] at same
        exact differ (apart same)

theorem step_unique (op : SheetOp) :
    UniqueNames env (op.apply workbook) ↔ FreshName env workbook op := by
  cases op with
  | add name => exact add_unique unique name
  | remove sheetIndex => exact iff_of_true (remove_unique unique sheetIndex) trivial
  | rename sheetIndex name => exact rename_unique unique sheetIndex name
  | move fromIndex toIndex => exact iff_of_true (move_unique unique fromIndex toIndex) trivial

end

theorem sheetNames_unique (env : Env) (workbook : SpreadsheetWorkbook) (unique : UniqueNames env workbook)
    (ops : List SheetOp) : (∀ k, NamesResolve env (SheetOp.run workbook (ops.take k))) ↔ FreshNames env workbook ops := by
  induction ops generalizing workbook with
  | nil => simpa [SheetOp.run,FreshNames] using uniqueNames_resolve unique
  | cons op rest ih =>
    have one := step_unique unique op
    constructor
    · intro always
      have next := one.mp (always 1).unique
      refine ⟨next,(ih (op.apply workbook) (one.mpr next)).mp (fun k => ?_)⟩
      exact always (k + 1)
    · rintro ⟨next,later⟩ k
      cases k with
      | zero => exact uniqueNames_resolve unique
      | succ k => exact (ih (op.apply workbook) (one.mpr next)).mpr later k

def bookOf (names : List String) : SpreadsheetWorkbook :=
  ofSheets (names.map (fun name => ⟨textOf name,[[emptySheetCell]],none,none,none,[]⟩))

theorem sheetNames_unique_added : NamesResolve plainEnv (SheetOp.run (bookOf ["Sheet1","Data"]) [.add none,.remove 0]) := by
  have unique : UniqueNames plainEnv (bookOf ["Sheet1","Data"]) := by unfold UniqueNames; decide
  refine (sheetNames_unique plainEnv (bookOf ["Sheet1","Data"]) unique [.add none,.remove 0]).mpr ⟨?_,trivial,trivial⟩ 2
  unfold FreshName
  decide

theorem sheetNames_collide : UniqueNames plainEnv (bookOf ["Sheet1","Sheet2"]) ∧
    (SheetOp.run (bookOf ["Sheet1","Sheet2"]) [.remove 0,.add none]).sheets.map SheetData.name =
      [textOf "Sheet2",textOf "Sheet2"] ∧
    ¬UniqueNames plainEnv (SheetOp.run (bookOf ["Sheet1","Sheet2"]) [.remove 0,.add none]) := by
  unfold UniqueNames
  decide

end Ownly.Sheets
