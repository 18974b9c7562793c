import Ownly.Lib.Patchwork
import Ownly.Sheets.Extent

-- merge-regions.ts: which merged region a cell is in, and what merging and unmerging
-- make of the regions of a sheet.
namespace Ownly.Sheets
open List

structure MergeAnchorInfo where
  region : MergedRegion
  rowSpan : Rat
  colSpan : Rat
  isAnchor : Bool
  isCovered : Bool
  deriving DecidableEq, Repr

def infoOf (raw : MergedRegion) (row col : Rat) : Option MergeAnchorInfo :=
  let region := normalizeMergedRegion raw
  if region.startRow ≤ row ∧ row ≤ region.endRow ∧ region.startCol ≤ col ∧ col ≤ region.endCol then
    let isAnchor := decide (row = region.startRow ∧ col = region.startCol)
    some ⟨region,region.endRow - region.startRow + 1,region.endCol - region.startCol + 1,isAnchor,!isAnchor⟩
  else none

def mergeInfoAt (regions : Option (List MergedRegion)) (row col : Rat) : Option MergeAnchorInfo :=
  (regions.getD []).findSome? (infoOf · row col)

inductive MergeCall where
  | merge (sheetIndex : Rat) (range : CellRange)
  | unmerge (sheetIndex : Rat) (range : CellRange)

def MergeCall.apply (workbook : SpreadsheetWorkbook) : MergeCall → SpreadsheetWorkbook
  | .merge sheetIndex range => mergeCellsInRange workbook sheetIndex range
  | .unmerge sheetIndex range => unmergeCellsInRange workbook sheetIndex range

def runMerges (workbook : SpreadsheetWorkbook) (calls : List MergeCall) : SpreadsheetWorkbook := calls.foldl MergeCall.apply workbook

def MergeCall.onSheet (i : Nat) (sheet : SheetData) : MergeCall → SheetData
  | .merge sheetIndex range => if (i : Rat) = sheetIndex then mergeInSheet (normalizeRange range) sheet else sheet
  | .unmerge sheetIndex range => if (i : Rat) = sheetIndex then unmergeInSheet (normalizeRange range) sheet else sheet

def SheetData.regions (sheet : SheetData) : List MergedRegion := sheet.mergedRegions.getD []

def cover (region : MergedRegion) : Set (Rat × Rat) :=
  {p | (normalizeMergedRegion region).startRow ≤ p.1 ∧ p.1 ≤ (normalizeMergedRegion region).endRow ∧
    (normalizeMergedRegion region).startCol ≤ p.2 ∧ p.2 ≤ (normalizeMergedRegion region).endCol}

def regionOf (range : CellRange) : MergedRegion :=
  normalizeMergedRegion ⟨range.start.row,range.start.col,range.stop.row,range.stop.col⟩

-- A call after which what was merged on a sheet is merged still.
def MergeCall.Spares (i : Nat) (range : CellRange) : MergeCall → Prop
  | .merge sheetIndex _ => (i : Rat) ≠ sheetIndex
  | .unmerge sheetIndex other => (i : Rat) ≠ sheetIndex ∨ Disjoint (cover (regionOf range)) (cover (regionOf other))

section
variable {workbook : SpreadsheetWorkbook} {sheet : SheetData} {i : Nat} {region raw : MergedRegion} {range : CellRange} {row col : Rat}
  {info : MergeAnchorInfo}

theorem apply_at (call : MergeCall) (workbook : SpreadsheetWorkbook) (i : Nat) :
    (call.apply workbook).sheets[i]? = workbook.sheets[i]?.map (fun sheet => call.onSheet i sheet) := by
  cases call with
  | merge sheetIndex range => exact mapSheet_at workbook sheetIndex _ i
  | unmerge sheetIndex range => exact mapSheet_at workbook sheetIndex _ i

theorem runMerges_at (calls : List MergeCall) (found : workbook.sheets[i]? = some sheet) :
    (runMerges workbook calls).sheets[i]? = some (calls.foldl (MergeCall.onSheet i) sheet) := by
  induction calls generalizing workbook sheet with
  | nil => exact found
  | cons call rest ih => exact ih (by rw [apply_at,found]; rfl)

theorem normalizeMergedRegion_normalized (region : MergedRegion) :
    normalizeMergedRegion (normalizeMergedRegion region) = normalizeMergedRegion region := by
  simp [normalizeMergedRegion]

theorem normalizeMergedRegion_ordered (region : MergedRegion) :
    (normalizeMergedRegion region).startRow ≤ (normalizeMergedRegion region).endRow ∧
    (normalizeMergedRegion region).startCol ≤ (normalizeMergedRegion region).endCol :=
  ⟨min_le_max,min_le_max⟩

theorem corner_covered (region : MergedRegion) :
    ((normalizeMergedRegion region).startRow,(normalizeMergedRegion region).startCol) ∈ cover region :=
  ⟨le_refl _,(normalizeMergedRegion_ordered region).1,le_refl _,(normalizeMergedRegion_ordered region).2⟩

theorem disjoint_iff (a b : MergedRegion) : Disjoint (cover a) (cover b) ↔
    (normalizeMergedRegion a).endRow < (normalizeMergedRegion b).startRow ∨
    (normalizeMergedRegion b).endRow < (normalizeMergedRegion a).startRow ∨
    (normalizeMergedRegion a).endCol < (normalizeMergedRegion b).startCol ∨
    (normalizeMergedRegion b).endCol < (normalizeMergedRegion a).startCol := by
  obtain ⟨rowsA,colsA⟩ := normalizeMergedRegion_ordered a
  obtain ⟨rowsB,colsB⟩ := normalizeMergedRegion_ordered b
  constructor
  · intro apart
    by_contra meets
    simp only [not_or,not_lt] at meets
    obtain ⟨belowB,belowA,besideB,besideA⟩ := meets
    have inA : (max (normalizeMergedRegion a).startRow (normalizeMergedRegion b).startRow,
        max (normalizeMergedRegion a).startCol (normalizeMergedRegion b).startCol) ∈ cover a :=
      ⟨le_max_left _ _,max_le rowsA belowB,le_max_left _ _,max_le colsA besideB⟩
    exact Set.disjoint_left.mp apart inA ⟨le_max_right _ _,max_le belowA rowsB,le_max_right _ _,max_le besideA colsB⟩
  · intro separate
    refine Set.disjoint_left.mpr (fun p inA inB => ?_)
    obtain ⟨lowA,highA,leftA,rightA⟩ := inA
    obtain ⟨lowB,highB,leftB,rightB⟩ := inB
    rcases separate with above | below | left | right
    · exact absurd (le_trans lowB highA) (not_le_of_gt above)
    · exact absurd (le_trans lowA highB) (not_le_of_gt below)
    · exact absurd (le_trans leftB rightA) (not_le_of_gt left)
    · exact absurd (le_trans leftA rightB) (not_le_of_gt right)

theorem infoOf_some (raw : MergedRegion) (row col : Rat) : infoOf raw row col ≠ none ↔ (row,col) ∈ cover raw := by
  rw [infoOf]
  split
  · rename_i inside
    exact iff_of_true (by simp) inside
  · rename_i outside
    exact iff_of_false (fun some => some rfl) outside

theorem infoOf_region (found : infoOf raw row col = some info) :
    (row,col) ∈ cover raw ∧ info.region = normalizeMergedRegion raw ∧
      (info.isAnchor = true ↔ row = (normalizeMergedRegion raw).startRow ∧ col = (normalizeMergedRegion raw).startCol) := by
  rw [infoOf] at found
  split at found
  · rename_i inside
    cases found
    exact ⟨inside,rfl,decide_eq_true_iff⟩
  · cases found

theorem mergeInfoAt_none (sheet : SheetData) (row col : Rat) :
    mergeInfoAt sheet.mergedRegions row col = none ↔ ∀ region ∈ sheet.regions, (row,col) ∉ cover region := by
  have looks : ∀ (raw : MergedRegion) (p : Rat × Rat), infoOf raw p.1 p.2 ≠ none ↔ p ∈ cover raw := fun raw p => infoOf_some raw p.1 p.2
  exact Patchwork.findSome_none (p := (row,col)) looks

theorem mergeInfoAt_some (found : mergeInfoAt sheet.mergedRegions row col = some info) :
    ∃ region ∈ sheet.regions, infoOf region row col = some info := exists_of_findSome?_eq_some found

theorem kept_iff (regions : Option (List MergedRegion)) (range : CellRange) :
    region ∈ removeMergesIntersecting regions (normalizeRange range) ↔
      region ∈ regions.getD [] ∧ Disjoint (cover region) (cover (regionOf range)) := by
  rw [removeMergesIntersecting,mem_filter,decide_eq_true_iff,disjoint_iff,regionOf,normalizeMergedRegion_normalized]
  rfl

theorem regions_merge (range : CellRange) (sheet : SheetData) :
    (mergeInSheet (normalizeRange range) sheet).regions =
      removeMergesIntersecting sheet.mergedRegions (normalizeRange range) ++ [regionOf range] := by
  have stored : (mergeInSheet (normalizeRange range) sheet).regions =
      upsertMergedRegion (removeMergesIntersecting sheet.mergedRegions (normalizeRange range)) (regionOf range) := rfl
  have same : normalizeMergedRegion (regionOf range) = regionOf range := normalizeMergedRegion_normalized _
  rw [stored,upsertMergedRegion,same]
  congr 1
  refine filter_eq_self.mpr (fun entry member => ?_)
  have apart := ((kept_iff _ _).mp member).2
  simp only [Bool.not_eq_true',Bool.and_eq_false_iff,decide_eq_false_iff_not]
  by_contra anchored
  simp only [not_or,not_not] at anchored
  have began : (entry.startRow,entry.startCol) ∈ cover entry := ⟨min_le_left _ _,le_max_left _ _,min_le_left _ _,le_max_left _ _⟩
  rw [anchored.1,anchored.2] at began
  have corner := corner_covered (regionOf range)
  rw [same] at corner
  exact Set.disjoint_left.mp apart began corner

theorem onSheet_apart (call : MergeCall) (i : Nat) (apart : Patchwork.Apart cover sheet.regions) :
    Patchwork.Apart cover (call.onSheet i sheet).regions := by
  cases call with
  | merge sheetIndex range =>
    rw [MergeCall.onSheet]
    split
    · rw [regions_merge]
      exact (apart.filter _).place (fun other member => ((kept_iff _ _).mp member).2)
    · exact apart
  | unmerge sheetIndex range =>
    rw [MergeCall.onSheet]
    split
    · exact apart.filter _
    · exact apart

def Normalized (regions : List MergedRegion) : Prop := ∀ region ∈ regions, normalizeMergedRegion region = region

theorem onSheet_normalized (call : MergeCall) (i : Nat) (normal : Normalized sheet.regions) :
    Normalized (call.onSheet i sheet).regions := by
  cases call with
  | merge sheetIndex range =>
    rw [MergeCall.onSheet]
    split
    · rw [regions_merge]
      intro region member
      rcases mem_append.mp member with kept | new
      · exact normal region ((kept_iff _ _).mp kept).1
      · obtain rfl := mem_singleton.mp new
        exact normalizeMergedRegion_normalized _
    · exact normal
  | unmerge sheetIndex range =>
    rw [MergeCall.onSheet]
    split
    · exact fun region member => normal region ((kept_iff _ _).mp member).1
    · exact normal

theorem calls_apart (calls : List MergeCall) (i : Nat) (apart : Patchwork.Apart cover sheet.regions) :
    Patchwork.Apart cover (calls.foldl (MergeCall.onSheet i) sheet).regions := by
  induction calls generalizing sheet with
  | nil => exact apart
  | cons call rest ih => exact ih (onSheet_apart call i apart)

theorem calls_normalized (calls : List MergeCall) (i : Nat) (normal : Normalized sheet.regions) :
    Normalized (calls.foldl (MergeCall.onSheet i) sheet).regions := by
  induction calls generalizing sheet with
  | nil => exact normal
  | cons call rest ih => exact ih (onSheet_normalized call i normal)

def EmptyBeside (range : CellRange) (sheet : SheetData) : Prop :=
  ∀ (r c : Nat) (cell : SheetCell), cellIn sheet.rows r c = some cell → inside (normalizeRange range) r c →
    ((r : Rat),(c : Rat)) ≠ ((regionOf range).startRow,(regionOf range).startCol) →
    cell.value = .null ∧ cell.formula = none ∧ cell.display = []

theorem onSheet_merge (range : CellRange) (sheet : SheetData) :
    regionOf range ∈ (mergeInSheet (normalizeRange range) sheet).regions ∧
    EmptyBeside range (mergeInSheet (normalizeRange range) sheet) := by
  constructor
  · rw [regions_merge]
    exact mem_append_right _ (mem_singleton.mpr rfl)
  · intro r c cell found within other
    rw [mergeInSheet,cellIn_mapCells] at found
    obtain ⟨old,_,same⟩ := Option.map_eq_some_iff.mp found
    have anchor : ¬((r : Rat) = (normalizeRange range).start.row ∧ (c : Rat) = (normalizeRange range).start.col) :=
      fun anchored => other (Prod.ext anchored.1 anchored.2)
    rw [if_neg (not_not.mpr within),if_neg anchor] at same
    rw [← same]
    exact ⟨rfl,rfl,rfl⟩

theorem onSheet_spares {call : MergeCall} (spares : call.Spares i range)
    (held : regionOf range ∈ sheet.regions ∧ EmptyBeside range sheet) :
    regionOf range ∈ (call.onSheet i sheet).regions ∧ EmptyBeside range (call.onSheet i sheet) := by
  cases call with
  | merge sheetIndex other =>
    rw [MergeCall.onSheet,if_neg spares]
    exact held
  | unmerge sheetIndex other =>
    rw [MergeCall.onSheet]
    split
    · rename_i here
      rcases spares with elsewhere | apart
      · exact absurd here elsewhere
      · exact ⟨(kept_iff _ _).mpr ⟨held.1,apart⟩,held.2⟩
    · exact held

theorem calls_spare {calls : List MergeCall} (spares : ∀ call ∈ calls, call.Spares i range)
    (held : regionOf range ∈ sheet.regions ∧ EmptyBeside range sheet) :
    regionOf range ∈ (calls.foldl (MergeCall.onSheet i) sheet).regions ∧
    EmptyBeside range (calls.foldl (MergeCall.onSheet i) sheet) := by
  induction calls generalizing sheet with
  | nil => exact held
  | cons call rest ih =>
    exact ih (fun other member => spares other (mem_cons_of_mem _ member)) (onSheet_spares (spares call mem_cons_self) held)

theorem mergeInfoAt_unique (apart : Patchwork.Apart cover sheet.regions)
    (found : mergeInfoAt sheet.mergedRegions row col = some info) :
    ∃ region ∈ sheet.regions, (row,col) ∈ cover region ∧ info.region = normalizeMergedRegion region ∧
      ∀ other ∈ sheet.regions, (row,col) ∈ cover other → other = region := by
  obtain ⟨region,member,told⟩ := mergeInfoAt_some found
  obtain ⟨inside,same,_⟩ := infoOf_region told
  exact ⟨region,member,inside,same,fun other among covers => apart.unique among member covers inside⟩

theorem mergeInfoAt_anchor (apart : Patchwork.Apart cover sheet.regions) (member : region ∈ sheet.regions) (row col : Rat) :
    (∃ info, mergeInfoAt sheet.mergedRegions row col = some info ∧ info.region = normalizeMergedRegion region ∧ info.isAnchor = true) ↔
      row = (normalizeMergedRegion region).startRow ∧ col = (normalizeMergedRegion region).startCol := by
  constructor
  · rintro ⟨info,found,same,anchor⟩
    obtain ⟨other,_,told⟩ := mergeInfoAt_some found
    obtain ⟨_,region_eq,anchored⟩ := infoOf_region told
    rw [← same,region_eq]
    exact anchored.mp anchor
  · rintro ⟨rfl,rfl⟩
    have covers := corner_covered region
    cases found : mergeInfoAt sheet.mergedRegions (normalizeMergedRegion region).startRow (normalizeMergedRegion region).startCol with
    | none => exact absurd covers ((mergeInfoAt_none sheet _ _).mp found region member)
    | some info =>
      obtain ⟨other,among,told⟩ := mergeInfoAt_some found
      obtain ⟨inside,region_eq,anchored⟩ := infoOf_region told
      obtain rfl := apart.unique among member inside covers
      exact ⟨info,rfl,region_eq,anchored.mpr ⟨rfl,rfl⟩⟩

theorem cover_nonempty (region : MergedRegion) : (cover region).Nonempty := ⟨_,corner_covered region⟩

theorem merged_regions_apart (workbook : SpreadsheetWorkbook) (calls : List MergeCall) (i : Nat) (sheet : SheetData)
    (found : workbook.sheets[i]? = some sheet) (apart : sheet.regions.Pairwise (fun a b => Disjoint (cover a) (cover b))) :
    ∃ sheet', (runMerges workbook calls).sheets[i]? = some sheet' ∧
      ((∀ region ∈ sheet.regions, normalizeMergedRegion region = region) →
        ∀ region ∈ sheet'.regions, normalizeMergedRegion region = region) ∧
      sheet'.regions.Pairwise (fun a b => Disjoint (cover a) (cover b)) ∧
      (∀ before range after, calls = before ++ .merge i range :: after → (∀ call ∈ after, call.Spares i range) →
        sheet'.regions.count (regionOf range) = 1 ∧ EmptyBeside range sheet') ∧
      (∀ row col, mergeInfoAt sheet'.mergedRegions row col = none ↔ ∀ region ∈ sheet'.regions, (row,col) ∉ cover region) ∧
      (∀ row col info, mergeInfoAt sheet'.mergedRegions row col = some info →
        ∃ region ∈ sheet'.regions, (row,col) ∈ cover region ∧ info.region = normalizeMergedRegion region ∧
          ∀ other ∈ sheet'.regions, (row,col) ∈ cover other → other = region) ∧
      ∀ region ∈ sheet'.regions, ∀ row col,
        (∃ info, mergeInfoAt sheet'.mergedRegions row col = some info ∧ info.region = normalizeMergedRegion region ∧ info.isAnchor = true) ↔
          row = (normalizeMergedRegion region).startRow ∧ col = (normalizeMergedRegion region).startCol := by
  have apart' := calls_apart calls i apart
  refine ⟨_,runMerges_at calls found,calls_normalized calls i,apart',?_,mergeInfoAt_none _,
    fun row col info told => mergeInfoAt_unique apart' told,fun region member => mergeInfoAt_anchor apart' member⟩
  rintro before range after rfl spares
  have nodup := apart'.nodup cover_nonempty
  have merged : (MergeCall.merge i range).onSheet i (before.foldl (MergeCall.onSheet i) sheet) =
      mergeInSheet (normalizeRange range) (before.foldl (MergeCall.onSheet i) sheet) := if_pos rfl
  rw [foldl_append,foldl_cons,merged] at nodup ⊢
  obtain ⟨member,empty⟩ := calls_spare spares (onSheet_merge range _)
  exact ⟨count_eq_one_of_mem nodup member,empty⟩

def twoMerged : SheetData := ⟨"Sheet1".toList,[],none,none,some [⟨0,0,1,1⟩,⟨0,2,2,2⟩],[]⟩

theorem merged_regions_apart_two : ∃ sheet', (runMerges (ofSheets [twoMerged]) [.merge ((0 : Nat) : Rat) ⟨⟨0,2⟩,⟨0,1⟩⟩]).sheets[0]? = some sheet' ∧
    sheet'.regions.count ⟨0,1,0,2⟩ = 1 := by
  have apart : twoMerged.regions.Pairwise (fun a b => Disjoint (cover a) (cover b)) := by
    refine pairwise_pair.mpr ((disjoint_iff _ _).mpr ?_)
    decide +kernel
  obtain ⟨sheet',found,_,_,merged,_⟩ := merged_regions_apart (ofSheets [twoMerged]) [.merge ((0 : Nat) : Rat) ⟨⟨0,2⟩,⟨0,1⟩⟩] 0 twoMerged rfl apart
  have region : regionOf ⟨⟨0,2⟩,⟨0,1⟩⟩ = ⟨0,1,0,2⟩ := by decide +kernel
  have counted := (merged [] ⟨⟨0,2⟩,⟨0,1⟩⟩ [] rfl (fun call member => absurd member not_mem_nil)).1
  rw [region] at counted
  exact ⟨sheet',found,counted⟩

end

end Ownly.Sheets
