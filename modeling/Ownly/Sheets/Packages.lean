import Ownly.Sheets.Passthrough
import Mathlib

-- The two packages of a save: what is taken to be one of a workbook, and what it is for a save
-- over the source to keep the sheets apart, their names, numbers and parts being put under one
-- set of keys.
namespace Ownly.Sheets.Xlsx
open Text (Line)
open Markup
open List KeyMap

variable {styles : Styles} {source generated merged result : Entries} {sheets : List Tab} {data : Nat → Line} {sheet : Tab}
  {tab other : Tab × Nat} {entry entry' : CatalogEntry} {catalog : List CatalogEntry} {path text shell block attrs : Line} {k j : Nat}

def workbookPath : Line := "xl/workbook.xml".toList

def relsPath : Line := "xl/_rels/workbook.xml.rels".toList

def rId (k : Nat) : Line := "rId".toList ++ decimal k

def sheetPathOf (k : Nat) : Line := "xl/worksheets/sheet".toList ++ decimal k ++ ".xml".toList

def special : List Char := ['&','<','>','"','\'']

def escapeXmlChar : Char → Line
  | '\'' => "&apos;".toList
  | c => escapeChar c

def escapeXml (name : Line) : Line := name.flatMap escapeXmlChar

def placed (sheets : List Tab) : List (Tab × Nat) := sheets.zipIdx 1

def numberedAt (tab : Tab × Nat) : CatalogEntry := ⟨escapeXml tab.1.name,sheetPathOf tab.2,decimal tab.2,rId tab.2⟩

-- The group of the relationship that the library writes for the `k`th sheet.
structure Linked (k : Nat) (attrs : Line) : Prop where
  bounded : attrs.head? = some ' '
  clear : '<' ∉ attrs ∧ '>' ∉ attrs ∧ '$' ∉ attrs
  id : attributeOf "Id".toList attrs = some (rId k)
  target : ∃ target,attributeOf "Target".toList attrs = some target ∧ target ≠ [] ∧ normalizeXlsxEntryPath target = sheetPathOf k
  only : ∀ j,j ≠ k → ¬idAttribute (rId j) <:+: tagText "Relationship".toList attrs

structure Generated (sheets : List Tab) (data : Nat → Line) (generated : Entries) : Prop where
  catalog : listWorksheetCatalog generated = (placed sheets).map numberedAt
  parts : ∀ tab ∈ placed sheets,∃ part,generated.get (sheetPathOf tab.2) = some part ∧ extractSheetDataBlock part = some (data tab.2)
  links : ∀ tab ∈ placed sheets,∃ attrs,Linked tab.2 attrs ∧
    findTag "Relationship".toList (contains Char.toLower (idAttribute (rId tab.2))) (textOf generated "xl/_rels/workbook.xml.rels") =
      some (tagText "Relationship".toList attrs)

structure WellFormed (source : Entries) : Prop where
  sheets : (sheetsElement (textOf source "xl/workbook.xml")).isSome
  rels : ∃ before after,cut id "</Relationships>".toList (textOf source "xl/_rels/workbook.xml.rels") = some (before,after) ∧
    Closed before ∧ tags "Relationship".toList 0 after = []
  sheetIds : ((listWorksheetCatalog source).map CatalogEntry.sheetId).Nodup
  relIds : ((listWorksheetCatalog source).map CatalogEntry.relId).Nodup
  sheetPaths : ((listWorksheetCatalog source).map CatalogEntry.sheetPath).Nodup
  filled : ∀ entry ∈ listWorksheetCatalog source,entry.sheetId ≠ []
  parts : ∀ entry ∈ listWorksheetCatalog source,(source.get entry.sheetPath).isSome
  apart : ∀ entry ∈ listWorksheetCatalog source,entry.sheetPath ∉ [workbookPath,relsPath,"[Content_Types].xml".toList]

-- The part is its shell with the block for its sheet data, or with the block put in where
-- it had none.
def Carries (shell block part : Line) : Prop :=
  ∃ before after,part = before ++ block ++ after ∧
    ((∃ old,sheetDataElement shell = some (before,old,after)) ∨
      sheetDataElement shell = none ∧ (before ++ after).map Char.toLower = shell.map Char.toLower)

def tagOf (row : CatalogEntry) : Line := sheetTag row.name row.sheetId row.relId

structure Apart (styles : Styles) (source generated : Entries) (sheets : List Tab) (data : Nat → Line) (result : Entries)
    (rows : List CatalogEntry) : Prop where
  names : rows.map CatalogEntry.name = sheets.map Tab.name
  listed : ∃ before matched after,sheetsElement (textOf source "xl/workbook.xml") = some (before,matched,after) ∧
    textOf result "xl/workbook.xml" = before ++ sheetsBlock (rows.map tagOf) ++ after
  quoted : ∀ row ∈ rows,'"' ∉ row.sheetId ∧ '"' ∉ row.relId
  sheetIds : (rows.map CatalogEntry.sheetId).Nodup
  relIds : (rows.map CatalogEntry.relId).Nodup
  sheetPaths : (rows.map CatalogEntry.sheetPath).Nodup
  resolved : ∀ row ∈ rows,(relMap (textOf result "xl/_rels/workbook.xml.rels")).get row.relId = some row.sheetPath
  carried : ∀ row ∈ rows.zipIdx 1,∃ shell part,(source.get row.1.sheetPath = some shell ∨ generated.get row.1.sheetPath = some shell) ∧
    result.get row.1.sheetPath = some part ∧ Carries shell (restyle styles source generated (data row.2)) part

def SheetsApart (styles : Styles) (source generated : Entries) (sheets : List Tab) (data : Nat → Line) (result : Entries) : Prop :=
  ∃ rows,Apart styles source generated sheets data result rows

def added (sheets : List Tab) : List (Tab × Nat) := (placed sheets).filter (fun tab => decide (tab.1.sourceSheetId = none))

-- What a sheet is entered as: from the source where it comes from there, and else by its place.
def row (tab : Tab × Nat) : CatalogEntry :=
  ⟨tab.1.name,tab.1.sourceWorksheetPath.getD (sheetPathOf tab.2),tab.1.sourceSheetId.getD (decimal tab.2),tab.1.sourceRelId.getD (rId tab.2)⟩

def shellOf (source generated : Entries) (tab : Tab × Nat) : Line :=
  ((match tab.1.sourceWorksheetPath with
    | some path => source.get path
    | none => generated.get (sheetPathOf tab.2)) : Option Line).getD []

-- The shell has sheet data that a pattern finds, or none at all, and where the block is put
-- in by a replacement it has no dollar pattern.
def Takes (shell block : Line) : Prop :=
  match sheetDataElement shell with
  | some _ => verbatim block = true
  | none => openingAt "sheetData".toList shell = none ∧ contains Char.toLower "</sheetData>".toList shell = false ∧
    (openingAt "mergeCells".toList shell = none → contains Char.toLower "</worksheet>".toList shell = true → verbatim block = true)

structure Clear (styles : Styles) (source generated : Entries) (sheets : List Tab) (data : Nat → Line) : Prop where
  plain : ∀ sheet ∈ sheets,∀ c ∈ sheet.name,c ∉ special
  tags : verbatim (sheetsBlock ((placed sheets).map (fun tab => tagOf (row tab)))) = true
  takes : ∀ tab ∈ placed sheets,Takes (shellOf source generated tab) (restyle styles source generated (data tab.2))
  apart : ∀ tab ∈ placed sheets,tab.1.sourceSheetId = none → ∀ sheet ∈ sheets,sheet.sourceSheetId ≠ some (decimal tab.2) ∧
    sheet.sourceRelId ≠ some (rId tab.2) ∧ sheet.sourceWorksheetPath ≠ some (sheetPathOf tab.2)
  free : ∀ tab ∈ placed sheets,tab.1.sourceSheetId = none → ¬idAttribute (rId tab.2) <:+: textOf source "xl/_rels/workbook.xml.rels" ∨
    (relMap (textOf source "xl/_rels/workbook.xml.rels")).get (rId tab.2) = some (sheetPathOf tab.2)

theorem decimal_injective (same : decimal k = decimal j) : k = j := by
  have read := congrArg (Nat.ofDigitChars 10 · 0) same
  simpa [decimal] using read

theorem rId_injective (same : rId k = rId j) : k = j := decimal_injective (append_cancel_left same)

theorem sheetPathOf_injective (same : sheetPathOf k = sheetPathOf j) : k = j :=
  decimal_injective (append_cancel_left (append_cancel_right same))

theorem decimal_digits : ∀ c ∈ decimal k,c.isDigit = true := fun _ member =>
  Nat.isDigit_of_mem_toDigits (by decide) (by decide) member

theorem decimal_quoted : '"' ∉ decimal k := fun member => absurd (decimal_digits _ member) (by decide)

theorem rId_quoted : '"' ∉ rId k := by
  simp [rId,decimal_quoted]

theorem sheetPathOf_take (k : Nat) : (sheetPathOf k).take 8 = "xl/works".toList := by
  have enough : 8 ≤ "xl/worksheets/sheet".toList.length := by simp
  have lead : "xl/worksheets/sheet".toList.take 8 = "xl/works".toList := by simp
  have whole : sheetPathOf k = "xl/worksheets/sheet".toList ++ (decimal k ++ ".xml".toList) := append_assoc _ _ _
  exact (congrArg (List.take 8) whole).trans ((take_append_of_le_length enough).trans lead)

def relationship : Line := "Relationship".toList

def closing : Line := "</Relationships>".toList

theorem texts : closing = '<' :: '/' :: "Relationships>".toList ∧
    ('<' ∉ relationship ∧ relationship.head?.all (fun c => c != '/') = true ∧ relationship ≠ []) ∧
    ('>' ∉ relationship ∧ '$' ∉ relationship ∧ '"' ∉ '<' :: relationship ∧ '$' ∉ closing) ∧
    (closing.getLast? = some '>' ∧ Markup.tags relationship 0 closing = []) ∧
    (workbookPath ≠ relsPath ∧ workbookPath ≠ "[Content_Types].xml".toList ∧ relsPath ≠ "[Content_Types].xml".toList) ∧
    "xl/works".toList ∉ [workbookPath,relsPath,"[Content_Types].xml".toList].map (List.take 8) ∧
    verbatim ('<' :: "/worksheet>".toList) = true := by decide +kernel

theorem closing_eq : closing = '<' :: '/' :: "Relationships>".toList := texts.1

theorem relationship_clear : '<' ∉ relationship ∧ relationship.head?.all (fun c => c != '/') = true ∧ relationship ≠ [] := texts.2.1

theorem relationship_signs : '>' ∉ relationship ∧ '$' ∉ relationship ∧ '"' ∉ '<' :: relationship ∧ '$' ∉ closing := texts.2.2.1

theorem paths_apart : workbookPath ≠ relsPath ∧ workbookPath ≠ "[Content_Types].xml".toList ∧ relsPath ≠ "[Content_Types].xml".toList :=
  texts.2.2.2.2.1

theorem sheetPathOf_apart (k : Nat) : sheetPathOf k ∉ [workbookPath,relsPath,"[Content_Types].xml".toList] := by
  intro member
  have start : (sheetPathOf k).take 8 ∈ [workbookPath,relsPath,"[Content_Types].xml".toList].map (List.take 8) := mem_map_of_mem member
  rw [sheetPathOf_take] at start
  exact texts.2.2.2.2.2.1 start

theorem keyed_get (key : CatalogEntry → Line) (distinct : (catalog.map key).Nodup) (member : entry ∈ catalog) :
    (keyed key catalog).get (key entry) = some entry := by
  induction catalog using List.reverseRecOn with
  | nil => cases member
  | append_singleton catalog last ih =>
    have step : keyed key (catalog ++ [last]) = (keyed key catalog).set (key last) last := by simp [keyed]
    rw [map_append,nodup_append] at distinct
    obtain ⟨before,_,fresh⟩ := distinct
    rw [step]
    rcases mem_append.mp member with inside | inside
    · have ne : key entry ≠ key last := fresh _ (mem_map_of_mem inside) _ mem_cons_self
      rw [get_set_ne ne]
      exact ih before inside
    · cases mem_singleton.mp inside
      exact get_set_self

theorem keyed_mem (key : CatalogEntry → Line) (found : (keyed key catalog).get path = some entry) : entry ∈ catalog ∧ key entry = path := by
  induction catalog using List.reverseRecOn with
  | nil => cases found
  | append_singleton catalog last ih =>
    have step : keyed key (catalog ++ [last]) = (keyed key catalog).set (key last) last := by simp [keyed]
    rw [step,get_set] at found
    split at found
    · rename_i same
      cases found
      exact ⟨by simp,same.symm⟩
    · obtain ⟨inside,same⟩ := ih found
      exact ⟨mem_append_left _ inside,same⟩

structure Entered (rels : KeyMap Line Line) (entry : CatalogEntry) : Prop where
  resolved : rels.get entry.relId = some entry.sheetPath
  quoted : '"' ∉ entry.sheetId ∧ '"' ∉ entry.relId

theorem listed_entered {rels : KeyMap Line Line} (before : ∀ entry ∈ catalog,Entered rels entry) (attrs : Line) :
    ∀ entry ∈ listed rels catalog attrs,Entered rels entry := by
  unfold listed
  split
  · rename_i name relId _ related
    split
    · exact before
    · split
      · rename_i sheetPath resolved
        intro entry member
        rcases mem_append.mp member with inside | inside
        · exact before entry inside
        · cases mem_singleton.mp inside
          refine ⟨resolved,?_,attributeOf_quoted related⟩
          cases sheetId : attributeOf "sheetId".toList attrs with
          | none => exact decimal_quoted
          | some value => exact attributeOf_quoted sheetId
      · exact before
  · exact before

theorem catalog_entered (entries : Entries) :
    ∀ entry ∈ listWorksheetCatalog entries,Entered (relMap (textOf entries "xl/_rels/workbook.xml.rels")) entry := by
  have run : ∀ (groups : List Line) (catalog : List CatalogEntry),
      (∀ entry ∈ catalog,Entered (relMap (textOf entries "xl/_rels/workbook.xml.rels")) entry) →
      ∀ entry ∈ groups.foldl (listed (relMap (textOf entries "xl/_rels/workbook.xml.rels"))) catalog,
        Entered (relMap (textOf entries "xl/_rels/workbook.xml.rels")) entry := by
    intro groups
    induction groups with
    | nil => exact fun _ before => before
    | cons attrs groups ih => exact fun catalog before => ih _ (listed_entered before attrs)
  exact run _ [] (fun _ member => absurd member not_mem_nil)

end Ownly.Sheets.Xlsx
