import Ownly.Lib.Markup
import Ownly.Lib.KeyMap
import Ownly.Lib.JsString
import Mathlib.Data.Nat.Digits.Defs

-- frontend/src/lib/spreadsheet/xlsx-passthrough.ts, xlsx-workbook-structure.ts,
-- xlsx-sheet-links.ts and xlsx-worksheet-merge.ts. A package is its entries by path.
namespace Ownly.Sheets.Xlsx
open Text (Line)
open Markup

abbrev Entries := KeyMap Line Line

def textOf (entries : Entries) (path : String) : Line := (entries.get path.toList).getD []

def decimal (n : Nat) : Line := Nat.toDigits 10 n

structure CatalogEntry where
  name : Line
  sheetPath : Line
  sheetId : Line
  relId : Line
  deriving DecidableEq, Repr

def normalizeXlsxEntryPath (target : Line) : Line :=
  let path := (Text.stripPrefix "./".toList target).getD target
  if "xl/".toList <+: path then path else "xl/".toList ++ path

def related (map : KeyMap Line Line) (attrs : Line) : KeyMap Line Line :=
  match attributeOf "Id".toList attrs,attributeOf "Target".toList attrs with
  | some id,some target => if id ≠ [] ∧ target ≠ [] then map.set id (normalizeXlsxEntryPath target) else map
  | _,_ => map

def relMap (relsXml : Line) : KeyMap Line Line := (tags "Relationship".toList 0 relsXml).foldl related KeyMap.empty

def listed (rels : KeyMap Line Line) (catalog : List CatalogEntry) (attrs : Line) : List CatalogEntry :=
  match attributeOf "name".toList attrs,attributeOf "r:id".toList attrs with
  | some name,some relId =>
    if name = [] ∨ relId = [] then catalog
    else match rels.get relId with
      | some sheetPath =>
        catalog ++ [⟨name,sheetPath,(attributeOf "sheetId".toList attrs).getD (decimal (catalog.length + 1)),relId⟩]
      | none => catalog
  | _,_ => catalog

def listWorksheetCatalog (entries : Entries) : List CatalogEntry :=
  (tags "sheet".toList 0 (textOf entries "xl/workbook.xml")).foldl (listed (relMap (textOf entries "xl/_rels/workbook.xml.rels"))) []

-- `new Map(catalog.map(..))`
def keyed (key : CatalogEntry → Line) (catalog : List CatalogEntry) : KeyMap Line CatalogEntry :=
  catalog.foldl (fun map entry => map.set (key entry) entry) KeyMap.empty

structure Tab where
  name : Line
  sourceSheetId : Option Line
  sourceRelId : Option Line
  sourceWorksheetPath : Option Line
  deriving DecidableEq, Repr

-- `<sheets\b[\s\S]*?</sheets>`
def sheetsElement : Line → Option (Line × Line × Line) :=
  element "sheets".toList (fun text => if text.head?.all (fun c => !isWord c) then some text else none)

-- `<sheetData\b[^>]*>[\s\S]*?</sheetData>`
def sheetDataElement : Line → Option (Line × Line × Line) := element "sheetData".toList (fun text => (groupAt text).map Prod.snd)

def extractSheetDataBlock (worksheetXml : Line) : Option Line := (sheetDataElement worksheetXml).map (fun parts => parts.2.1)

def replaceSheetDataInWorksheet (worksheetXml sheetDataBlock : Line) : Line :=
  match sheetDataElement worksheetXml with
  | some (before,matched,after) => before ++ substitute matched before after sheetDataBlock ++ after
  | none =>
    if (openingAt "sheetData".toList worksheetXml).isSome then worksheetXml
    else if contains Char.toLower "</sheetData>".toList worksheetXml then worksheetXml
    else match openingAt "mergeCells".toList worksheetXml with
      | some (before,after) => before ++ sheetDataBlock ++ after
      | none =>
        if contains Char.toLower "</worksheet>".toList worksheetXml then
          replaceFirst Char.toLower "</worksheet>".toList (sheetDataBlock ++ "</worksheet>".toList) worksheetXml
        else worksheetXml ++ sheetDataBlock

def escapeChar : Char → Line
  | '&' => "&amp;".toList
  | '<' => "&lt;".toList
  | '>' => "&gt;".toList
  | '"' => "&quot;".toList
  | c => [c]

def escapeXmlAttribute (value : Line) : Line := value.flatMap escapeChar

def worksheetRelsPath (sheetPath : Line) : Line :=
  replaceFirst id "xl/worksheets/".toList "xl/worksheets/_rels/".toList sheetPath ++ ".rels".toList

def sheetTag (name sheetId relId : Line) : Line :=
  "<sheet name=\"".toList ++ escapeXmlAttribute name ++ "\" sheetId=\"".toList ++ sheetId ++ "\" r:id=\"".toList ++ relId ++ "\"/>".toList

def sheetsBlock (sheetTags : List Line) : Line :=
  "<sheets count=\"".toList ++ decimal sheetTags.length ++ "\">".toList ++ sheetTags.flatten ++ "</sheets>".toList

def rebuildWorkbookSheets (workbookXml : Line) (sheetTags : List Line) : Line :=
  match sheetsElement workbookXml with
  | some (before,matched,after) => before ++ substitute matched before after (sheetsBlock sheetTags) ++ after
  | none => replaceFirst id "</workbook>".toList (sheetsBlock sheetTags ++ "</workbook>".toList) workbookXml

def idAttribute (relId : Line) : Line := "Id=\"".toList ++ relId ++ ['"']

def freshRels (relationship : Line) : Line :=
  ("<?xml version=\"1.0\" encoding=\"UTF-8\" standalone=\"yes\"?>" ++
    "<Relationships xmlns=\"http://schemas.openxmlformats.org/package/2006/relationships\">").toList ++
    relationship ++ "</Relationships>".toList

def mergeRelationship (generatedRelsXml rels : Line) (entry : CatalogEntry) : Line :=
  if contains id (idAttribute entry.relId) rels then rels
  else match findTag "Relationship".toList (contains Char.toLower (idAttribute entry.relId)) generatedRelsXml with
    | none => rels
    | some generatedRel =>
      if contains id "</Relationships>".toList rels then
        replaceFirst id "</Relationships>".toList (generatedRel ++ "</Relationships>".toList) rels
      else freshRels generatedRel

def mergeWorkbookRelationships (sourceRelsXml generatedRelsXml : Line) (newEntries : List CatalogEntry) : Line :=
  newEntries.foldl (mergeRelationship generatedRelsXml) sourceRelsXml

-- The path stands in a pattern as it is, where a dot takes any character of the line.
def patternAt : Line → Line → Bool
  | [],_ => true
  | _ :: _,[] => false
  | p :: pattern,c :: text =>
    (if p = '.' then decide (c ∉ ['\n','\r','\u2028','\u2029']) else p.toLower == c.toLower) && patternAt pattern text

def containsPattern (pattern text : Line) : Bool := text.tails.any (patternAt pattern)

def mergeContentType (generatedXml merged sheetPath : Line) : Line :=
  let partName := "PartName=\"/".toList ++ sheetPath ++ ['"']
  if contains id partName merged then merged
  else match findTag "Override".toList (containsPattern partName) generatedXml with
    | none => merged
    | some override => replaceFirst id "</Types>".toList (override ++ "</Types>".toList) merged

def mergeContentTypesXml (sourceXml generatedXml : Line) (newWorksheetPaths : List Line) : Line :=
  newWorksheetPaths.foldl (mergeContentType generatedXml) sourceXml

inductive Choice where
  | kept (entry : CatalogEntry)
  | added (entry : CatalogEntry)
  deriving DecidableEq, Repr

def Choice.entry : Choice → CatalogEntry
  | .kept entry => entry
  | .added entry => entry

def choose (sourceCatalog generatedCatalog : List CatalogEntry) (sheet : Tab) : Option Choice :=
  match (sheet.sourceSheetId.filter (fun sheetId => decide (sheetId ≠ []))).bind (keyed CatalogEntry.sheetId sourceCatalog).get with
  | some entry => some (.kept entry)
  | none => ((keyed CatalogEntry.name generatedCatalog).get sheet.name).map .added

def chosenTag (sourceCatalog generatedCatalog : List CatalogEntry) (sheet : Tab) : Option Line :=
  (choose sourceCatalog generatedCatalog sheet).map (fun choice => sheetTag sheet.name choice.entry.sheetId choice.entry.relId)

def chosenNew (sourceCatalog generatedCatalog : List CatalogEntry) (sheet : Tab) : Option CatalogEntry :=
  match choose sourceCatalog generatedCatalog sheet with
  | some (.added entry) => some entry
  | _ => none

def copyPart (generated : Entries) (path : Line) (merged : Entries) : Entries :=
  match generated.get path with
  | some bytes => merged.set path bytes
  | none => merged

def copySheet (generated merged : Entries) (entry : CatalogEntry) : Entries :=
  copyPart generated (worksheetRelsPath entry.sheetPath) (copyPart generated entry.sheetPath merged)

def applyWorkbookStructureMerge (merged source generated : Entries) (sheets : List Tab)
    (sourceCatalog generatedCatalog : List CatalogEntry) : Entries :=
  let sheetTags := sheets.filterMap (chosenTag sourceCatalog generatedCatalog)
  let newSheets := sheets.filterMap (chosenNew sourceCatalog generatedCatalog)
  let copied := newSheets.foldl (copySheet generated) merged
  let rebuilt := copied.set "xl/workbook.xml".toList (rebuildWorkbookSheets (textOf source "xl/workbook.xml") sheetTags)
  let linked := rebuilt.set "xl/_rels/workbook.xml.rels".toList (mergeWorkbookRelationships (textOf source "xl/_rels/workbook.xml.rels")
    (textOf generated "xl/_rels/workbook.xml.rels") newSheets)
  linked.set "[Content_Types].xml".toList (mergeContentTypesXml (textOf source "[Content_Types].xml")
    (textOf generated "[Content_Types].xml") (newSheets.map CatalogEntry.sheetPath))

def preservedFolders : List String :=
  ["xl/drawings/","xl/charts/","xl/pivotTables/","xl/pivotCache/","xl/tables/","xl/externalLinks/","xl/printerSettings/",
   "xl/activeX/","xl/ctrlProps/","xl/embeddings/","xl/media/","xl/threadedComments/","xl/richData/","xl/metadata/","xl/persons/",
   "xl/slicerCaches/","xl/timelineCaches/","docProps/","customXml/","xl/worksheets/_rels/"]

def shouldPreserveSourceEntry (path : Line) : Bool :=
  preservedFolders.any (fun folder => leads id folder.toList path) || leads Char.toLower "xl/vbaProject".toList path ||
    path == "xl/calcChain.xml".toList

def overlay (source generated : Entries) : Entries :=
  source.entries.foldl (fun merged entry => if shouldPreserveSourceEntry entry.1 then merged.set entry.1 entry.2 else merged) generated

-- xlsx-styles-merge.ts: mergeStylesXml with its remap of the generated style indices, and
-- remapSheetDataStyleIndices.
structure Styles where
  merge : Line → Line → Line × KeyMap Nat Nat
  remap : Line → KeyMap Nat Nat → Line

def mergeStyles (styles : Styles) (source generated merged : Entries) : Entries × KeyMap Nat Nat :=
  let path := "xl/styles.xml".toList
  match source.get path,generated.get path with
  | some ours,some theirs => (merged.set path (styles.merge ours theirs).1,(styles.merge ours theirs).2)
  | some ours,none => (merged.set path ours,KeyMap.empty)
  | none,_ => (merged,KeyMap.empty)

def restyle (styles : Styles) (source generated : Entries) (sheetData : Line) : Line :=
  let remap := (mergeStyles styles source generated KeyMap.empty).2
  if remap.entries = [] then sheetData else styles.remap sheetData remap

def patch (styles : Styles) (source generated : Entries) (links : KeyMap Line CatalogEntry) (merged : Entries) (sheet : Tab) : Entries :=
  match links.get sheet.name with
  | none => merged
  | some link =>
    match generated.get link.sheetPath with
    | none => merged
    | some generatedXml =>
      match extractSheetDataBlock generatedXml with
      | none => merged
      | some sheetData =>
        let shell := match sheet.sourceWorksheetPath with
          | some path => source.get path <|> merged.get path
          | none => merged.get link.sheetPath <|> some generatedXml
        match shell with
        | none => merged
        | some shellXml =>
          merged.set (sheet.sourceWorksheetPath.getD link.sheetPath)
            (replaceSheetDataInWorksheet shellXml (restyle styles source generated sheetData))

def mergePassthroughXlsx (styles : Styles) (source generated : Entries) (sheets : List Tab) : Entries :=
  let merged := (mergeStyles styles source generated (overlay source generated)).1
  let structured := applyWorkbookStructureMerge merged source generated sheets (listWorksheetCatalog source) (listWorksheetCatalog generated)
  sheets.foldl (patch styles source generated (keyed CatalogEntry.name (listWorksheetCatalog generated))) structured

def opened (source : Entries) (name : Line) : Tab :=
  let entry := (keyed CatalogEntry.name (listWorksheetCatalog source)).get name
  ⟨name,entry.map CatalogEntry.sheetId,entry.map CatalogEntry.relId,entry.map CatalogEntry.sheetPath⟩

def addSheet (name : Option Line) (sheets : List Tab) : List Tab :=
  sheets ++ [⟨name.getD ("Sheet".toList ++ decimal (sheets.length + 1)),none,none,none⟩]

def removeSheet (sheetIndex : Nat) (sheets : List Tab) : List Tab :=
  if sheets.length ≤ 1 then sheets else sheets.eraseIdx sheetIndex

def trim (name : Line) : Line :=
  (name.dropWhile (fun c => decide (JsString.Blank c.toNat))).rdropWhile (fun c => decide (JsString.Blank c.toNat))

def renameSheet (sheetIndex : Nat) (name : Line) (sheets : List Tab) : List Tab :=
  if trim name = [] then sheets else sheets.modify sheetIndex (fun sheet => {sheet with name := trim name})

def moveSheet (fromIndex toIndex : Nat) (sheets : List Tab) : List Tab :=
  if fromIndex = toIndex then sheets
  else match sheets[fromIndex]? with
    | none => sheets
    | some sheet => (sheets.eraseIdx fromIndex).take toIndex ++ sheet :: (sheets.eraseIdx fromIndex).drop toIndex

inductive Obtained (source : Entries) : List Tab → Prop where
  | opened (names : List Line) (distinct : names.Nodup) : Obtained source (names.map (opened source))
  | added (name : Option Line) (before : Obtained source sheets) : Obtained source (addSheet name sheets)
  | removed (sheetIndex : Nat) (before : Obtained source sheets) : Obtained source (removeSheet sheetIndex sheets)
  | renamed (sheetIndex : Nat) (name : Line) (before : Obtained source sheets) : Obtained source (renameSheet sheetIndex name sheets)
  | moved (fromIndex toIndex : Nat) (before : Obtained source sheets) : Obtained source (moveSheet fromIndex toIndex sheets)

end Ownly.Sheets.Xlsx
