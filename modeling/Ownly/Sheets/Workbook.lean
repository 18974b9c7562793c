import Ownly.Collab.Types

-- frontend/src/lib/spreadsheet/types.ts: the workbook an editor shows. What no
-- collaborative op looks at is carried along as it is.
namespace Ownly.Sheets
open Collab (Text Value Fields Number)

-- A number that came with JSON is a finite double, and stands for a rational. A large
-- integer is read as the nearest double, of two equally near as the even one.
def nearestDouble (n : Nat) : Nat :=
  if n < 2^53 then n
  else
    let unit := 2^(n.log2 - 52)
    let low := n / unit
    let rest := n % unit
    if 2 * rest < unit ∨ 2 * rest = unit ∧ low % 2 = 0 then low * unit else (low + 1) * unit

def doubleOfBits (bits : UInt64) : Rat :=
  let exponent := bits.toNat / 2^52 % 2^11
  let fraction := bits.toNat % 2^52
  let significand : Nat := if exponent = 0 then fraction else 2^52 + fraction
  let scale : Nat := max exponent 1
  let size : Rat :=
    if scale < 1075 then mkRat significand (2^(1075 - scale)) else (significand * 2^(scale - 1075) : Nat)
  if bits.toNat / 2^63 = 1 then -size else size

def numberOf : Number → Rat
  | .posInt n => nearestDouble n.toNat
  | .negInt n => -(nearestDouble n.toInt.natAbs : Rat)
  | .float bits => doubleOfBits bits

inductive CellValue where
  | null
  | text (text : Text)
  | number (number : Rat)
  deriving DecidableEq, Repr

inductive StyleKey where
  | bold | italic | underline | doubleUnderline | strikethrough | horizontalAlign | verticalAlign
  | numberFormat | customNumberFormat | backgroundColor | textColor | fontFamily | fontSize | wrapText
  | borderTop | borderRight | borderBottom | borderLeft | borderColor | borderStyle
  | borderTopStyle | borderRightStyle | borderBottomStyle | borderLeftStyle
  | borderTopColor | borderRightColor | borderBottomColor | borderLeftColor | isHeaderRow | isTotalRow
  deriving DecidableEq, Repr

def StyleKey.asStr : StyleKey → String
  | .bold => "bold"
  | .italic => "italic"
  | .underline => "underline"
  | .doubleUnderline => "doubleUnderline"
  | .strikethrough => "strikethrough"
  | .horizontalAlign => "horizontalAlign"
  | .verticalAlign => "verticalAlign"
  | .numberFormat => "numberFormat"
  | .customNumberFormat => "customNumberFormat"
  | .backgroundColor => "backgroundColor"
  | .textColor => "textColor"
  | .fontFamily => "fontFamily"
  | .fontSize => "fontSize"
  | .wrapText => "wrapText"
  | .borderTop => "borderTop"
  | .borderRight => "borderRight"
  | .borderBottom => "borderBottom"
  | .borderLeft => "borderLeft"
  | .borderColor => "borderColor"
  | .borderStyle => "borderStyle"
  | .borderTopStyle => "borderTopStyle"
  | .borderRightStyle => "borderRightStyle"
  | .borderBottomStyle => "borderBottomStyle"
  | .borderLeftStyle => "borderLeftStyle"
  | .borderTopColor => "borderTopColor"
  | .borderRightColor => "borderRightColor"
  | .borderBottomColor => "borderBottomColor"
  | .borderLeftColor => "borderLeftColor"
  | .isHeaderRow => "isHeaderRow"
  | .isTotalRow => "isTotalRow"

def cellStyleKeys : List StyleKey :=
  [.bold,.italic,.underline,.doubleUnderline,.strikethrough,.horizontalAlign,.verticalAlign,
   .numberFormat,.customNumberFormat,.backgroundColor,.textColor,.fontFamily,.fontSize,.wrapText,
   .borderTop,.borderRight,.borderBottom,.borderLeft,.borderColor,.borderStyle,
   .borderTopStyle,.borderRightStyle,.borderBottomStyle,.borderLeftStyle,
   .borderTopColor,.borderRightColor,.borderBottomColor,.borderLeftColor,.isHeaderRow,.isTotalRow]

-- The order of an object's keys is no part of it.
abbrev CellStyle := StyleKey → Option Value

structure SheetCell where
  value : CellValue
  formula : Option Text
  display : Text
  style : Option CellStyle
  comment : Option Text
  hyperlink : Option Text
  spillFrom : Option Text

structure MergedRegion where
  startRow : Rat
  startCol : Rat
  endRow : Rat
  endCol : Rat
  deriving DecidableEq, Repr

structure TrackChangeEntry where
  id : Text
  timestamp : Text
  author : Text
  sheetName : Text
  cell : Text
  before : Text
  after : Text
  deriving DecidableEq, Repr

-- An entry of a dimension list may be missing, or null after JSON.
abbrev Dimensions := Option (List (Option Rat))

structure SheetData where
  name : Text
  rows : List (List SheetCell)
  columnWidths : Dimensions
  rowHeights : Dimensions
  mergedRegions : Option (List MergedRegion)
  others : Fields

structure SpreadsheetWorkbook where
  sheets : List SheetData
  namedRanges : Option Value
  trackChanges : Option (List TrackChangeEntry)
  trackChangesEnabled : Option Bool
  others : Fields

-- `{ sheets }`, which leaves everything else of a workbook behind.
def ofSheets (sheets : List SheetData) : SpreadsheetWorkbook := ⟨sheets,none,none,none,[]⟩

-- A workbook that comes as JSON is taken for one as it is. Here it is read at its type:
-- what is missing or of another type reads as absent.
def readItems : Option Value → List Value
  | some (.array items) => items
  | _ => []

def readText (value : Option Value) : Text := (value.bind Value.asStr).getD []

def readNumber : Value → Option Rat
  | .number n => some (numberOf n)
  | _ => none

def readRat (value : Option Value) : Rat := (value.bind readNumber).getD 0

def readBool : Value → Option Bool
  | .bool b => some b
  | _ => none

def readCellValue : Option Value → CellValue
  | some (.string text) => .text text
  | some (.number n) => .number (numberOf n)
  | _ => .null

def readStyle : Option Value → Option CellStyle
  | some (.object fields) => some (fun key => Fields.get fields key.asStr)
  | _ => none

def readCell (value : Value) : SheetCell :=
  {value := readCellValue (value.get "value")
   formula := (value.get "formula").bind Value.asStr
   display := readText (value.get "display")
   style := readStyle (value.get "style")
   comment := (value.get "comment").bind Value.asStr
   hyperlink := (value.get "hyperlink").bind Value.asStr
   spillFrom := (value.get "spillFrom").bind Value.asStr}

def readDimensions : Option Value → Dimensions
  | some (.array items) => some (items.map readNumber)
  | _ => none

def readRegion (value : Value) : MergedRegion :=
  ⟨readRat (value.get "startRow"),readRat (value.get "startCol"),readRat (value.get "endRow"),readRat (value.get "endCol")⟩

def readRegions : Option Value → Option (List MergedRegion)
  | some (.array items) => some (items.map readRegion)
  | _ => none

def readEntry (value : Value) : TrackChangeEntry :=
  {id := readText (value.get "id")
   timestamp := readText (value.get "timestamp")
   author := readText (value.get "author")
   sheetName := readText (value.get "sheetName")
   cell := readText (value.get "cell")
   before := readText (value.get "before")
   after := readText (value.get "after")}

def readEntries : Option Value → Option (List TrackChangeEntry)
  | some (.array items) => some (items.map readEntry)
  | _ => none

def otherFields (keys : List String) (value : Value) : Fields :=
  (value.asObject.getD []).filter (fun field => !keys.contains field.1)

def readSheet (value : Value) : SheetData :=
  {name := readText (value.get "name")
   rows := (readItems (value.get "rows")).map (fun row => (readItems (some row)).map readCell)
   columnWidths := readDimensions (value.get "columnWidths")
   rowHeights := readDimensions (value.get "rowHeights")
   mergedRegions := readRegions (value.get "mergedRegions")
   others := otherFields ["name","rows","columnWidths","rowHeights","mergedRegions"] value}

def readWorkbook (value : Value) : SpreadsheetWorkbook :=
  {sheets := (readItems (value.get "sheets")).map readSheet
   namedRanges := value.get "namedRanges"
   trackChanges := readEntries (value.get "trackChanges")
   trackChangesEnabled := (value.get "trackChangesEnabled").bind readBool
   others := otherFields ["sheets","namedRanges","trackChanges","trackChangesEnabled"] value}

-- `typeof value === "object"` of what is not null.
def isObject : Value → Bool
  | .object _ | .array _ => true
  | _ => false

end Ownly.Sheets
