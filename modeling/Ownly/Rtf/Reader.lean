import Ownly.Lib.Loop
import Ownly.Rtf.Writer

-- frontend/src/lib/rtf/rtf-to-html.ts: the HTML that the editor shows for RTF.
namespace Ownly.Rtf
open JsString

structure CharState where
  bold : Bool := false
  italic : Bool := false
  underline : Bool := false
  strike : Bool := false
  superScript : Bool := false
  subScript : Bool := false
  fontIndex : Int := 0
  fontSizeHalfPoints : Int := 24
  colorIndex : Int := 0
  highlightIndex : Int := 0
deriving DecidableEq, Repr

structure Color where
  r : Int
  g : Int
  b : Int
deriving DecidableEq, Repr

-- `parseInt` in base 16 of at most two units: white space, a sign or 0x, and what digits come.
def hexByte (input : Str) : Option Int :=
  let text := (trimStart input).map lower
  let sign := text.head?.filter (fun unit => unit = 45 ∨ unit = 43)
  let text := if sign.isSome then text.tail else (text.dropPrefix? (str "0x")).getD text
  let digits := (text.map hexDigit).takeWhile Option.isSome
  if digits = [] then none
  else some ((if sign = some 45 then -1 else 1) * (digits.foldl (fun n d => 16 * n + d.getD 0) 0 : Nat))

def fromCharCode (code : Int) : Str := [(code % 65536).toNat]

def windows1252 : List (Int × String) :=
  [(0x80,"€"),(0x82,"‚"),(0x83,"ƒ"),(0x84,"„"),(0x85,"…"),(0x86,"†"),(0x87,"‡"),(0x88,"ˆ"),(0x89,"‰"),(0x8a,"Š"),(0x8b,"‹"),
    (0x8c,"Œ"),(0x8e,"Ž"),(0x91,"‘"),(0x92,"’"),(0x93,"“"),(0x94,"”"),(0x95,"•"),(0x96,"–"),(0x97,"—"),(0x98,"˜"),(0x99,"™"),
    (0x9a,"š"),(0x9b,"›"),(0x9c,"œ"),(0x9e,"ž"),(0x9f,"Ÿ")]

def decodeHexEscape (hex : Str) : Str :=
  match hexByte hex with
  | none => []
  | some code => ((windows1252.lookup code).map str).getD (fromCharCode code)

def colorCss (color : Color) : Str :=
  str "rgb(" ++ decimal color.r ++ str ", " ++ decimal color.g ++ str ", " ++ decimal color.b ++ str ")"

def sanitizeCssFontName (font : Option Str) : Str :=
  let cleaned := trim ((font.getD helvetica).filter (fun unit => unit ∉ [59,34,39,60,62,92]))
  if cleaned = [] then helvetica else cleaned

def NearWhite (color : Color) : Prop := 250 ≤ color.r ∧ 250 ≤ color.g ∧ 250 ≤ color.b

instance (color : Color) : Decidable (NearWhite color) := by unfold NearWhite; infer_instance

-- `colors[index]`
def colorAt (colors : List Color) (index : Int) : Option Color := if 0 ≤ index then colors[index.toNat]? else none

-- `Math.max(8, size / 2)` with its unit
def fontSizeCss (size : Int) : Str :=
  (if size ≤ 16 then str "8" else decimal (size / 2) ++ if size % 2 = 0 then [] else str ".5") ++ str "pt"

def decorations (char : CharState) : Str :=
  if char.underline ∧ char.strike then str "underline line-through"
  else if char.underline then str "underline"
  else if char.strike then str "line-through"
  else []

-- Color 0 is the automatic one, and one near white would not show on the paper.
def shownColor (property : Property) (colors : List Color) (index : Int) : Style :=
  match colorAt colors index with
  | some color => if 0 < index ∧ ¬NearWhite color then [(property,colorCss color)] else []
  | none => []

def declareIf (wanted : Bool) (style : Style) : Style := if wanted then style else []

def openSpan (char : CharState) (fonts : Int → Option Str) (colors : List Color) : Style :=
  ([(.fontFamily,sanitizeCssFontName (fonts char.fontIndex) ++ str ", sans-serif"),
    (.fontSize,fontSizeCss char.fontSizeHalfPoints)] : Style) ++
  declareIf char.bold [(.fontWeight,str "700")] ++
  declareIf char.italic [(.fontStyle,str "italic")] ++
  declareIf (decorations char ≠ []) [(.textDecoration,decorations char)] ++
  declareIf char.superScript [(.verticalAlign,str "super"),(.fontSize,str "0.75em")] ++
  declareIf char.subScript [(.verticalAlign,str "sub"),(.fontSize,str "0.75em")] ++
  shownColor .color colors char.colorIndex ++
  shownColor .backgroundColor colors char.highlightIndex

-- The control words and symbols that the reader knows; \line is read as \par is, \cb as
-- \highlight, and of a destination that is skipped it does not matter which one it is.
inductive Word where
  | fonttbl | colortbl | skipped | ignorable
  | f | fontClass | red | green | blue
  | par | pard | plain
  | b | i | ul | ulnone | strike | super | sub | nosupersub
  | fs | cf | highlight
  | align (align : Align)
  | u | uc
  | text (content : String)
  | other
deriving DecidableEq, Repr

def words : List (String × Word) :=
  [("par",.par),("line",.par),("pard",.pard),("plain",.plain),("b",.b),("i",.i),("ul",.ul),("ulnone",.ulnone),("strike",.strike),
    ("super",.super),("sub",.sub),("nosupersub",.nosupersub),("fs",.fs),("f",.f),("cf",.cf),("cb",.highlight),("highlight",.highlight),
    ("ql",.align .left),("qc",.align .center),("qr",.align .right),("qj",.align .justify),("u",.u),("uc",.uc),
    ("\x7b",.text "\x7b"),("\x7d",.text "\x7d"),("\\",.text "\\"),("~",.text "\u00a0"),("tab",.text "\t"),
    ("emdash",.text "—"),("endash",.text "–"),("lquote",.text "‘"),("rquote",.text "’"),("ldblquote",.text "“"),
    ("rdblquote",.text "”"),("bullet",.text "•"),
    ("fonttbl",.fonttbl),("colortbl",.colortbl),("stylesheet",.skipped),("info",.skipped),("pict",.skipped),("object",.skipped),
    ("header",.skipped),("footer",.skipped),("footnote",.skipped),("nonshppict",.skipped),("listtable",.skipped),
    ("listoverridetable",.skipped),("*expandedcolortbl",.skipped),("filetbl",.skipped),("xmlnstbl",.skipped),("*",.ignorable),
    ("fnil",.fontClass),("froman",.fontClass),("fswiss",.fontClass),("fmodern",.fontClass),("fscript",.fontClass),
    ("fdecor",.fontClass),("ftech",.fontClass),("fbidi",.fontClass),("fcharset",.fontClass),("fprq",.fontClass),("cpg",.fontClass),
    ("red",.red),("green",.green),("blue",.blue)]

def wordOf (name : Str) : Word := ((words.find? (fun known => str known.1 = name)).map Prod.snd).getD .other

structure Frame where
  destination : Option Word := none
  skip : Bool := false
  char : CharState := {}
  para : Align := .left
deriving DecidableEq, Repr

structure ColorBuilding where
  r : Option Int := none
  g : Option Int := none
  b : Option Int := none
deriving DecidableEq, Repr

-- `rest` is what of the RTF comes from `i` on, and the stack never loses its last frame.
structure Reader where
  rest : Str
  top : Frame := {}
  below : List Frame := []
  fonts : Int → Option Str := fun index => if index = 0 then some helvetica else none
  colors : List Color := [⟨0,0,0⟩]
  html : List Piece := []
  paraOpen : Bool := false
  spanOpen : Bool := false
  currentSpanKey : Option CharState := none
  ucSkip : Int := 1
  pendingUnicodeSkip : Int := 0
  inFonttbl : Bool := false
  inColortbl : Bool := false
  fontBuffer : Str := []
  currentFontIndex : Int := 0
  colorBuilding : ColorBuilding := {}

def Align.css : Align → Str
  | .left => str "left"
  | .center => str "center"
  | .right => str "right"
  | .justify => str "justify"

def paraStyle (align : Align) : Style := [(.textAlign,align.css),(.margin,str "0 0 0.75em")]

def ensurePara (s : Reader) : Reader :=
  if s.paraOpen then s
  else { s with html := s.html ++ [.openTag .p (paraStyle s.top.para)], paraOpen := true, spanOpen := false, currentSpanKey := none }

def closeSpan (s : Reader) : Reader :=
  if s.spanOpen then { s with html := s.html ++ [.closeTag], spanOpen := false, currentSpanKey := none } else s

def closePara (s : Reader) : Reader :=
  let s := closeSpan s
  if s.paraOpen then { s with html := s.html ++ [.closeTag], paraOpen := false } else s

def enterSpan (s : Reader) : Reader :=
  if s.spanOpen = false ∨ some s.top.char ≠ s.currentSpanKey then
    let s := closeSpan s
    { s with
      html := s.html ++ [.openTag .span (openSpan s.top.char s.fonts s.colors)], spanOpen := true, currentSpanKey := some s.top.char }
  else s

def emitText (text : Str) (s : Reader) : Reader :=
  if text = [] ∨ s.top.skip then s
  else
    let s := enterSpan (ensurePara s)
    { s with html := writeText text s.html }

-- A number behind a control word; a sign without digits, which is NaN there, is read as none.
def parseParam (text : Str) : Option Int × Str :=
  match text with
  | 45 :: rest => (if takeDigits rest = [] then none else some (-(ofDigits (takeDigits rest) : Int)),dropDigits rest)
  | text => (if takeDigits text = [] then none else some (ofDigits (takeDigits text)),dropDigits text)

def skipSpace : Str → Str
  | 32 :: rest => rest
  | text => text

def parseControl : Str → Str × Option Int × Str
  | [] => ([],none,[])
  | first :: rest =>
    if Letter first then
      let name := (first :: rest).takeWhile (fun unit => decide (Letter unit))
      let (param,rest) := parseParam ((first :: rest).dropWhile (fun unit => decide (Letter unit)))
      (name.map lower,param,skipSpace rest)
    else ([first],none,rest)

def flushed (fonts : Int → Option Str) (currentFontIndex : Int) (fontBuffer : Str) : Int → Option Str :=
  let cleaned := trim (if fontBuffer.getLast? = some 59 then fontBuffer.dropLast else fontBuffer)
  let name := if stripQuotes cleaned = [] then helvetica else stripQuotes cleaned
  if cleaned = [] then fonts else Function.update fonts currentFontIndex (some name)

def flushFont (s : Reader) : Reader :=
  if s.inFonttbl then { s with fonts := flushed s.fonts s.currentFontIndex s.fontBuffer, fontBuffer := [] } else s

def flushColor (s : Reader) : Reader :=
  if s.inColortbl then
    { s with
      colors := s.colors ++ [⟨s.colorBuilding.r.getD 0,s.colorBuilding.g.getD 0,s.colorBuilding.b.getD 0⟩], colorBuilding := {} }
  else s

def enterDestination (word : Word) (s : Reader) : Reader :=
  { s with
    top := { s.top with destination := some word, skip := word = .skipped }
    inFonttbl := s.inFonttbl || word = .fonttbl
    inColortbl := s.inColortbl || word = .colortbl
    colors := if word = .colortbl then [⟨0,0,0⟩] else s.colors }

def Reader.setChar (change : CharState → CharState) (s : Reader) : Reader := { s with top := { s.top with char := change s.top.char } }

def Reader.setAlign (align : Align) (s : Reader) : Reader := { s with top := { s.top with para := align } }

-- A switch is on with no parameter and with any but 0.
def on (param : Option Int) : Bool := param ≠ some 0

def applyControl (param : Option Int) (s : Reader) : Word → Reader
  | .par => ensurePara (closePara s)
  | .pard => s.setAlign .left
  | .plain => s.setChar (fun _ => {})
  | .b => s.setChar (fun char => { char with bold := on param })
  | .i => s.setChar (fun char => { char with italic := on param })
  | .ul => s.setChar (fun char => { char with underline := on param })
  | .ulnone => s.setChar (fun char => { char with underline := false })
  | .strike => s.setChar (fun char => { char with strike := on param })
  | .super => s.setChar (fun char => { char with superScript := true, subScript := false })
  | .sub => s.setChar (fun char => { char with subScript := true, superScript := false })
  | .nosupersub => s.setChar (fun char => { char with superScript := false, subScript := false })
  | .fs => s.setChar (fun char => { char with fontSizeHalfPoints := param.getD char.fontSizeHalfPoints })
  | .f => s.setChar (fun char => { char with fontIndex := param.getD char.fontIndex })
  | .cf => s.setChar (fun char => { char with colorIndex := param.getD char.colorIndex })
  | .highlight => s.setChar (fun char => { char with highlightIndex := param.getD char.highlightIndex })
  | .align align => s.setAlign align
  | .u => match param with
    | none => s
    | some code => { emitText (fromCharCode (if code < 0 then code + 65536 else code)) s with pendingUnicodeSkip := s.ucSkip }
  | .uc => { s with ucSkip := param.getD s.ucSkip }
  | .text content => emitText (str content) s
  | _ => s

-- In the font table, each entry has a number.
def beginFont (param : Int) (s : Reader) : Reader :=
  let s := flushFont s
  { s with fonts := Function.update s.fonts param (some ((s.fonts param).getD helvetica)), currentFontIndex := param }

def colorControl (param : Option Int) (s : Reader) : Word → Reader
  | .red => { s with colorBuilding := { s.colorBuilding with r := param.or s.colorBuilding.r } }
  | .green => { s with colorBuilding := { s.colorBuilding with g := param.or s.colorBuilding.g } }
  | .blue => { s with colorBuilding := { s.colorBuilding with b := param.or s.colorBuilding.b } }
  | _ => s

def control (word : Word) (param : Option Int) (s : Reader) : Reader :=
  if word ∈ [.fonttbl,.colortbl,.skipped] then enterDestination word s
  else if word = .ignorable then s
  else if s.top.skip ∧ word ≠ .f ∧ s.inFonttbl = false ∧ s.inColortbl = false then s
  else match s.inFonttbl,word,param with
    | true,.f,some param => beginFont param s
    | true,.fontClass,_ => s
    | _,word,param => if s.inColortbl then colorControl param s word else applyControl param s word

def pushFrame (s : Reader) : Reader := { s with below := s.top :: s.below }

def popFrame (s : Reader) : Reader :=
  let s := if s.inFonttbl ∧ s.below.length ≤ 1 then flushFont s else s
  let s := match s.below with
    | [] => s
    | parent :: below => { s with top := parent, below := below }
  { s with
    inFonttbl := s.inFonttbl && (s.top :: s.below).any (fun frame => frame.destination = some .fonttbl)
    inColortbl := s.inColortbl && (s.top :: s.below).any (fun frame => frame.destination = some .colortbl) }

def plainUnit (ch : Nat) (s : Reader) : Reader :=
  if ch = 13 ∨ ch = 10 then s
  else if s.inFonttbl then if ch = 59 then flushFont s else { s with fontBuffer := s.fontBuffer ++ [ch] }
  else if s.inColortbl then if ch = 59 then flushColor s else s
  else emitText [ch] s

-- One round of the loop; `rest` is what comes after `ch`.
def readUnit (ch : Nat) (rest : Str) (s : Reader) : Reader :=
  if 0 < s.pendingUnicodeSkip ∧ ch ≠ 92 ∧ ch ≠ 123 ∧ ch ≠ 125 then
    { s with rest, pendingUnicodeSkip := s.pendingUnicodeSkip - 1 }
  else if ch = 123 then { pushFrame s with rest }
  else if ch = 125 then { popFrame s with rest }
  else if ch = 92 then match rest with
    | [] => { s with rest := [] }
    | 39 :: rest =>
      let text := decodeHexEscape (rest.take 2)
      if s.inFonttbl then { s with fontBuffer := s.fontBuffer ++ text, rest := rest.drop 2 }
      else { emitText text s with rest := rest.drop 2 }
    | rest =>
      let (name,param,rest) := parseControl rest
      { control (wordOf name) param s with rest }
  else { plainUnit ch s with rest }

def readNext (s : Reader) : Option Reader :=
  match s.rest with
  | [] => none
  | ch :: rest => some (readUnit ch rest s)

def rtfToHtml (rtf : Str) : List Piece :=
  if str "\\rtf" <:+: rtf then
    let html := (closePara (Loop.run readNext rtf.length { rest := rtf })).html
    if html = [] then [.openTag .p [],.openTag .br [],.closeTag,.closeTag] else html
  else [.openTag .p []] ++ (if rtf = [] then [] else [.text rtf]) ++ [.closeTag]

end Ownly.Rtf
