import Ownly.Rtf.Html

-- frontend/src/lib/rtf/html-to-rtf.ts: RTF for the tree that the editor shows.
namespace Ownly.Rtf
open JsString

structure Rgb where
  r : Nat
  g : Nat
  b : Nat
deriving DecidableEq, Repr

def black : Rgb := ⟨0,0,0⟩

def hexDigit (unit : Nat) : Option Nat :=
  if Digit unit then some (unit - 48) else if 97 ≤ unit ∧ unit ≤ 102 then some (unit - 87) else none

def hexColor (v : Str) : Option Rgb := do
  match ← (← v.dropPrefix? (str "#")).mapM hexDigit with
  | [r,g,b] => some ⟨16 * r + r,16 * g + g,16 * b + b⟩
  | [r,r',g,g',b,b'] => some ⟨16 * r + r',16 * g + g',16 * b + b'⟩
  | _ => none

-- (\d+) and what follows
def number (text : Str) : Option (Nat × Str) :=
  if takeDigits text = [] then none else some (ofDigits (takeDigits text),dropDigits text)

def rgbColor (v : Str) : Option Rgb := do
  let rest ← v.dropPrefix? (str "rgb")
  let rest ← ((rest.dropPrefix? (str "a")).getD rest).dropPrefix? (str "(")
  let (r,rest) ← number (trimStart rest)
  let rest ← (trimStart rest).dropPrefix? (str ",")
  let (g,rest) ← number (trimStart rest)
  let rest ← (trimStart rest).dropPrefix? (str ",")
  let (b,_) ← number (trimStart rest)
  return ⟨r,g,b⟩

def parseCssColor (value : Str) : Option Rgb :=
  let v := (trim value).map lower
  if v = [] ∨ v = str "inherit" ∨ v = str "transparent" ∨ v = str "initial" then none
  else (hexColor v).or (rgbColor v)

-- Decimals are pairs of digits and of how many of them stand behind the point.
def parseNumber (text : Str) : Option (Nat × Nat) :=
  match (dropDigits text).dropPrefix? (str ".") with
  | some rest =>
    if takeDigits rest = rest ∧ (takeDigits text ≠ [] ∨ rest ≠ []) then some (ofDigits (takeDigits text ++ rest),rest.length)
    else none
  | none => if text ≠ [] ∧ takeDigits text = text then some (ofDigits text,0) else none

-- The number that a text starts with; a sign before it is a plus, as a caller wants none below
-- zero, and there is no exponent in what a style serializes to.
def parseFloat (text : Str) : Option (Nat × Nat) :=
  let text := (text.dropPrefix? (str "+")).getD text
  let fraction := (((dropDigits text).dropPrefix? (str ".")).map takeDigits).getD []
  if takeDigits text = [] ∧ fraction = [] then none else some (ofDigits (takeDigits text ++ fraction),fraction.length)

-- `Math.round(n * up / down)`
def roundScaled (up down : Nat) (n : Nat × Nat) : Nat := (2 * (n.1 * up) + 10 ^ n.2 * down) / (2 * (10 ^ n.2 * down))

-- /^([\d.]+)\s*unit$/
def measured (unit v : Str) : Option Str :=
  let n := v.takeWhile (fun c => decide (Digit c ∨ c = 46))
  if n ≠ [] ∧ trimStart (v.dropWhile (fun c => decide (Digit c ∨ c = 46))) = unit then some n else none

-- A NaN counts as null with its caller.
def parseFontSizeToHalfPoints (value : Str) : Option Nat :=
  let v := (trim value).map lower
  match measured (str "pt") v with
  | some n => (parseNumber n).map (roundScaled 2 1)
  | none => match measured (str "px") v with
    | some n => (parseNumber n).map (roundScaled (72 * 2) 96)
    | none => match measured (str "em") v with
      | some n => (parseNumber n).map (roundScaled 24 1)
      | none => ((parseFloat v).filter (fun n => 0 < n.1)).map (roundScaled 2 1)

def escapeCodePoint (code : Nat) : Str :=
  if code = 92 then str "\\\\"
  else if code = 123 then str "\\\x7b"
  else if code = 125 then str "\\\x7d"
  else if code = 10 then str "\\par\n"
  else if code = 9 then str "\\tab "
  else if code = 0xA0 then str "\\~"
  else if code < 0x20 then []
  else if code ≤ 0x7F then [code]
  else str "\\u" ++ decimal (if 32767 < code then (code : Int) - 65536 else code) ++ str "?"

def rtfEscapeText (text : Str) : Str := (codePoints text).flatMap escapeCodePoint

def helvetica : Str := str "Helvetica"

def Quote (unit : Nat) : Prop := unit = 34 ∨ unit = 39

instance (unit : Nat) : Decidable (Quote unit) := by unfold Quote; infer_instance

-- replace(/^["']|["']$/g, "")
def stripQuotes (text : Str) : Str :=
  let rest := if ∀ unit ∈ text.head?, ¬Quote unit then text else text.tail
  if ∀ unit ∈ rest.getLast?, ¬Quote unit then rest else rest.dropLast

def normalizeFontFamily (family : Str) : Str :=
  let first := stripQuotes (trim (family.takeWhile (fun unit => decide (unit ≠ 44))))
  if first = [] then helvetica else first

structure CharFmt where
  bold : Bool := false
  italic : Bool := false
  underline : Bool := false
  strike : Bool := false
  superScript : Bool := false
  subScript : Bool := false
  font : Str := helvetica
  fontSizeHalfPoints : Nat := 24
  color : Option Rgb := none
  highlight : Option Rgb := none
deriving DecidableEq, Repr

def mergeTag (tag : Tag) (base : CharFmt) : CharFmt :=
  { base with
    bold := base.bold || tag ∈ [.strong,.b]
    italic := base.italic || tag ∈ [.em,.i]
    underline := base.underline || tag = .u
    strike := base.strike || tag ∈ [.s,.strike,.del]
    superScript := base.superScript || tag = .sup
    subScript := base.subScript || tag = .sub }

def heavy (weight : Str) : Bool := weight = str "bold" || ((parseNumber weight).map (fun n => decide (600 * 10 ^ n.2 ≤ n.1))).getD false

def mergeStyle (style : Style) (base : CharFmt) : CharFmt :=
  { bold := base.bold || heavy (style.value .fontWeight)
    italic := base.italic || style.value .fontStyle ∈ [str "italic",str "oblique"]
    underline := base.underline || str "underline" <:+: style.value .textDecoration
    strike := base.strike || str "line-through" <:+: style.value .textDecoration
    superScript := base.superScript || style.value .verticalAlign = str "super"
    subScript := base.subScript || style.value .verticalAlign = str "sub"
    font := if style.value .fontFamily = [] then base.font else normalizeFontFamily (style.value .fontFamily)
    fontSizeHalfPoints := ((parseFontSizeToHalfPoints (style.value .fontSize)).filter (fun size => size ≠ 0)).getD base.fontSizeHalfPoints
    color := (parseCssColor (style.value .color)).or base.color
    highlight := (parseCssColor (style.value .backgroundColor)).or base.highlight }

def fontSizes : List (Str × Nat) :=
  [(str "1",16),(str "2",20),(str "3",24),(str "4",28),(str "5",36),(str "6",48),(str "7",72)]

def mergeFontTag (attributes : List (Attribute × Str)) (base : CharFmt) : CharFmt :=
  { base with
    font := if getAttribute attributes .face = [] then base.font else normalizeFontFamily (getAttribute attributes .face)
    fontSizeHalfPoints := (fontSizes.lookup (getAttribute attributes .size)).getD base.fontSizeHalfPoints
    color := (parseCssColor (getAttribute attributes .color)).or base.color }

def mergeFmt (base : CharFmt) (tag : Tag) (attributes : List (Attribute × Str)) (style : Style) : CharFmt :=
  let next := mergeStyle style (mergeTag tag base)
  if tag = .font then mergeFontTag attributes next else next

inductive Align where
  | left
  | center
  | right
  | justify
deriving DecidableEq, Repr

-- What the alignment of an element is taken for.
def alignOf (attributes : List (Attribute × Str)) (style : Style) : Align :=
  let align := if style.value .textAlign = [] then getAttribute attributes .align else style.value .textAlign
  if align = str "center" then .center
  else if align = str "right" then .right
  else if align = str "justify" then .justify
  else .left

def alignControl : Align → Str
  | .left => str "\\ql"
  | .center => str "\\qc"
  | .right => str "\\qr"
  | .justify => str "\\qj"

-- `fontIndex` and `colorIndex` map a name and a colour to where they stand in the list.
structure Writer where
  fonts : List Str := [helvetica]
  colors : List Rgb := [black]
  body : Str := []
deriving DecidableEq, Repr

def ensureFont (name : Str) (w : Writer) : Nat × Writer :=
  let key := if name = [] then helvetica else name
  match w.fonts.idxOf? key with
  | some existing => (existing,w)
  | none => (w.fonts.length,{ w with fonts := w.fonts ++ [key] })

def ensureColor (color : Option Rgb) (w : Writer) : Nat × Writer :=
  match color with
  | none => (0,w)
  | some color => match w.colors.idxOf? color with
    | some existing => (existing,w)
    | none => (w.colors.length,{ w with colors := w.colors ++ [color] })

def runPrefix (f : Nat) (fmt : CharFmt) (cf cb : Nat) : Str :=
  str "\\f" ++ digits f ++ str "\\fs" ++ digits fmt.fontSizeHalfPoints ++
  (if fmt.bold then str "\\b" else str "\\b0") ++
  (if fmt.italic then str "\\i" else str "\\i0") ++
  (if fmt.underline then str "\\ul" else str "\\ulnone") ++
  (if fmt.strike then str "\\strike" else str "\\strike0") ++
  (if fmt.superScript then str "\\super" else if fmt.subScript then str "\\sub" else str "\\nosupersub") ++
  (if 0 < cf then str "\\cf" ++ digits cf else str "\\cf0") ++
  (if 0 < cb then str "\\highlight" ++ digits cb else [])

-- White space only, but neither a space, a tab nor a no-break space
def Noise (text : Str) : Prop :=
  trim (text.map (fun unit => if unit = 0xA0 then 0x20 else unit)) = [] ∧ 0x20 ∉ text ∧ 0x9 ∉ text ∧ 0xA0 ∉ text

instance (text : Str) : Decidable (Noise text) := by unfold Noise; infer_instance

def emitRun (text : Str) (fmt : CharFmt) (w : Writer) : Writer :=
  if text = [] ∨ Noise text then w
  else
    let (f,w) := ensureFont fmt.font w
    let (cf,w) := ensureColor fmt.color w
    let (cb,w) := ensureColor fmt.highlight w
    { w with body := w.body ++ (runPrefix f fmt cf cb ++ str " " ++ rtfEscapeText text) }

def heading (tag : Tag) (fmt : CharFmt) : CharFmt :=
  match tag with
  | .h1 => { fmt with bold := true, fontSizeHalfPoints := 36 }
  | .h2 => { fmt with bold := true, fontSizeHalfPoints := 32 }
  | .h3 => { fmt with bold := true, fontSizeHalfPoints := 28 }
  | .h4 => { fmt with bold := true }
  | _ => fmt

def Writer.put (text : Str) (w : Writer) : Writer := { w with body := w.body ++ text }

mutual
def walk (fmt : CharFmt) : Node → Writer → Writer
  | .text content,w => emitRun content fmt w
  | .element tag attributes style children,w =>
    if tag = .br then w.put (str "\\line\n")
    else if tag ∈ [.p,.div,.h1,.h2,.h3,.h4,.li] then
      (walkAll (heading tag (mergeFmt fmt tag attributes style)) children
        (w.put (str "\\pard" ++ alignControl (alignOf attributes style) ++ str " "))).put (str "\\par\n")
    else if tag ∈ [.ul,.ol] then walkAll fmt children w
    else walkAll (mergeFmt fmt tag attributes style) children w

def walkAll (fmt : CharFmt) : List Node → Writer → Writer
  | [],w => w
  | node :: rest,w => walkAll fmt rest (walk fmt node w)
end

def fonttbl (fonts : List Str) : Str :=
  fonts.zipIdx.flatMap (fun entry => str "\x7b\\f" ++ digits entry.2 ++ str "\\fswiss\\fcharset0 " ++ entry.1 ++ str ";\x7d")

def colortbl (colors : List Rgb) : Str :=
  str ";" ++ colors.tail.flatMap (fun c => str "\\red" ++ digits c.r ++ str "\\green" ++ digits c.g ++ str "\\blue" ++ digits c.b ++ str ";")

def assemble (w : Writer) : Str :=
  str "\x7b\\rtf1\\ansi\\ansicpg1252\\deff0\x7b\\fonttbl" ++ fonttbl w.fonts ++ str "\x7d\x7b\\colortbl" ++ colortbl w.colors ++ str "\x7d\n" ++
    w.body ++ str "\n\x7d"

-- The children of the root that the editor's HTML is parsed under.
def htmlToRtf (html : List Node) : Str :=
  let w := walkAll {} (if html = [] then [.element .p [] [] [.element .br [] [] []]] else html) {}
  assemble (if trim w.body = [] then { w with body := str "\\pard\\ql \\par\n" } else w)

end Ownly.Rtf
