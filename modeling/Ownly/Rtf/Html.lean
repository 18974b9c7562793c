import Ownly.Lib.JsString

-- The HTML of the rich-text editor: the tree of elements that it shows, and the markup that
-- a program writes for it, tag by tag.
namespace Ownly.Rtf
open JsString
open List

inductive Tag where
  | p | div | h1 | h2 | h3 | h4 | li | br | ul | ol
  | span | font | strong | b | em | i | u | s | strike | del | sup | sub | a
  | other
deriving DecidableEq, Repr

inductive Property where
  | textAlign
  | margin
  | fontFamily
  | fontSize
  | fontWeight
  | fontStyle
  | textDecoration
  | verticalAlign
  | color
  | backgroundColor
deriving DecidableEq, Repr

inductive Attribute where
  | align
  | face
  | size
  | color
deriving DecidableEq, Repr

abbrev Style := List (Property × Str)

-- The last declaration of a property counts; "" is no declaration.
def Style.value (style : Style) (property : Property) : Str :=
  ((style.reverse.find? (fun declared => declared.1 = property)).map Prod.snd).getD []

inductive Node where
  | text (content : Str)
  | element (tag : Tag) (attributes : List (Attribute × Str)) (style : Style) (children : List Node)

def getAttribute (attributes : List (Attribute × Str)) (name : Attribute) : Str :=
  ((attributes.find? (fun set => set.1 = name)).map Prod.snd).getD []

-- A string of HTML, read as its tags and the text between them.
inductive Piece where
  | openTag (tag : Tag) (style : Style)
  | text (content : Str)
  | closeTag
deriving DecidableEq, Repr

-- Text that is written behind text is one with it.
def writeText (content : Str) (html : List Piece) : List Piece :=
  match html.getLast? with
  | some (.text before) => html.dropLast ++ [.text (before ++ content)]
  | _ => html ++ [.text content]

structure OpenElement where
  tag : Tag
  style : Style
  children : List Node

structure Parser where
  elements : List OpenElement := []
  roots : List Node := []

def Parser.append (node : Node) (parser : Parser) : Parser :=
  match parser.elements with
  | [] => { parser with roots := parser.roots ++ [node] }
  | top :: below => { parser with elements := { top with children := top.children ++ [node] } :: below }

def Parser.close (parser : Parser) : Parser :=
  match parser.elements with
  | [] => parser
  | top :: below => Parser.append (.element top.tag [] top.style top.children) { parser with elements := below }

def Parser.take (parser : Parser) : Piece → Parser
  | .openTag tag style => { parser with elements := ⟨tag,style,[]⟩ :: parser.elements }
  | .text content => parser.append (.text content)
  | .closeTag => parser.close

-- The tree that markup with a closing tag for every opening one denotes.
def parseHtml (html : List Piece) : List Node := (html.foldl Parser.take {}).roots

def span (style : Style) (content : Str) : Node := .element .span [] style [.text content]

def spanMarkup (style : Style) (content : Str) : List Piece := [.openTag .span style,.text content,.closeTag]

def paragraph (style : Style) (runs : List (Style × Str)) : Node :=
  .element .p [] style (runs.map (fun run => span run.1 run.2))

def paragraphMarkup (style : Style) (runs : List (Style × Str)) : List Piece :=
  .openTag .p style :: runs.flatMap (fun run => spanMarkup run.1 run.2) ++ [.closeTag]

section lemmas
variable {style : Style} {runs : List (Style × Str)}

theorem take_spans (top : OpenElement) (below : List OpenElement) (roots : List Node) (runs : List (Style × Str)) :
    (runs.flatMap (fun run => spanMarkup run.1 run.2)).foldl Parser.take ⟨top :: below,roots⟩ =
      ⟨{ top with children := top.children ++ runs.map (fun run => span run.1 run.2) } :: below,roots⟩ := by
  induction runs generalizing top with
  | nil => simp
  | cons run runs ih =>
    rw [flatMap_cons,foldl_append]
    refine (ih { top with children := top.children ++ [span run.1 run.2] }).trans ?_
    simp

theorem take_paragraph (roots : List Node) :
    (paragraphMarkup style runs).foldl Parser.take ⟨[],roots⟩ = ⟨[],roots ++ [paragraph style runs]⟩ := by
  rw [paragraphMarkup,cons_append,foldl_cons,foldl_append]
  refine (congrArg (fun parser => List.foldl Parser.take parser [Piece.closeTag]) (take_spans _ _ _ runs)).trans ?_
  rw [nil_append]
  rfl

theorem parse_paragraphs (paragraphs : List (Style × List (Style × Str))) :
    parseHtml (paragraphs.flatMap (fun p => paragraphMarkup p.1 p.2)) = paragraphs.map (fun p => paragraph p.1 p.2) := by
  have taken : ∀ roots, (paragraphs.flatMap (fun p => paragraphMarkup p.1 p.2)).foldl Parser.take ⟨[],roots⟩ =
      ⟨[],roots ++ paragraphs.map (fun p => paragraph p.1 p.2)⟩ := by
    induction paragraphs with
    | nil => simp
    | cons p rest ih =>
      intro roots
      rw [flatMap_cons,foldl_append,take_paragraph,ih]
      simp
  have from_ := taken []
  rw [parseHtml]
  exact (congrArg Parser.roots from_).trans (nil_append _)

end lemmas

end Ownly.Rtf
