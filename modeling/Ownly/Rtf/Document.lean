import Ownly.Rtf.Reader

-- Documents of formatted runs, the HTML of the editor for them, and what text and format HTML
-- shows.
namespace Ownly.Rtf
open JsString
open List

structure Run (φ : Type) where
  format : φ
  text : List Char

structure Paragraph (φ : Type) where
  align : Align
  runs : List (Run φ)

abbrev Document (φ : Type) := List (Paragraph φ)

-- A paragraph of the editor's HTML, with its runs in spans.
abbrev HtmlParagraph := Style × List (Style × List Char)

def HtmlParagraph.node (p : HtmlParagraph) : Node := paragraph p.1 (p.2.map (fun run => (run.1,ofChars run.2)))

def Paragraph.html (p : Paragraph Style) : HtmlParagraph :=
  ([(.textAlign,p.align.css)],p.runs.map (fun run => (run.format,run.text)))

def Document.html (doc : Document Style) : List Node := doc.map (fun p => p.html.node)

def Document.texts {φ : Type} (doc : Document φ) : List Str := doc.map (fun p => p.runs.flatMap (fun run => ofChars run.text))

mutual
def chars (fmt : CharFmt) : Node → List (Nat × CharFmt)
  | .text content => content.map (fun unit => (unit,fmt))
  | .element tag attributes style children => charsAll (mergeFmt fmt tag attributes style) children

def charsAll (fmt : CharFmt) : List Node → List (Nat × CharFmt)
  | [] => []
  | node :: rest => chars fmt node ++ charsAll fmt rest
end

def shownParagraph : Node → Option (Align × List (Nat × CharFmt))
  | .element .p attributes style children => some (alignOf attributes style,charsAll (mergeFmt {} .p attributes style) children)
  | _ => none

def shown (html : List Node) : List (Align × List (Nat × CharFmt)) := html.filterMap shownParagraph

def texts (html : List Node) : List Str := (shown html).map (fun p => p.2.map Prod.fst)

def saveLoad (html : List Node) : List Node := parseHtml (rtfToHtml (htmlToRtf html))

def HtmlParagraph.base (p : HtmlParagraph) : CharFmt := mergeFmt {} .p [] p.1

theorem shown_paragraph (style : Style) (runs : List (Style × Str)) : shownParagraph (paragraph style runs) =
    some (alignOf [] style,runs.flatMap (fun run => run.2.map (fun unit => (unit,mergeFmt (mergeFmt {} .p [] style) .span [] run.1)))) := by
  have all : ∀ fmt, charsAll fmt (runs.map (fun run => span run.1 run.2)) =
      runs.flatMap (fun run => run.2.map (fun unit => (unit,mergeFmt fmt .span [] run.1))) := by
    intro fmt
    induction runs with
    | nil => rfl
    | cons run runs ih =>
      rw [map_cons,charsAll,ih]
      simp [charsAll,chars,span]
  rw [paragraph,shownParagraph,all]

theorem shown_nodes (ps : List HtmlParagraph) : shown (ps.map HtmlParagraph.node) = ps.map (fun p =>
    (alignOf [] p.1,p.2.flatMap (fun run => (ofChars run.2).map (fun unit => (unit,mergeFmt p.base .span [] run.1))))) := by
  induction ps with
  | nil => rfl
  | cons p ps ih =>
    have rest : (ps.map HtmlParagraph.node).filterMap shownParagraph = shown (ps.map HtmlParagraph.node) := rfl
    rw [map_cons,shown,filterMap_cons,HtmlParagraph.node,shown_paragraph]
    dsimp only
    rw [rest,ih]
    simp [flatMap_map,HtmlParagraph.base]

theorem align_para (align : Align) : alignOf [] (paraStyle align) = align ∧ mergeFmt {} .p [] (paraStyle align) = {} := by
  cases align <;> decide +kernel

theorem align_html (p : Paragraph Style) : alignOf [] p.html.1 = p.align ∧ p.html.base = {} := by
  have plain : ∀ align : Align, alignOf [] [(.textAlign,align.css)] = align ∧ mergeFmt {} .p [] [(.textAlign,align.css)] = {} := by
    intro align
    cases align <;> decide +kernel
  exact plain p.align

end Ownly.Rtf
