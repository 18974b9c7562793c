import Ownly.Rtf.Written

-- Saving a document and loading it again: the paragraphs that come back.
namespace Ownly.Rtf
open JsString Loop
open List

variable {w : Writer} {k : Str}

theorem read_document (paragraphs : List WrittenParagraph) (body : w.body = paragraphs.flatMap WrittenParagraph.source)
    (fonts : w.fonts ≠ []) (colors : w.colors.head? = some black) (tame : ∀ name ∈ w.fonts, Tame name)
    (fine : ∀ p ∈ paragraphs, ∀ r ∈ p.runs, r.Fine) (ne : (readParagraphs {} {} paragraphs).2.close.closed ≠ []) :
    ∃ t : Tables, t.colors = ⟨0,0,0⟩ :: w.colors.map Rgb.toColor ∧
      (∀ (i : Nat) name, w.fonts[i]? = some name → FontName name → t.fonts i = some name) ∧
      rtfToHtml (assemble w) = markup t (readParagraphs {} {} paragraphs).2.close.closed := by
  obtain ⟨first,names,same⟩ := exists_cons_of_ne_nil fonts
  obtain ⟨rest,listed⟩ : ∃ rest, w.colors = black :: rest := by
    cases listed : w.colors with
    | nil => rw [listed] at colors; cases colors
    | cons c rest => rw [listed] at colors; cases colors; exact ⟨rest,rfl⟩
  have text : assemble w = headText ++ ((w.fonts.zipIdx.flatMap (fun entry => fontEntry entry.2 entry.1)) ++
      (str "\x7d\x7b\\colortbl;" ++ (rest.flatMap colorEntry ++ 125 :: 10 :: (paragraphs.flatMap WrittenParagraph.source ++ str "\n\x7d")))) := by
    have entries : fonttbl w.fonts = w.fonts.zipIdx.flatMap (fun entry => fontEntry entry.2 entry.1) := rfl
    have table : colortbl w.colors = str ";" ++ rest.flatMap colorEntry := by rw [listed]; rfl
    have open_ : str "\x7d\x7b\\colortbl;" = str "\x7d\x7b\\colortbl" ++ str ";" := rfl
    have close : str "\x7d\n" = [125,10] := rfl
    rw [assemble,entries,table,body,open_,close]
    simp [headText]
  obtain ⟨fonts',current,read,_,kept⟩ := read_fonts (k := str "\x7d\x7b\\colortbl;" ++
    (rest.flatMap colorEntry ++ 125 :: 10 :: (paragraphs.flatMap WrittenParagraph.source ++ str "\n\x7d")))
    w.fonts 0 (fun index => if index = 0 then some helvetica else none) 0 tame
  have head : w.fonts.zipIdx.flatMap (fun entry => fontEntry entry.2 entry.1) = 123 :: (w.fonts.zipIdx.flatMap (fun entry => fontEntry entry.2 entry.1)).tail := by
    rw [same]
    rfl
  let t : Tables := ⟨fonts',⟨0,0,0⟩ :: w.colors.map Rgb.toColor,current⟩
  obtain ⟨last,path⟩ := read_paragraphs (t := t) (k := str "\n\x7d") .left {} {} paragraphs fine
  obtain ⟨s,ended,rest_,html⟩ := read_end t (readParagraphs {} {} paragraphs).1 (readParagraphs {} {} paragraphs).2 last
  refine ⟨t,rfl,fun i name present font => ?_,?_⟩
  · have at_ := kept i name present font
    rwa [Nat.zero_add] at at_
  · have whole : Reaches readNext { rest := assemble w } s := by
      rw [text]
      rw [head] at read ⊢
      have colors := read_colors (k := 125 :: 10 :: (paragraphs.flatMap WrittenParagraph.source ++ str "\n\x7d")) fonts' current rest [⟨0,0,0⟩,⟨0,0,0⟩]
      have moved : [⟨0,0,0⟩,⟨0,0,0⟩] ++ rest.map Rgb.toColor = t.colors := by simp [t,listed,black,Rgb.toColor]
      rw [moved] at colors
      exact read_head.trans (read.trans ((read_middle fonts' current).trans (colors.trans ((read_body fonts' current _).trans (path.trans ended)))))
    have inside : str "\\rtf" <:+: assemble w := by
      rw [text]
      exact ⟨[123],_,rfl⟩
    have markup_ : (readParagraphs {} {} paragraphs).2.close.html t = markup t (readParagraphs {} {} paragraphs).2.close.closed :=
      append_nil _
    have some_ : markup t (readParagraphs {} {} paragraphs).2.close.closed ≠ [] := by
      obtain ⟨p,closed,same⟩ := exists_cons_of_ne_nil ne
      rw [same]
      exact cons_ne_nil _ _
    have read := run_read whole rest_
    dsimp only at read
    rw [rtfToHtml,if_pos inside,read,html,markup_]
    exact if_neg some_

def spanChars (runs : List (CharState × Str)) : List (Nat × CharState) := runs.flatMap (fun run => run.2.map (fun unit => (unit,run.1)))

def OpenPara.chars (p : OpenPara) : List (Nat × CharState) := spanChars p.closed.2

def runChars : CharState → List WrittenRun → List (Nat × CharState)
  | _,[] => []
  | char,r :: runs => (readBack r.text).map (fun unit => (unit,r.state char)) ++ runChars (r.state char) runs

def afterRuns (char : CharState) (runs : List WrittenRun) : CharState := runs.foldl (fun char r => r.state char) char

theorem emit_chars (p : OpenPara) (char : CharState) (text : Str) :
    (p.emit char text).chars = p.chars ++ text.map (fun unit => (unit,char)) ∧ (p.emit char text).align = p.align := by
  obtain ⟨side,spans,last⟩ := p
  cases last with
  | none => simp [OpenPara.emit,OpenPara.chars,OpenPara.closed,spanChars]
  | some run =>
    by_cases same : char = run.1 <;> simp [OpenPara.emit,OpenPara.chars,OpenPara.closed,spanChars,same]

variable {align : Align} {char : CharState} {out : Out} {ps : List HtmlParagraph} {p : OpenPara} {good : Str → Prop}

theorem readRuns_state (runs : List WrittenRun) : (readRuns align char out runs).1 = afterRuns char runs := by
  induction runs generalizing char out with
  | nil => rfl
  | cons r runs ih => exact ih

theorem readRuns_open (runs : List WrittenRun) (open_ : out.current = some p) :
    ∃ p', (readRuns align char out runs).2 = { out with current := some p' } ∧ p'.align = p.align ∧ p'.chars = p.chars ++ runChars char runs := by
  induction runs generalizing char out p with
  | nil => exact ⟨p,by rw [← open_]; rfl,rfl,(append_nil _).symm⟩
  | cons r runs ih =>
    obtain ⟨chars,side⟩ := emit_chars p (r.state char) (readBack r.text)
    have emitted : (out.emit align (r.state char) (readBack r.text)).current = some (p.emit (r.state char) (readBack r.text)) := by
      rw [Out.emit,open_]
      rfl
    obtain ⟨p',same,kept,all⟩ := ih emitted
    exact ⟨p',same,kept.trans side,by rw [all,chars,runChars,append_assoc]⟩

theorem readRuns_fresh (runs : List WrittenRun) (none_ : out.current = none) (some_ : runs ≠ []) :
    ∃ p', (readRuns align char out runs).2 = { out with current := some p' } ∧ p'.align = align ∧ p'.chars = runChars char runs := by
  obtain ⟨r,rest,rfl⟩ := exists_cons_of_ne_nil some_
  obtain ⟨chars,side⟩ := emit_chars { align } (r.state char) (readBack r.text)
  have emitted : (out.emit align (r.state char) (readBack r.text)).current = some (OpenPara.emit (r.state char) (readBack r.text) { align }) := by
    rw [Out.emit,none_]
    rfl
  obtain ⟨p',same,kept,all⟩ := readRuns_open rest emitted
  exact ⟨p',same,kept.trans side,all.trans (by rw [chars]; rfl)⟩

-- The paragraphs that are closed from here on, when one is open with some units already: every
-- \par closes one and opens the next before that one's alignment is read.
def follow : Align → List (Nat × CharState) → CharState → List WrittenParagraph → List (Align × List (Nat × CharState))
  | align,before,_,[] => [(align,before)]
  | align,before,char,p :: rest => (align,before ++ runChars char p.runs) :: follow p.align [] (afterRuns char p.runs) rest

def charsOf (p : Align × List (CharState × Str)) : Align × List (Nat × CharState) := (p.1,spanChars p.2)

theorem par_chars (open_ : out.current = some p) :
    (out.par align).closed.map charsOf = out.closed.map charsOf ++ [(p.align,p.chars)] := by
  simp [Out.par,Out.close,open_,charsOf,OpenPara.chars,OpenPara.closed]

theorem readParagraphs_open (paragraphs : List WrittenParagraph) (open_ : out.current = some p) :
    (readParagraphs char out paragraphs).2.close.closed.map charsOf = out.closed.map charsOf ++ follow p.align p.chars char paragraphs := by
  induction paragraphs generalizing char out p with
  | nil => simp [readParagraphs,Out.close,open_,charsOf,follow,OpenPara.chars,OpenPara.closed]
  | cons q rest ih =>
    obtain ⟨p',same,kept,all⟩ := readRuns_open q.runs open_
    rw [readParagraphs,same,readRuns_state]
    refine (ih (p := { align := q.align }) rfl).trans ?_
    rw [par_chars rfl,kept,all]
    exact append_assoc _ _ _

def loaded : List WrittenParagraph → List (Align × List (Nat × CharState))
  | [] => []
  | p :: rest => (if p.runs = [] then [] else [(p.align,runChars {} p.runs)]) ++ follow p.align [] (afterRuns {} p.runs) rest

theorem readParagraphs_loaded (paragraphs : List WrittenParagraph) :
    (readParagraphs {} {} paragraphs).2.close.closed.map charsOf = loaded paragraphs := by
  cases paragraphs with
  | nil => rfl
  | cons p rest =>
    rw [readParagraphs,readRuns_state]
    by_cases none_ : p.runs = []
    · rw [loaded,if_pos none_,none_]
      exact readParagraphs_open (p := { align := p.align }) rest rfl
    · obtain ⟨p',same,kept,all⟩ : ∃ p', (readRuns p.align {} {} p.runs).2 = { current := some p' } ∧ p'.align = p.align ∧
          p'.chars = runChars {} p.runs := readRuns_fresh p.runs rfl none_
      rw [loaded,if_neg none_,same]
      refine (readParagraphs_open (p := { align := p.align }) rest rfl).trans ?_
      rw [par_chars rfl,kept,all]
      rfl

theorem follow_some (align : Align) (before : List (Nat × CharState)) (char : CharState) (rest : List WrittenParagraph) :
    follow align before char rest ≠ [] := by
  cases rest <;> exact cons_ne_nil _ _

-- The format that HTML shows for a state of the reader.
def Tables.fmt (t : Tables) (char : CharState) : CharFmt := mergeFmt {} .span [] (openSpan char t.fonts t.colors)

structure Cycle (good : Str → Prop) (ps : List HtmlParagraph) where
  w : Writer
  written : List WrittenParagraph
  t : Tables
  closed : List (Align × List (CharState × Str))
  wrote : List.Forall₂ (WroteParagraph w) ps written
  sound : Sound good w
  colors : t.colors = ⟨0,0,0⟩ :: w.colors.map Rgb.toColor
  fonts : ∀ (i : Nat) name, w.fonts[i]? = some name → FontName name → t.fonts i = some name
  html : saveLoad (ps.map HtmlParagraph.node) = closed.map (fun p => paragraph (paraStyle p.1) (p.2.map t.span))
  loaded : closed.map charsOf = loaded written

theorem wrote_fine {written : List WrittenParagraph} (wrote : List.Forall₂ (WroteParagraph w) ps written)
    (plain : ∀ p ∈ ps, ∀ run ∈ p.2, ∀ c ∈ run.2, 0x20 ≤ c.toNat) : ∀ p ∈ written, ∀ r ∈ p.runs, r.Fine := by
  induction wrote with
  | nil => exact fun _ member => by cases member
  | @cons p q ps written one _ ih =>
    intro other member r inside
    rcases mem_cons.mp member with rfl | later
    · have listed : (r.fmt,r.text) ∈ other.runs.map (fun r => (r.fmt,r.text)) := mem_map_of_mem inside
      rw [one.runs.same] at listed
      obtain ⟨run,there,same⟩ := mem_map.mp listed
      obtain ⟨there,kept⟩ := mem_filter.mp there
      have text : run.2 = r.text := congrArg Prod.snd same
      have some_ := of_decide_eq_true kept
      exact ⟨fun none_ => some_ (.inl (ofChars_nil.mpr (text.trans none_))),text ▸ plain p mem_cons_self run there⟩
    · exact ih (fun p member => plain p (mem_cons_of_mem _ member)) other later r inside

theorem cycle (tame : ∀ name, good name → Tame name) (standard : good helvetica)
    (some_ : ps ≠ []) (fine : ∀ p ∈ ps, ∀ run ∈ p.2, run.2 ≠ [] → good (mergeFmt p.base .span [] run.1).key)
    (plain : ∀ p ∈ ps, ∀ run ∈ p.2, ∀ c ∈ run.2, 0x20 ≤ c.toNat) : Nonempty (Cycle good ps) := by
  have start : Sound good {} := ⟨fun name member => mem_singleton.mp member ▸ standard,cons_ne_nil _ _,by simp,rfl⟩
  obtain ⟨written,w,walked,body,_,sound,wrote⟩ := walk_paragraphs start ps fine
  obtain ⟨p,rest,same⟩ : ∃ p rest, written = p :: rest := by
    cases wrote with
    | nil => exact absurd rfl some_
    | cons _ _ => exact ⟨_,_,rfl⟩
  have whole : w.body = written.flatMap WrittenParagraph.source := body.trans (nil_append _)
  have shows : trim w.body ≠ [] := by
    intro none_
    refine absurd (trim_nil none_ 92 ?_) (by decide)
    rw [whole,same]
    exact mem_append_left _ mem_cons_self
  have ne : (readParagraphs {} {} written).2.close.closed ≠ [] := by
    intro none_
    have loaded_ := readParagraphs_loaded written
    rw [none_,same,loaded] at loaded_
    exact follow_some _ _ _ _ (append_eq_nil_iff.mp loaded_.symm).2
  obtain ⟨t,colors,fonts,read⟩ := read_document written whole sound.listed sound.first (fun name member => tame name (sound.fonts name member))
    (wrote_fine wrote plain) ne
  refine ⟨⟨w,written,t,_,wrote,sound,colors,fonts,?_,readParagraphs_loaded written⟩⟩
  have nodes : ps.map HtmlParagraph.node ≠ [] := fun none_ => some_ (map_eq_nil_iff.mp none_)
  have rtf : htmlToRtf (ps.map HtmlParagraph.node) = assemble w := by
    rw [htmlToRtf,if_neg nodes,walked,if_neg shows]
  have pieces : markup t (readParagraphs {} {} written).2.close.closed =
      ((readParagraphs {} {} written).2.close.closed.map (fun p => (paraStyle p.1,p.2.map t.span))).flatMap
        (fun p => paragraphMarkup p.1 p.2) := by simp [markup,flatMap_map]
  rw [saveLoad,rtf,read,pieces,parse_paragraphs,map_map]
  rfl

theorem Cycle.shown (c : Cycle good ps) : shown (saveLoad (ps.map HtmlParagraph.node)) =
    (Rtf.loaded c.written).map (fun p => (p.1,p.2.map (fun unit => (unit.1,c.t.fmt unit.2)))) := by
  have one : ∀ p : Align × List (CharState × Str), shownParagraph (paragraph (paraStyle p.1) (p.2.map c.t.span)) =
      some (p.1,(spanChars p.2).map (fun unit => (unit.1,c.t.fmt unit.2))) := by
    intro p
    rw [shown_paragraph,(align_para p.1).1,(align_para p.1).2]
    simp [spanChars,flatMap_map,map_flatMap,Tables.fmt,Tables.span]
    rfl
  rw [c.html,← c.loaded,Rtf.shown,filterMap_map]
  simp [Function.comp_def,one,charsOf]

end Ownly.Rtf
