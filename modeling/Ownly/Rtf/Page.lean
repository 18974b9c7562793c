import Ownly.Rtf.Reading

-- The reader in the body of a document, whose HTML so far is a list of paragraphs with an open
-- one at the end.
namespace Ownly.Rtf
open JsString Loop
open List

structure OpenPara where
  align : Align
  spans : List (CharState × Str) := []
  last : Option (CharState × Str) := none

structure Out where
  closed : List (Align × List (CharState × Str)) := []
  current : Option OpenPara := none

structure Tables where
  fonts : Int → Option Str
  colors : List Color
  current : Int

def Tables.span (t : Tables) (run : CharState × Str) : Style × Str := (openSpan run.1 t.fonts t.colors,run.2)

def OpenPara.closed (p : OpenPara) : Align × List (CharState × Str) := (p.align,p.spans ++ p.last.toList)

def spansMarkup (t : Tables) (runs : List (CharState × Str)) : List Piece :=
  (runs.map t.span).flatMap (fun run => spanMarkup run.1 run.2)

def OpenPara.html (t : Tables) (p : OpenPara) : List Piece :=
  .openTag .p (paraStyle p.align) :: spansMarkup t p.spans ++ (p.last.map (fun run => [.openTag .span (t.span run).1,.text run.2])).getD []

def markup (t : Tables) (paragraphs : List (Align × List (CharState × Str))) : List Piece :=
  paragraphs.flatMap (fun p => paragraphMarkup (paraStyle p.1) (p.2.map t.span))

def Out.html (t : Tables) (out : Out) : List Piece := markup t out.closed ++ (out.current.map (OpenPara.html t)).getD []

def OpenPara.emit (char : CharState) (text : Str) (p : OpenPara) : OpenPara :=
  match p.last with
  | none => { p with last := some (char,text) }
  | some (key,before) =>
    if char = key then { p with last := some (key,before ++ text) }
    else { p with spans := p.spans ++ [(key,before)], last := some (char,text) }

def Out.emit (align : Align) (char : CharState) (text : Str) (out : Out) : Out :=
  { out with current := some ((out.current.getD { align }).emit char text) }

def Out.close (out : Out) : Out := { closed := out.closed ++ (out.current.map OpenPara.closed).toList }

def Out.par (align : Align) (out : Out) : Out := { out.close with current := some { align } }

def page (t : Tables) (char : CharState) (align : Align) (out : Out) (rest : Str) : Reader :=
  { rest, top := { char, para := align }, below := [{}], fonts := t.fonts, colors := t.colors, html := out.html t
    paraOpen := out.current.isSome, spanOpen := (out.current.bind OpenPara.last).isSome
    currentSpanKey := (out.current.bind OpenPara.last).map Prod.fst, currentFontIndex := t.current }

variable {t : Tables} {char : CharState} {align : Align} {out : Out} {k text : Str} {after : CharState} {word : Word}

theorem writeText_tag (text : Str) (html : List Piece) (tag : Tag) (style : Style) :
    writeText text (html ++ [.openTag tag style]) = html ++ [.openTag tag style,.text text] := by
  simp [writeText]

theorem writeText_text (text before : Str) (html : List Piece) :
    writeText text (html ++ [.text before]) = html ++ [.text (before ++ text)] := by
  simp [writeText]

@[simp] theorem span_text (run : CharState × Str) : (t.span run).2 = run.2 := rfl

theorem close_page : closePara (page t char align out k) = page t char align out.close k := by
  obtain ⟨closed,current⟩ := out
  cases current with
  | none => simp [closePara,closeSpan,page,Out.close,Out.html]
  | some p =>
    obtain ⟨side,spans,last⟩ := p
    cases last with
    | none => simp [closePara,closeSpan,page,Out.close,Out.html,OpenPara.html,OpenPara.closed,markup,paragraphMarkup,spansMarkup]
    | some run =>
      simp [closePara,closeSpan,page,Out.close,Out.html,OpenPara.html,OpenPara.closed,markup,paragraphMarkup,spansMarkup,spanMarkup]

theorem open_page (none_ : out.current = none) :
    ensurePara (page t char align out k) = page t char align { out with current := some { align } } k := by
  simp [ensurePara,page,none_,Out.html,OpenPara.html,spansMarkup]

theorem par_page : ensurePara (closePara (page t char align out k)) = page t char align (out.par align) k := by
  rw [close_page,open_page rfl]
  rfl

theorem html_last (t : Tables) (p : OpenPara) (run : CharState × Str) :
    OpenPara.html t { p with last := some run } =
      OpenPara.html t { p with last := none } ++ [.openTag .span (t.span run).1] ++ [.text run.2] := by
  simp [OpenPara.html]

theorem html_span (t : Tables) (p : OpenPara) (run : CharState × Str) :
    OpenPara.html t { p with spans := p.spans ++ [run], last := none } = OpenPara.html t { p with last := some run } ++ [.closeTag] := by
  simp [OpenPara.html,spansMarkup,spanMarkup]

theorem emit_open {p : OpenPara} (open_ : out.current = some p) (some_ : text ≠ []) :
    emitText text (page t char align out k) = page t char align { out with current := some (p.emit char text) } k := by
  obtain ⟨closed,current⟩ := out
  cases open_
  have emitted : emitText text (page t char align ⟨closed,some p⟩ k) =
      { enterSpan (page t char align ⟨closed,some p⟩ k) with
        html := writeText text (enterSpan (page t char align ⟨closed,some p⟩ k)).html } := by
    simp [emitText,some_,ensurePara,page]
  rw [emitted]
  obtain ⟨side,spans,last⟩ := p
  cases last with
  | none =>
    have html := html_last t ⟨side,spans,none⟩ (char,text)
    have wrote := writeText_tag text (markup t closed ++ OpenPara.html t ⟨side,spans,none⟩) .span (openSpan char t.fonts t.colors)
    simp only [append_assoc] at html wrote
    simpa [enterSpan,closeSpan,page,Out.html,OpenPara.emit,html,Tables.span] using wrote
  | some run =>
    obtain ⟨key,before⟩ := run
    by_cases same : char = key
    · subst same
      have html := fun text => html_last t ⟨side,spans,none⟩ (char,text)
      have wrote := writeText_text text before
        (markup t closed ++ OpenPara.html t ⟨side,spans,none⟩ ++ [.openTag .span (openSpan char t.fonts t.colors)])
      simp only [append_assoc] at html wrote
      simpa [enterSpan,page,Out.html,OpenPara.emit,html,Tables.span] using wrote
    · have html := html_last t ⟨side,spans ++ [(key,before)],none⟩ (char,text)
      have span := html_span t ⟨side,spans,none⟩ (key,before)
      have wrote := writeText_tag text (markup t closed ++ (OpenPara.html t ⟨side,spans,some (key,before)⟩ ++ [.closeTag]))
        .span (openSpan char t.fonts t.colors)
      simp only [span] at html
      simp only [append_assoc] at html wrote
      simpa [enterSpan,closeSpan,page,Out.html,OpenPara.emit,same,html,Tables.span] using wrote

theorem emit_page (some_ : text ≠ []) : emitText text (page t char align out k) = page t char align (out.emit align char text) k := by
  cases open_ : out.current with
  | none =>
    have opened : emitText text (page t char align out k) = emitText text (ensurePara (page t char align out k)) := by
      simp [emitText,some_,ensurePara,page,open_]
    rw [opened,open_page open_,emit_open rfl some_,Out.emit,open_]
    rfl
  | some p =>
    rw [emit_open open_ some_,Out.emit,open_]
    rfl

theorem emit_rest (some_ : text ≠ []) (rest : Str) :
    { emitText text (page t char align out rest) with rest := k } = page t char align (out.emit align char text) k := by
  rw [emit_page some_]
  rfl

theorem fromCharCode_some (code : Int) : fromCharCode code ≠ [] := cons_ne_nil _ _

theorem symbol_words : wordOf [92] = .text "\\" ∧ wordOf [123] = .text "\x7b" ∧ wordOf [125] = .text "\x7d" ∧
    wordOf [126] = .text "\u00a0" := by decide +kernel

theorem read_escape {symbol : Nat} {content : String} {unit : Int} (letter : ¬Letter symbol) (quote : symbol ≠ 39)
    (known : wordOf [symbol] = .text content) (same : str content = fromCharCode unit) :
    Reaches readNext (page t char align out (92 :: symbol :: k)) (page t char align (out.emit align char (fromCharCode unit)) k) := by
  refine .one ((read_symbol letter quote rfl).trans (congrArg some ?_))
  rw [known,← emit_rest (fromCharCode_some unit) (92 :: symbol :: k),← same]
  rfl

theorem read_ascii {unit : Nat} (low : 0x20 ≤ unit) (high : unit ≤ 0x7F) (plain : unit ≠ 92 ∧ unit ≠ 123 ∧ unit ≠ 125) :
    Reaches readNext (page t char align out (unit :: k)) (page t char align (out.emit align char (fromCharCode unit)) k) := by
  have same : fromCharCode unit = [unit] := by simp [fromCharCode]; omega
  have round : readNext (page t char align out (unit :: k)) =
      some { plainUnit unit (page t char align out (unit :: k)) with rest := k } := by
    simp [readNext,readUnit,page,plain]
  have emitted : plainUnit unit (page t char align out (unit :: k)) = emitText [unit] (page t char align out (unit :: k)) := by
    have line : ¬(unit = 13 ∨ unit = 10) := by omega
    simp [plainUnit,page,line]
  rw [same]
  exact .one (round.trans (congrArg some (by rw [emitted]; exact emit_rest (cons_ne_nil _ _) _)))

theorem read_unicode (u code : Int) (same : fromCharCode (if u < 0 then u + 65536 else u) = fromCharCode code) :
    Reaches readNext (page t char align out (spell "u" (some u) ++ 63 :: k)) (page t char align (out.emit align char (fromCharCode code)) k) := by
  have first := read_spell (s := page t char align out (spell "u" (some u) ++ 63 :: k)) (show ("u",Word.u) ∈ writtenWords by decide)
    (some u) ends_question rfl
  have emitted : { control .u (some u) (page t char align out (spell "u" (some u) ++ 63 :: k)) with rest := skipSpace (63 :: k) } =
      { page t char align (out.emit align char (fromCharCode code)) (63 :: k) with pendingUnicodeSkip := 1 } := by
    rw [← emit_rest (fromCharCode_some code) (spell "u" (some u) ++ 63 :: k),← same]
    rfl
  rw [emitted] at first
  exact first.trans (.one rfl)

theorem unicode_text (u : Int) : str "\\u" ++ decimal u ++ str "?" ++ k = spell "u" (some u) ++ 63 :: k := by
  have word : str "\\u" = 92 :: str "u" := rfl
  have last : str "?" = [63] := rfl
  simp [word,last,spell,paramText]

theorem read_codePoint {code : Nat} (low : 0x20 ≤ code) :
    Reaches readNext (page t char align out (escapeCodePoint code ++ k)) (page t char align (out.emit align char (fromCharCode code)) k) := by
  obtain ⟨slash,open_,close,space⟩ := symbol_words
  unfold escapeCodePoint
  split_ifs with c1 c2 c3 c4 c5 c6 c7 c8
  · subst c1
    exact read_escape (by decide) (by decide) slash rfl
  · subst c2
    exact read_escape (by decide) (by decide) open_ rfl
  · subst c3
    exact read_escape (by decide) (by decide) close rfl
  · omega
  · omega
  · subst c6
    exact read_escape (by decide) (by decide) space rfl
  · omega
  · exact read_ascii low c8 ⟨c1,c2,c3⟩
  · rw [unicode_text]
    refine read_unicode _ _ ?_
    simp only [fromCharCode,List.cons.injEq,and_true]
    omega
  · rw [unicode_text]
    refine read_unicode _ _ ?_
    rw [if_neg (by omega)]

theorem OpenPara.emit_emit (p : OpenPara) (char : CharState) (first second : Str) :
    (p.emit char first).emit char second = p.emit char (first ++ second) := by
  obtain ⟨side,spans,last⟩ := p
  cases last with
  | none => simp [OpenPara.emit]
  | some run =>
    by_cases same : char = run.1
    · simp [OpenPara.emit,same]
    · simp [OpenPara.emit,same]

theorem emit_emit (first second : Str) :
    (out.emit align char first).emit align char second = out.emit align char (first ++ second) := by
  simp [Out.emit,OpenPara.emit_emit]

def readBack (text : List Char) : Str := text.flatMap (fun c => fromCharCode c.toNat)

theorem read_text {c : Char} {text : List Char} (plain : ∀ c' ∈ c :: text, 0x20 ≤ c'.toNat) :
    Reaches readNext (page t char align out (rtfEscapeText (ofChars (c :: text)) ++ k))
      (page t char align (out.emit align char (readBack (c :: text))) k) := by
  have cons : ∀ c text, rtfEscapeText (ofChars (c :: text)) = escapeCodePoint c.toNat ++ rtfEscapeText (ofChars text) := by
    simp [rtfEscapeText,codePoints_ofChars]
  induction text generalizing c out with
  | nil =>
    have none_ : rtfEscapeText (ofChars []) = [] := rfl
    have only : readBack [c] = fromCharCode c.toNat := by simp [readBack]
    rw [cons,none_,append_nil,only]
    exact read_codePoint (plain c mem_cons_self)
  | cons next text ih =>
    have back : readBack (c :: next :: text) = fromCharCode c.toNat ++ readBack (next :: text) := by simp [readBack]
    rw [cons,append_assoc,back,← emit_emit]
    exact (read_codePoint (plain c mem_cons_self)).trans (ih (fun c' member => plain c' (mem_cons_of_mem _ member)))

theorem read_char {name : String} (known : (name,word) ∈ writtenWords) (param : Option Int)
    (effect : ∀ rest, control word param (page t char align out rest) = page t after align out rest) (ends : Ends k) :
    Reaches readNext (page t char align out (spell name param ++ k)) (page t after align out (skipSpace k)) := by
  have read := read_spell (s := page t char align out (spell name param ++ k)) known param ends rfl
  rw [effect] at read
  exact read

-- The format in which a run is read; a highlight that it does not have stays.
def runState (f : Nat) (fmt : CharFmt) (cf cb : Nat) (char : CharState) : CharState :=
  { bold := fmt.bold, italic := fmt.italic, underline := fmt.underline, strike := fmt.strike
    superScript := fmt.superScript, subScript := !fmt.superScript && fmt.subScript
    fontIndex := f, fontSizeHalfPoints := fmt.fontSizeHalfPoints, colorIndex := cf
    highlightIndex := if 0 < cb then cb else char.highlightIndex }

theorem prefix_text (f : Nat) (fmt : CharFmt) (cf cb : Nat) : runPrefix f fmt cf cb ++ str " " ++ k =
    spell "f" (some f) ++ (spell "fs" (some fmt.fontSizeHalfPoints) ++
    (spell "b" (if fmt.bold then none else some 0) ++ (spell "i" (if fmt.italic then none else some 0) ++
    (spell (if fmt.underline then "ul" else "ulnone") none ++ (spell "strike" (if fmt.strike then none else some 0) ++
    (spell (if fmt.superScript then "super" else if fmt.subScript then "sub" else "nosupersub") none ++
    (spell "cf" (some cf) ++ ((if 0 < cb then spell "highlight" (some cb) else []) ++ 32 :: k)))))))) := by
  have font : str "\\f" = 92 :: str "f" := rfl
  have size : str "\\fs" = 92 :: str "fs" := rfl
  have bold : (if fmt.bold then str "\\b" else str "\\b0") = spell "b" (if fmt.bold then none else some 0) := by split <;> rfl
  have italic : (if fmt.italic then str "\\i" else str "\\i0") = spell "i" (if fmt.italic then none else some 0) := by split <;> rfl
  have under : (if fmt.underline then str "\\ul" else str "\\ulnone") = spell (if fmt.underline then "ul" else "ulnone") none := by
    split <;> rfl
  have strike : (if fmt.strike then str "\\strike" else str "\\strike0") = spell "strike" (if fmt.strike then none else some 0) := by
    split <;> rfl
  have script : (if fmt.superScript then str "\\super" else if fmt.subScript then str "\\sub" else str "\\nosupersub") =
      spell (if fmt.superScript then "super" else if fmt.subScript then "sub" else "nosupersub") none := by split_ifs <;> rfl
  have color : (if 0 < cf then str "\\cf" ++ digits cf else str "\\cf0") = spell "cf" (some cf) := by
    split
    · rfl
    · next zero => rw [Nat.eq_zero_of_not_pos zero]; rfl
  have light : (if 0 < cb then str "\\highlight" ++ digits cb else []) = if 0 < cb then spell "highlight" (some cb) else [] := by
    split <;> rfl
  have space : str " " = [32] := rfl
  rw [runPrefix,bold,italic,under,strike,script,color,light,space,font,size]
  simp [spell,paramText,decimal]

theorem read_then {name next : String} (known : (name,word) ∈ writtenWords) (param param' : Option Int)
    (effect : ∀ rest, control word param (page t char align out rest) = page t after align out rest) :
    Reaches readNext (page t char align out (spell name param ++ (spell next param' ++ k)))
      (page t after align out (spell next param' ++ k)) :=
  read_char known param effect ends_slash

section
variable (f : Nat) (fmt : CharFmt) (cf cb : Nat) {next : String} {param : Option Int}

theorem read_font : Reaches readNext (page t char align out (spell "f" (some f) ++ (spell next param ++ k)))
    (page t { char with fontIndex := f } align out (spell next param ++ k)) :=
  read_then (show ("f",Word.f) ∈ writtenWords by decide) _ _ (fun _ => rfl)

theorem read_size : Reaches readNext
    (page t char align out (spell "fs" (some fmt.fontSizeHalfPoints) ++ (spell next param ++ k)))
    (page t { char with fontSizeHalfPoints := fmt.fontSizeHalfPoints } align out (spell next param ++ k)) :=
  read_then (show ("fs",Word.fs) ∈ writtenWords by decide) _ _ (fun _ => rfl)

theorem read_bold : Reaches readNext
    (page t char align out (spell "b" (if fmt.bold then none else some 0) ++ (spell next param ++ k)))
    (page t { char with bold := fmt.bold } align out (spell next param ++ k)) :=
  read_then (show ("b",Word.b) ∈ writtenWords by decide) _ _ (fun _ => by cases fmt.bold <;> rfl)

theorem read_italic : Reaches readNext
    (page t char align out (spell "i" (if fmt.italic then none else some 0) ++ (spell next param ++ k)))
    (page t { char with italic := fmt.italic } align out (spell next param ++ k)) :=
  read_then (show ("i",Word.i) ∈ writtenWords by decide) _ _ (fun _ => by cases fmt.italic <;> rfl)

theorem read_underline : Reaches readNext
    (page t char align out (spell (if fmt.underline then "ul" else "ulnone") none ++ (spell next param ++ k)))
    (page t { char with underline := fmt.underline } align out (spell next param ++ k)) := by
  cases fmt.underline
  · exact read_then (show ("ulnone",Word.ulnone) ∈ writtenWords by decide) _ _ (fun _ => rfl)
  · exact read_then (show ("ul",Word.ul) ∈ writtenWords by decide) _ _ (fun _ => rfl)

theorem read_strike : Reaches readNext
    (page t char align out (spell "strike" (if fmt.strike then none else some 0) ++ (spell next param ++ k)))
    (page t { char with strike := fmt.strike } align out (spell next param ++ k)) :=
  read_then (show ("strike",Word.strike) ∈ writtenWords by decide) _ _ (fun _ => by cases fmt.strike <;> rfl)

theorem read_script : Reaches readNext
    (page t char align out
      (spell (if fmt.superScript then "super" else if fmt.subScript then "sub" else "nosupersub") none ++ (spell next param ++ k)))
    (page t { char with superScript := fmt.superScript, subScript := !fmt.superScript && fmt.subScript } align out
      (spell next param ++ k)) := by
  cases fmt.superScript
  · cases fmt.subScript
    · exact read_then (show ("nosupersub",Word.nosupersub) ∈ writtenWords by decide) _ _ (fun _ => rfl)
    · exact read_then (show ("sub",Word.sub) ∈ writtenWords by decide) _ _ (fun _ => rfl)
  · exact read_then (show ("super",Word.super) ∈ writtenWords by decide) _ _ (fun _ => rfl)

theorem read_colors_of : Reaches readNext
    (page t char align out (spell "cf" (some cf) ++ ((if 0 < cb then spell "highlight" (some cb) else []) ++ 32 :: k)))
    (page t { char with colorIndex := cf, highlightIndex := if 0 < cb then cb else char.highlightIndex } align out k) := by
  split
  · have color : Reaches readNext (page t char align out (spell "cf" (some cf) ++ (spell "highlight" (some cb) ++ 32 :: k)))
        (page t { char with colorIndex := cf } align out (spell "highlight" (some cb) ++ 32 :: k)) :=
      read_then (show ("cf",Word.cf) ∈ writtenWords by decide) _ _ (fun _ => rfl)
    exact color.trans (read_char (show ("highlight",Word.highlight) ∈ writtenWords by decide) _ (fun _ => rfl) ends_space)
  · exact read_char (show ("cf",Word.cf) ∈ writtenWords by decide) (some (cf : Int)) (fun _ => rfl) ends_space

theorem read_opening : Reaches readNext (page t char align out (runPrefix f fmt cf cb ++ str " " ++ k))
    (page t (runState f fmt cf cb char) align out k) := by
  rw [prefix_text]
  exact (read_font f).trans ((read_size fmt).trans ((read_bold fmt).trans ((read_italic fmt).trans ((read_underline fmt).trans
    ((read_strike fmt).trans ((read_script fmt).trans (read_colors_of cf cb)))))))

end

structure WrittenRun where
  f : Nat
  fmt : CharFmt
  cf : Nat
  cb : Nat
  text : List Char

structure WrittenParagraph where
  align : Align
  runs : List WrittenRun

def WrittenRun.source (r : WrittenRun) : Str := runPrefix r.f r.fmt r.cf r.cb ++ str " " ++ rtfEscapeText (ofChars r.text)

def WrittenParagraph.source (p : WrittenParagraph) : Str :=
  str "\\pard" ++ alignControl p.align ++ str " " ++ p.runs.flatMap WrittenRun.source ++ str "\\par\n"

def WrittenRun.Fine (r : WrittenRun) : Prop := r.text ≠ [] ∧ ∀ c ∈ r.text, 0x20 ≤ c.toNat

def WrittenRun.state (r : WrittenRun) (char : CharState) : CharState := runState r.f r.fmt r.cf r.cb char

def readRuns (align : Align) : CharState → Out → List WrittenRun → CharState × Out
  | char,out,[] => (char,out)
  | char,out,r :: runs => readRuns align (r.state char) (out.emit align (r.state char) (readBack r.text)) runs

def readParagraphs : CharState → Out → List WrittenParagraph → CharState × Out
  | char,out,[] => (char,out)
  | char,out,p :: rest => readParagraphs (readRuns p.align char out p.runs).1 ((readRuns p.align char out p.runs).2.par p.align) rest

theorem read_runs (char : CharState) (out : Out) (runs : List WrittenRun) (fine : ∀ r ∈ runs, r.Fine) :
    Reaches readNext (page t char align out (runs.flatMap WrittenRun.source ++ k))
      (page t (readRuns align char out runs).1 align (readRuns align char out runs).2 k) := by
  induction runs generalizing char out with
  | nil => exact .refl
  | cons r runs ih =>
    obtain ⟨some_,plain⟩ := fine r mem_cons_self
    obtain ⟨c,text,same⟩ := exists_cons_of_ne_nil some_
    have source : (r :: runs).flatMap WrittenRun.source ++ k =
        runPrefix r.f r.fmt r.cf r.cb ++ str " " ++ (rtfEscapeText (ofChars r.text) ++ (runs.flatMap WrittenRun.source ++ k)) := by
      simp [WrittenRun.source]
    rw [source]
    refine Reaches.trans (read_opening r.f r.fmt r.cf r.cb) ?_
    have emitted : Reaches readNext
        (page t (r.state char) align out (rtfEscapeText (ofChars r.text) ++ (runs.flatMap WrittenRun.source ++ k)))
        (page t (r.state char) align (out.emit align (r.state char) (readBack r.text)) (runs.flatMap WrittenRun.source ++ k)) := by
      rw [same] at plain ⊢
      exact read_text plain
    exact emitted.trans (ih _ _ (fun r member => fine r (mem_cons_of_mem _ member)))

theorem align_text (p : WrittenParagraph) : ∃ name, (name,Word.align p.align) ∈ writtenWords ∧
    p.source ++ k = spell "pard" none ++ (spell name none ++ 32 :: (p.runs.flatMap WrittenRun.source ++ (spell "par" none ++ 10 :: k))) := by
  have pard : str "\\pard" = spell "pard" none := rfl
  have space : str " " = [32] := rfl
  have par : str "\\par\n" = spell "par" none ++ [10] := rfl
  obtain ⟨align,runs⟩ := p
  have named : ∃ name, (name,Word.align align) ∈ writtenWords ∧ alignControl align = spell name none := by
    cases align with
    | left => exact ⟨"ql",by decide,rfl⟩
    | center => exact ⟨"qc",by decide,rfl⟩
    | right => exact ⟨"qr",by decide,rfl⟩
    | justify => exact ⟨"qj",by decide,rfl⟩
  obtain ⟨name,known,same⟩ := named
  refine ⟨name,known,?_⟩
  simp [WrittenParagraph.source,pard,same,space,par]

theorem read_paragraphs (align : Align) (char : CharState) (out : Out) (paragraphs : List WrittenParagraph)
    (fine : ∀ p ∈ paragraphs, ∀ r ∈ p.runs, r.Fine) :
    ∃ last, Reaches readNext (page t char align out (paragraphs.flatMap WrittenParagraph.source ++ k))
      (page t (readParagraphs char out paragraphs).1 last (readParagraphs char out paragraphs).2 k) := by
  induction paragraphs generalizing char out align with
  | nil => exact ⟨align,.refl⟩
  | cons p rest ih =>
    obtain ⟨name,known,same⟩ := align_text (k := rest.flatMap WrittenParagraph.source ++ k) p
    obtain ⟨last,path⟩ := ih p.align (readRuns p.align char out p.runs).1 ((readRuns p.align char out p.runs).2.par p.align)
      (fun p member => fine p (mem_cons_of_mem _ member))
    refine ⟨last,?_⟩
    rw [flatMap_cons,append_assoc,same]
    have pard : ∀ k, Reaches readNext (page t char align out (spell "pard" none ++ (spell name none ++ k)))
        (page t char .left out (spell name none ++ k)) := fun _ =>
      read_spell (show ("pard",Word.pard) ∈ writtenWords by decide) none (spell_ends none) rfl
    have side : ∀ k, Reaches readNext (page t char .left out (spell name none ++ 32 :: k)) (page t char p.align out k) := fun _ =>
      read_spell known none ends_space rfl
    have par : ∀ char out k, Reaches readNext (page t char p.align out (spell "par" none ++ 10 :: k))
        (page t char p.align (out.par p.align) k) := by
      intro char out k
      have read := read_spell (s := page t char p.align out (spell "par" none ++ 10 :: k)) (show ("par",Word.par) ∈ writtenWords by decide)
        none (k := 10 :: k) (ends_cons (by decide) (by decide) (by decide)) rfl
      have effect : { control .par none (page t char p.align out (spell "par" none ++ 10 :: k)) with rest := skipSpace (10 :: k) } =
          page t char p.align (out.par p.align) (10 :: k) := by
        have paged : ensurePara (closePara (page t char p.align out (spell "par" none ++ 10 :: k))) =
            page t char p.align (out.par p.align) (spell "par" none ++ 10 :: k) := par_page
        have named : control .par none (page t char p.align out (spell "par" none ++ 10 :: k)) =
            ensurePara (closePara (page t char p.align out (spell "par" none ++ 10 :: k))) := rfl
        rw [named,paged]
        rfl
      rw [effect] at read
      exact read.trans (.one rfl)
    exact (pard _).trans ((side _).trans ((read_runs char out p.runs (fine p mem_cons_self)).trans ((par _ _ _).trans path)))

def headText : Str := str "\x7b\\rtf1\\ansi\\ansicpg1252\\deff0\x7b\\fonttbl"

theorem read_head : Reaches readNext { rest := headText ++ 123 :: k }
    (fontTable [{},{}] (fun index => if index = 0 then some helvetica else none) 0 [] (123 :: k)) := by
  have text : headText ++ 123 :: k = 123 :: (spell "rtf" (some 1) ++ (spell "ansi" none ++ (spell "ansicpg" (some 1252) ++
      (spell "deff" (some 0) ++ 123 :: (spell "fonttbl" none ++ 123 :: k))))) := rfl
  have ignored : ∀ (name : String) param k, (name,Word.other) ∈ writtenWords → Ends k →
      Reaches readNext { rest := spell name param ++ k, below := [{}] } { rest := skipSpace k, below := [{}] } :=
    fun name param k known ends => read_spell known param ends rfl
  have push : ∀ below k, Reaches readNext { rest := 123 :: k, below } { rest := k, below := {} :: below } := fun _ _ => .one rfl
  have table : Reaches readNext { rest := spell "fonttbl" none ++ 123 :: k, below := [{},{}] }
      (fontTable [{},{}] (fun index => if index = 0 then some helvetica else none) 0 [] (123 :: k)) :=
    read_spell (show ("fonttbl",Word.fonttbl) ∈ writtenWords by decide) none ends_open rfl
  rw [text]
  refine (push [] _).trans ((ignored "rtf" (some 1) _ (by decide) (spell_ends none)).trans ?_)
  refine (ignored "ansi" none _ (by decide) (spell_ends (some 1252))).trans ?_
  refine (ignored "ansicpg" (some 1252) _ (by decide) (spell_ends (some 0))).trans ?_
  exact (ignored "deff" (some 0) _ (by decide) ends_open).trans ((push [{}] _).trans table)

theorem read_middle (fonts : Int → Option Str) (current : Int) :
    Reaches readNext (fontTable [{},{}] fonts current [] (str "\x7d\x7b\\colortbl;" ++ k))
      (colorTable fonts current [⟨0,0,0⟩,⟨0,0,0⟩] {} k) := by
  have text : str "\x7d\x7b\\colortbl;" ++ k = 125 :: 123 :: (spell "colortbl" none ++ 59 :: k) := rfl
  have pop : Reaches readNext (fontTable [{},{}] fonts current [] (125 :: 123 :: (spell "colortbl" none ++ 59 :: k)))
      { rest := 123 :: (spell "colortbl" none ++ 59 :: k), below := [{}], fonts, currentFontIndex := current } := .one rfl
  have push : Reaches readNext
      { rest := 123 :: (spell "colortbl" none ++ 59 :: k), below := [{}], fonts, currentFontIndex := current }
      { rest := spell "colortbl" none ++ 59 :: k, below := [{},{}], fonts, currentFontIndex := current } := .one rfl
  have table : Reaches readNext { rest := spell "colortbl" none ++ 59 :: k, below := [{},{}], fonts, currentFontIndex := current }
      (colorTable fonts current [⟨0,0,0⟩] {} (59 :: k)) :=
    read_spell (show ("colortbl",Word.colortbl) ∈ writtenWords by decide) none ends_semicolon rfl
  have first : Reaches readNext (colorTable fonts current [⟨0,0,0⟩] {} (59 :: k)) (colorTable fonts current [⟨0,0,0⟩,⟨0,0,0⟩] {} k) :=
    .one rfl
  rw [text]
  exact pop.trans (push.trans (table.trans first))

theorem read_body (fonts : Int → Option Str) (current : Int) (colors : List Color) :
    Reaches readNext (colorTable fonts current colors {} (125 :: 10 :: k)) (page ⟨fonts,colors,current⟩ {} .left {} k) :=
  Reaches.trans (.one (t := { rest := 10 :: k, below := [{}], fonts, colors, currentFontIndex := current }) rfl) (.one rfl)

theorem read_end (t : Tables) (char : CharState) (out : Out) (align : Align) : ∃ s, Reaches readNext (page t char align out (str "\n\x7d")) s ∧ s.rest = [] ∧
    (closePara s).html = out.close.html t := by
  have line : Reaches readNext (page t char align out (str "\n\x7d")) (page t char align out [125]) := .one rfl
  have pop : Reaches readNext (page t char align out [125]) { page t char align out [] with top := {}, below := [] } := .one rfl
  refine ⟨_,line.trans pop,rfl,?_⟩
  have same : (closePara { page t char align out [] with top := {}, below := [] }).html = (closePara (page t char align out [])).html := by
    simp only [closePara,closeSpan]
    split_ifs <;> rfl
  rw [same,close_page]
  rfl

end Ownly.Rtf
