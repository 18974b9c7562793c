import Ownly.Rtf.Document
import Ownly.Rtf.Page

-- What the writer writes for the paragraphs of the editor: their runs, but for those without
-- text to show, and tables in which every run finds its font and its colours.
namespace Ownly.Rtf
open JsString
open List

variable {w after : Writer} {good : Str → Prop} {fmt : CharFmt} {index : Nat} {α : Type} {i : Nat} {a : α}

structure Grown (w after : Writer) : Prop where
  fonts : w.fonts <+: after.fonts
  colors : w.colors <+: after.colors

theorem Grown.refl : Grown w w := ⟨prefix_rfl,prefix_rfl⟩

theorem Grown.trans {last : Writer} (first : Grown w after) (second : Grown after last) : Grown w last :=
  ⟨first.fonts.trans second.fonts,first.colors.trans second.colors⟩

-- The tables: a colour is listed once, black first, and `good` is what every font's name is.
structure Sound (good : Str → Prop) (w : Writer) : Prop where
  fonts : ∀ name ∈ w.fonts, good name
  listed : w.fonts ≠ []
  once : w.colors.Nodup
  first : w.colors.head? = some black

def Colored (w : Writer) (color : Option Rgb) (index : Nat) : Prop :=
  (color = none → index = 0) ∧ ∀ c, color = some c → w.colors[index]? = some c

structure Placed (w : Writer) (r : WrittenRun) : Prop where
  font : w.fonts[r.f]? = some (if r.fmt.font = [] then helvetica else r.fmt.font)
  color : Colored w r.fmt.color r.cf
  highlight : Colored w r.fmt.highlight r.cb

theorem prefix_get {l m : List α} (grown : l <+: m) (present : l[i]? = some a) : m[i]? = some a := by
  obtain ⟨more,rfl⟩ := grown
  exact getElem?_append_left (List.getElem?_eq_some_iff.mp present).1 ▸ present

theorem Colored.grown {color : Option Rgb} (colored : Colored w color index) (grown : Grown w after) : Colored after color index :=
  ⟨colored.1,fun c same => prefix_get grown.colors (colored.2 c same)⟩

theorem Placed.grown {r : WrittenRun} (placed : Placed w r) (grown : Grown w after) : Placed after r :=
  ⟨prefix_get grown.fonts placed.font,placed.color.grown grown,placed.highlight.grown grown⟩

theorem colored_some {c : Rgb} (present : w.colors[index]? = some c) : Colored w (some c) index :=
  ⟨(nomatch ·),fun _ same => Option.some.inj same ▸ present⟩

theorem idxOf?_get [BEq α] [LawfulBEq α] {l : List α} (found : l.idxOf? a = some i) : l[i]? = some a := by
  obtain ⟨less,same,_⟩ := idxOf?_eq_some_iff.mp found
  rw [getElem?_eq_getElem less,same]

theorem ensureFont_spec (sound : Sound good w) (name : Str) (fine : good (if name = [] then helvetica else name)) :
    ∃ f after, ensureFont name w = (f,after) ∧ after.body = w.body ∧ Grown w after ∧ Sound good after ∧
      after.fonts[f]? = some (if name = [] then helvetica else name) := by
  unfold ensureFont
  dsimp only
  split
  · next existing found => exact ⟨existing,w,rfl,rfl,.refl,sound,idxOf?_get found⟩
  · refine ⟨_,_,rfl,rfl,⟨prefix_append _ _,prefix_rfl⟩,⟨?_,by simp,sound.once,sound.first⟩,by simp⟩
    intro other member
    rcases mem_append.mp member with old | new
    · exact sound.fonts other old
    · rw [mem_singleton.mp new]
      exact fine

theorem ensureColor_spec (sound : Sound good w) (color : Option Rgb) :
    ∃ c after, ensureColor color w = (c,after) ∧ after.body = w.body ∧ Grown w after ∧ Sound good after ∧ Colored after color c := by
  cases color with
  | none => exact ⟨0,w,rfl,rfl,.refl,sound,fun _ => rfl,fun _ same => by cases same⟩
  | some color =>
    unfold ensureColor
    dsimp only
    split
    · next existing found => exact ⟨existing,w,rfl,rfl,.refl,sound,colored_some (idxOf?_get found)⟩
    · next missing =>
      have fresh : color ∉ w.colors := fun member => by simp [member] at missing
      refine ⟨_,_,rfl,rfl,⟨prefix_rfl,prefix_append _ _⟩,⟨sound.fonts,sound.listed,?_,?_⟩,colored_some (by simp)⟩
      · simpa using sound.once.concat fresh
      · cases same : w.colors with
        | nil => exact absurd sound.first (by simp [same])
        | cons c rest => simpa [same] using sound.first

def CharFmt.key (fmt : CharFmt) : Str := if fmt.font = [] then helvetica else fmt.font

theorem emitRun_spec (sound : Sound good w) {text : List Char} (kept : ¬(ofChars text = [] ∨ Noise (ofChars text)))
    (fine : good fmt.key) : ∃ r : WrittenRun, ∃ after, emitRun (ofChars text) fmt w = after ∧ after.body = w.body ++ r.source ∧ Grown w after ∧
      Sound good after ∧ Placed after r ∧ r.fmt = fmt ∧ r.text = text := by
  obtain ⟨f,w₁,font,body₁,grown₁,sound₁,present⟩ := ensureFont_spec sound fmt.font fine
  obtain ⟨cf,w₂,color,body₂,grown₂,sound₂,colored⟩ := ensureColor_spec sound₁ fmt.color
  obtain ⟨cb,w₃,light,body₃,grown₃,sound₃,highlit⟩ := ensureColor_spec sound₂ fmt.highlight
  refine ⟨⟨f,fmt,cf,cb,text⟩,{ w₃ with body := w₃.body ++ (runPrefix f fmt cf cb ++ str " " ++ rtfEscapeText (ofChars text)) },?_,?_,?_,?_,?_,rfl,rfl⟩
  · simp [emitRun,kept,font,color,light]
  · rw [body₃,body₂,body₁]
    rfl
  · exact (grown₁.trans grown₂).trans ⟨grown₃.fonts,grown₃.colors⟩
  · exact ⟨sound₃.fonts,sound₃.listed,sound₃.once,sound₃.first⟩
  · exact ⟨prefix_get (grown₂.trans grown₃).fonts present,colored.grown ⟨grown₃.fonts,grown₃.colors⟩,highlit⟩

theorem walk_span (fmt : CharFmt) (style : Style) (content : Str) : walk fmt (span style content) w = emitRun content (mergeFmt fmt .span [] style) w := by
  simp [span,walk,walkAll]

def Kept (run : Style × List Char) : Prop := ¬(ofChars run.2 = [] ∨ Noise (ofChars run.2))

instance (run : Style × List Char) : Decidable (Kept run) := by unfold Kept; infer_instance

structure Wrote (fmt : CharFmt) (runs : List (Style × List Char)) (w : Writer) (written : List WrittenRun) : Prop where
  same : written.map (fun r => (r.fmt,r.text)) = (runs.filter (fun run => decide (Kept run))).map (fun run => (mergeFmt fmt .span [] run.1,run.2))
  placed : ∀ r ∈ written, Placed w r

theorem Wrote.grown {runs : List (Style × List Char)} {written : List WrittenRun} (wrote : Wrote fmt runs w written)
    (grown : Grown w after) : Wrote fmt runs after written :=
  ⟨wrote.same,fun r member => (wrote.placed r member).grown grown⟩

theorem walk_runs (sound : Sound good w) (fmt : CharFmt) (runs : List (Style × List Char))
    (fine : ∀ run ∈ runs, run.2 ≠ [] → good (mergeFmt fmt .span [] run.1).key) :
    ∃ written after, walkAll fmt (runs.map (fun run => span run.1 (ofChars run.2))) w = after ∧
      after.body = w.body ++ written.flatMap WrittenRun.source ∧ Grown w after ∧ Sound good after ∧ Wrote fmt runs after written := by
  induction runs generalizing w with
  | nil => exact ⟨[],w,rfl,(append_nil _).symm,.refl,sound,rfl,fun _ member => by cases member⟩
  | cons run runs ih =>
    have others := fun run member => fine run (mem_cons_of_mem _ member)
    rw [map_cons,walkAll,walk_span]
    by_cases kept : Kept run
    · have some_ : run.2 ≠ [] := fun none_ => kept (.inl (ofChars_nil.mpr none_))
      obtain ⟨r,w₁,emitted,body₁,grown₁,sound₁,placed,format,text⟩ := emitRun_spec sound kept (fine run mem_cons_self some_)
      obtain ⟨written,w₂,walked,body₂,grown₂,sound₂,wrote⟩ := ih sound₁ others
      refine ⟨r :: written,w₂,by rw [emitted,walked],?_,grown₁.trans grown₂,sound₂,?_,fun other member => ?_⟩
      · rw [body₂,body₁,flatMap_cons,append_assoc]
      · simp [kept,format,text,wrote.same]
      · rcases mem_cons.mp member with rfl | later
        · exact placed.grown grown₂
        · exact wrote.placed other later
    · have skipped : emitRun (ofChars run.2) (mergeFmt fmt .span [] run.1) w = w := if_pos (not_not.mp kept)
      obtain ⟨written,w₂,walked,body₂,grown₂,sound₂,wrote⟩ := ih sound others
      refine ⟨written,w₂,by rw [skipped,walked],body₂,grown₂,sound₂,?_,wrote.placed⟩
      simp [kept,wrote.same]

structure WroteParagraph (w : Writer) (p : HtmlParagraph) (written : WrittenParagraph) : Prop where
  align : written.align = alignOf [] p.1
  runs : Wrote p.base p.2 w written.runs

theorem walk_paragraph (fmt : CharFmt) (p : HtmlParagraph) : walk fmt p.node w =
    (walkAll (mergeFmt fmt .p [] p.1) (p.2.map (fun run => span run.1 (ofChars run.2)))
      (w.put (str "\\pard" ++ alignControl (alignOf [] p.1) ++ str " "))).put (str "\\par\n") := by
  simp [HtmlParagraph.node,paragraph,walk,heading,Function.comp_def]

theorem walk_paragraphs (sound : Sound good w) (paragraphs : List HtmlParagraph)
    (fine : ∀ p ∈ paragraphs, ∀ run ∈ p.2, run.2 ≠ [] → good (mergeFmt p.base .span [] run.1).key) :
    ∃ written after, walkAll {} (paragraphs.map HtmlParagraph.node) w = after ∧
      after.body = w.body ++ written.flatMap WrittenParagraph.source ∧ Grown w after ∧ Sound good after ∧
      List.Forall₂ (WroteParagraph after) paragraphs written := by
  induction paragraphs generalizing w with
  | nil => exact ⟨[],w,rfl,(append_nil _).symm,.refl,sound,.nil⟩
  | cons p rest ih =>
    have started : Sound good (w.put (str "\\pard" ++ alignControl (alignOf [] p.1) ++ str " ")) := ⟨sound.fonts,sound.listed,sound.once,sound.first⟩
    obtain ⟨runs,w₁,walked₁,body₁,grown₁,sound₁,wrote₁⟩ := walk_runs started p.base p.2 (fine p mem_cons_self)
    have ended : Sound good (w₁.put (str "\\par\n")) := ⟨sound₁.fonts,sound₁.listed,sound₁.once,sound₁.first⟩
    obtain ⟨written,w₂,walked₂,body₂,grown₂,sound₂,wrote₂⟩ := ih ended (fun p member => fine p (mem_cons_of_mem _ member))
    have closed : Grown w₁ w₂ := ⟨grown₂.fonts,grown₂.colors⟩
    refine ⟨⟨alignOf [] p.1,runs⟩ :: written,w₂,?_,?_,⟨grown₁.fonts.trans closed.fonts,grown₁.colors.trans closed.colors⟩,sound₂,
      .cons ⟨rfl,wrote₁.grown closed⟩ wrote₂⟩
    · rw [map_cons,walkAll,walk_paragraph]
      exact (congrArg (fun w => walkAll {} _ (Writer.put _ w)) walked₁).trans walked₂
    · rw [body₂,Writer.put,body₁,Writer.put]
      simp [WrittenParagraph.source]

end Ownly.Rtf
