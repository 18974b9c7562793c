import Ownly.Rtf.Cycle

-- What becomes of a document's text.
namespace Ownly.Rtf
open JsString
open List Function

variable {φ : Type} {ps : List HtmlParagraph} {written : List WrittenParagraph} {doc : Document Style} {html : List Node}
  {w : Writer} {q : WrittenParagraph} {n : Nat}

def NoText (doc : Document φ) : Prop := ∀ p ∈ doc, ∀ run ∈ p.runs, run.text = []

def Control (c : Char) : Prop := c.toNat < 0x20 ∨ 0x7F ≤ c.toNat ∧ c.toNat < 0xA0

instance (c : Char) : Decidable (Control c) := by unfold Control; infer_instance

def Plain (doc : Document φ) : Prop := ∀ p ∈ doc, ∀ run ∈ p.runs, ∀ c ∈ run.text, ¬Control c

-- No font of a run is named with what RTF reads as more than a name.
def TameFonts (doc : Document Style) : Prop := ∀ p ∈ doc, ∀ run ∈ p.runs, run.text ≠ [] → Tame (mergeFmt {} .span [] run.format).key

theorem doc_nodes (doc : Document Style) : doc.html = (doc.map Paragraph.html).map HtmlParagraph.node := by
  rw [map_map]
  rfl

theorem texts_html (doc : Document Style) : texts doc.html = doc.texts := by
  rw [doc_nodes,texts,shown_nodes]
  simp [Document.texts,Paragraph.html,map_flatMap,flatMap_map,comp_def]

theorem plain_units {doc : Document φ} (plain : Plain doc) {p : Paragraph φ} (member : p ∈ doc) {run : Run φ} (inside : run ∈ p.runs)
    {c : Char} (there : c ∈ run.text) : 0x20 ≤ c.toNat := by
  have ok := plain p member run inside c there
  unfold Control at ok
  omega

def backUnits (p : WrittenParagraph) : Str := p.runs.flatMap (fun r => readBack r.text)

theorem runChars_units (char : CharState) (runs : List WrittenRun) :
    (runChars char runs).map Prod.fst = runs.flatMap (fun r => readBack r.text) := by
  induction runs generalizing char with
  | nil => rfl
  | cons r runs ih => simp [runChars,ih,comp_def]

theorem follow_texts (align : Align) (char : CharState) (rest : List WrittenParagraph) :
    (follow align [] char rest).map (fun p => p.2.map Prod.fst) = rest.map backUnits ++ [[]] := by
  induction rest generalizing align char with
  | nil => rfl
  | cons p rest ih => simp [follow,ih,runChars_units,backUnits]

theorem shifted_empty {α : Type} {ts ds : List (List α)} (kept : List.Forall₂ (fun t d => t = [] → d = []) ts ds)
    (same : ds.tail ++ [[]] = ts) : ∀ t ∈ ts, t = [] := by
  induction kept with
  | nil => exact fun _ member => by cases member
  | @cons t d ts ds _ rest ih =>
    cases rest with
    | nil =>
      cases same
      exact fun _ member => mem_singleton.mp member
    | @cons t' d' ts ds next rest =>
      obtain ⟨rfl,later⟩ := List.cons.inj same
      have empty := ih later
      intro other member
      rcases mem_cons.mp member with rfl | inside
      · exact next (empty t' mem_cons_self)
      · exact empty other inside

theorem wrote_none {p : HtmlParagraph} (wrote : WroteParagraph w p q) (none_ : ∀ run ∈ p.2, run.2 = []) :
    q.runs = [] := by
  have skipped : p.2.filter (fun run => decide (Kept run)) = [] := by
    refine filter_eq_nil_iff.mpr (fun run member kept => of_decide_eq_true kept (.inl ?_))
    rw [none_ run member]
    rfl
  have same := wrote.runs.same
  rw [skipped] at same
  exact map_eq_nil_iff.mp same

-- Paragraphs without text, `n` of them.
def Silent (n : Nat) (html : List Node) : Prop :=
  ∃ ps : List HtmlParagraph, html = ps.map HtmlParagraph.node ∧ ps.length = n ∧ ∀ p ∈ ps, ∀ run ∈ p.2, run.2 = []

theorem silent_texts (silent : Silent n html) : texts html = List.replicate n [] := by
  obtain ⟨ps,rfl,rfl,none_⟩ := silent
  refine eq_replicate_iff.mpr ⟨by simp [texts,shown_nodes],fun text member => ?_⟩
  rw [texts,shown_nodes,map_map] at member
  obtain ⟨p,inside,rfl⟩ := mem_map.mp member
  have empty : p.2.flatMap (fun run => (ofChars run.2).map (fun unit => (unit,mergeFmt p.base .span [] run.1))) = [] := by
    refine flatMap_eq_nil_iff.mpr (fun run there => ?_)
    rw [none_ p inside run there]
    rfl
  simp [empty]

theorem follow_silent (align : Align) (char : CharState) (rest : List WrittenParagraph) (none_ : ∀ p ∈ rest, p.runs = []) :
    (follow align [] char rest).length = rest.length + 1 ∧ ∀ p ∈ follow align [] char rest, p.2 = [] := by
  induction rest generalizing align char with
  | nil => exact ⟨rfl,fun _ member => mem_singleton.mp member ▸ rfl⟩
  | cons p rest ih =>
    obtain ⟨length,empty⟩ := ih p.align (afterRuns char p.runs) (fun p member => none_ p (mem_cons_of_mem _ member))
    rw [follow]
    refine ⟨congrArg Nat.succ length,fun q member => ?_⟩
    rcases mem_cons.mp member with rfl | later
    · rw [none_ p mem_cons_self]
      rfl
    · exact empty q later

theorem wrote_silent (wrote : List.Forall₂ (WroteParagraph w) ps written) (none_ : ∀ p ∈ ps, ∀ run ∈ p.2, run.2 = []) :
    ∀ q ∈ written, q.runs = [] := by
  induction wrote with
  | nil => exact fun _ member => by cases member
  | cons one _ ih =>
    intro q member
    rcases mem_cons.mp member with rfl | later
    · exact wrote_none one (none_ _ mem_cons_self)
    · exact ih (fun p member => none_ p (mem_cons_of_mem _ member)) q later

theorem loaded_silent (some_ : written ≠ []) (none_ : ∀ q ∈ written, q.runs = []) :
    (loaded written).length = written.length ∧ ∀ p ∈ loaded written, p.2 = [] := by
  obtain ⟨q,rest,rfl⟩ := exists_cons_of_ne_nil some_
  rw [loaded,if_pos (none_ q mem_cons_self)]
  exact follow_silent _ _ rest (fun p member => none_ p (mem_cons_of_mem _ member))

theorem silent_saveLoad (silent : Silent n html) (some_ : n ≠ 0) : Silent n (saveLoad html) := by
  obtain ⟨ps,rfl,rfl,none_⟩ := silent
  have ne : ps ≠ [] := fun empty => some_ (length_eq_zero_iff.mpr empty)
  obtain ⟨c⟩ := cycle (fun _ tame => tame) (show Tame helvetica by unfold Tame; decide +kernel) ne
    (fun p member run inside text => absurd (none_ p member run inside) text)
    (fun p member run inside _ there => by rw [none_ p member run inside] at there; cases there)
  have length := c.wrote.length_eq
  have written : c.written ≠ [] := fun empty => some_ (by rw [length,empty]; rfl)
  obtain ⟨many,empty⟩ := loaded_silent written (wrote_silent c.wrote none_)
  have blank : ∀ p ∈ c.closed, ∀ run ∈ p.2, run.2 = [] := by
    intro p member run inside
    have none_ := empty (charsOf p) (c.loaded ▸ mem_map_of_mem member)
    exact map_eq_nil_iff.mp (flatMap_eq_nil_iff.mp none_ run inside)
  refine ⟨c.closed.map (fun p => (paraStyle p.1,p.2.map (fun run => ((c.t.span run).1,[])))),?_,?_,?_⟩
  · rw [c.html,map_map]
    refine map_congr_left (fun p member => ?_)
    have runs : p.2.map c.t.span = p.2.map (fun run => ((c.t.span run).1,ofChars [])) :=
      map_congr_left (fun run inside => Prod.ext rfl (blank p member run inside))
    rw [runs]
    simp [HtmlParagraph.node,comp_def]
  · rw [length_map,← length_map charsOf,c.loaded,many,length]
  · intro p member run inside
    obtain ⟨q,_,rfl⟩ := mem_map.mp member
    obtain ⟨other,_,rfl⟩ := mem_map.mp inside
    rfl

theorem silent_cycles (silent : Silent n html) (some_ : n ≠ 0) (cycles : Nat) :
    Silent n (saveLoad^[cycles] html) := by
  induction cycles with
  | zero => exact silent
  | succ cycles ih =>
    rw [iterate_succ_apply']
    exact silent_saveLoad ih some_

theorem noText_html (none_ : NoText doc) : Silent doc.length doc.html := by
  refine ⟨doc.map Paragraph.html,doc_nodes doc,length_map _,fun p member run inside => ?_⟩
  obtain ⟨q,there,rfl⟩ := mem_map.mp member
  obtain ⟨other,within,rfl⟩ := mem_map.mp inside
  exact none_ q there other within

theorem wrote_texts (wrote : List.Forall₂ (WroteParagraph w) ps written) :
    List.Forall₂ (fun t d => t = [] → d = []) (ps.map (fun p => p.2.flatMap (fun run => ofChars run.2))) (written.map backUnits) := by
  induction wrote with
  | nil => exact .nil
  | @cons p q ps written one _ ih =>
    refine .cons (fun none_ => ?_) ih
    have blank : ∀ run ∈ p.2, run.2 = [] := fun run member => ofChars_nil.mp (flatMap_eq_nil_iff.mp none_ run member)
    rw [backUnits,wrote_none one blank]
    rfl

theorem doc_cycle {good : Str → Prop} (tame : ∀ name, good name → Tame name) (standard : good helvetica)
    (some_ : doc ≠ []) (plain : Plain doc)
    (fine : ∀ p ∈ doc, ∀ run ∈ p.runs, run.text ≠ [] → good (mergeFmt {} .span [] run.format).key) :
    Nonempty (Cycle good (doc.map Paragraph.html)) := by
  refine cycle tame standard (fun none_ => some_ (map_eq_nil_iff.mp none_)) (fun p member run inside text => ?_)
    (fun p member run inside unit there => ?_)
  · obtain ⟨q,listed,rfl⟩ := mem_map.mp member
    obtain ⟨other,within,rfl⟩ := mem_map.mp inside
    rw [(align_html q).2]
    exact fine q listed other within text
  · obtain ⟨q,listed,rfl⟩ := mem_map.mp member
    obtain ⟨other,within,rfl⟩ := mem_map.mp inside
    exact plain_units plain listed within there

theorem loaded_texts (rest : List WrittenParagraph) :
    (loaded (q :: rest)).map (fun p => p.2.map Prod.fst) = (if q.runs = [] then [] else [backUnits q]) ++ (rest.map backUnits ++ [[]]) := by
  rw [loaded,map_append,follow_texts]
  split <;> simp [runChars_units,backUnits]

theorem text_lost (some_ : doc ≠ []) (plain : Plain doc) (tame : TameFonts doc)
    (same : texts (saveLoad doc.html) = doc.texts) : NoText doc := by
  obtain ⟨c⟩ := doc_cycle (fun _ tame => tame) (show Tame helvetica by unfold Tame; decide +kernel) some_ plain tame
  have original : doc.texts = (doc.map Paragraph.html).map (fun p => p.2.flatMap (fun run => ofChars run.2)) := by
    simp [Document.texts,Paragraph.html,flatMap_map,comp_def]
  have back : texts (saveLoad doc.html) = (loaded c.written).map (fun p => p.2.map Prod.fst) := by
    rw [texts,doc_nodes,c.shown]
    simp [comp_def]
  have length := c.wrote.length_eq
  have kept := wrote_texts c.wrote
  rw [← original] at kept
  rw [back] at same
  cases written : c.written with
  | nil =>
    rw [written,length_map] at length
    exact absurd (length_eq_zero_iff.mp length) some_
  | cons q rest =>
    rw [written] at same kept length
    rw [loaded_texts] at same
    by_cases none_ : q.runs = []
    · rw [if_pos none_,nil_append] at same
      intro p member run inside
      have blank := shifted_empty kept same (p.runs.flatMap (fun run => ofChars run.text)) (mem_map_of_mem member)
      exact ofChars_nil.mp (flatMap_eq_nil_iff.mp blank run inside)
    · rw [if_neg none_] at same
      have more := congrArg List.length same
      simp only [Document.texts,length_append,length_map,length_cons,length_nil] at more length
      omega

-- Text survives no save: a load ends in a paragraph more than was there, or begins without the
-- first one. Without text nothing of it is lost, in any number of cycles.
theorem text_kept (doc : Document Style) (some_ : doc ≠ []) (plain : Plain doc) :
    (NoText doc → ∀ cycles, texts (saveLoad^[cycles] doc.html) = doc.texts) ∧
    (TameFonts doc → (texts (saveLoad doc.html) = doc.texts ↔ NoText doc)) := by
  have kept : NoText doc → ∀ cycles, texts (saveLoad^[cycles] doc.html) = doc.texts := by
    intro none_ cycles
    have silent := noText_html none_
    have many : doc.length ≠ 0 := fun zero => some_ (length_eq_zero_iff.mp zero)
    exact (silent_texts (silent_cycles silent many cycles)).trans ((silent_texts silent).symm.trans (texts_html doc))
  exact ⟨kept,fun tame => ⟨text_lost some_ plain tame,fun none_ => kept none_ 1⟩⟩

def letter : Document Style := [⟨.left,[⟨[],['a']⟩]⟩]

theorem text_kept_letter : (NoText letter → ∀ cycles, texts (saveLoad^[cycles] letter.html) = letter.texts) ∧
    (TameFonts letter → (texts (saveLoad letter.html) = letter.texts ↔ NoText letter)) :=
  text_kept letter (cons_ne_nil _ _) (by simp [Plain,letter,Control])

theorem text_changed : letter ≠ [] ∧ Plain letter ∧ texts (saveLoad letter.html) ≠ letter.texts :=
  ⟨cons_ne_nil _ _,by simp [Plain,letter,Control],by decide +kernel⟩

end Ownly.Rtf
