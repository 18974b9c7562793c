import Mathlib.Data.List.Forall2
import Mathlib.Data.List.DropRight
import Mathlib.Data.List.TakeDrop
import Mathlib.Order.Basic

-- The non-empty pieces of a text between separators, and what trimming the text at its
-- ends makes of them, where the separator is one of the characters that are trimmed.
namespace Lines
open List
variable {α : Type*} {sep c : α} {blank : α → Bool} {text line part : List α} {lines parts more : List (List α)}

def trim (blank : α → Bool) (text : List α) : List α := ((text.dropWhile blank).reverse.dropWhile blank).reverse

def Wraps (blank : α → Bool) (line part : List α) : Prop :=
  ∃ front back, (∀ c ∈ front, blank c = true) ∧ (∀ c ∈ back, blank c = true) ∧ line = front ++ part ++ back

def Shrinks (blank : α → Bool) (lines parts : List (List α)) : Prop :=
  parts.length < lines.length ∨ List.Forall₂ (Wraps blank) lines parts

theorem Wraps.refl (blank : α → Bool) (line : List α) : Wraps blank line line :=
  ⟨[],[],by simp,by simp,by simp⟩

theorem Wraps.trans {rest : List α} (first : Wraps blank line part) (second : Wraps blank part rest) : Wraps blank line rest := by
  obtain ⟨front,back,frontBlank,backBlank,rfl⟩ := first
  obtain ⟨front',back',frontBlank',backBlank',rfl⟩ := second
  refine ⟨front ++ front',back' ++ back,?_,?_,by simp⟩
  · simp only [mem_append]
    exact fun c member => member.elim (frontBlank c) (frontBlank' c)
  · simp only [mem_append]
    exact fun c member => member.elim (backBlank' c) (backBlank c)

theorem forall₂_refl (blank : α → Bool) (lines : List (List α)) : List.Forall₂ (Wraps blank) lines lines := by
  induction lines with
  | nil => exact .nil
  | cons line rest ih => exact .cons (.refl blank line) ih

theorem forall₂_trans (first : List.Forall₂ (Wraps blank) lines parts) (second : List.Forall₂ (Wraps blank) parts more) :
    List.Forall₂ (Wraps blank) lines more := by
  induction first generalizing more with
  | nil => exact second
  | cons wraps _ ih =>
    cases second with
    | cons wraps' rest => exact .cons (wraps.trans wraps') (ih rest)

theorem Shrinks.trans (first : Shrinks blank lines parts) (second : Shrinks blank parts more) : Shrinks blank lines more := by
  rcases first with fewer | wraps
  · rcases second with fewer' | wraps'
    · exact .inl (Nat.lt_trans fewer' fewer)
    · exact .inl (wraps'.length_eq ▸ fewer)
  · rcases second with fewer' | wraps'
    · exact .inl (wraps.length_eq ▸ fewer')
    · exact .inr (forall₂_trans wraps wraps')

theorem trim_ends (blank : α → Bool) (text : List α) :
    (∀ c ∈ (trim blank text).head?, blank c = false) ∧ ∀ c ∈ (trim blank text).getLast?, blank c = false := by
  have fresh : ∀ (text : List α), ∀ c ∈ (text.dropWhile blank).head?, blank c = false := by
    intro text c here
    have stops := head?_dropWhile_not blank text
    rw [here] at stops
    simpa using stops
  constructor
  · intro c here
    have lead : trim blank text <+: text.dropWhile blank := rdropWhile_prefix blank (text.dropWhile blank)
    obtain ⟨rest,whole⟩ := lead
    refine fresh text c ?_
    rw [← whole,head?_append,here]
    rfl
  · intro c here
    rw [trim,getLast?_reverse] at here
    exact fresh _ c here

theorem trim_subset (blank : α → Bool) (text : List α) (member : c ∈ trim blank text) : c ∈ text := by
  rw [trim,mem_reverse] at member
  have inner := (dropWhile_suffix blank).subset member
  rw [mem_reverse] at inner
  exact (dropWhile_suffix blank).subset inner

variable [DecidableEq α]

def linesOf (sep : α) (text : List α) : List (List α) := (text.splitOn sep).filter (fun line => decide (line ≠ []))

theorem linesOf_sep (sep : α) (text : List α) : linesOf sep (sep :: text) = linesOf sep text := by
  have pieces : (sep :: text).splitOn sep = [] :: text.splitOn sep := by
    simpa using splitOn_append_cons_self [] text
  rw [linesOf,pieces,filter_cons]
  rfl

theorem linesOf_sep_last (sep : α) (text : List α) : linesOf sep (text ++ [sep]) = linesOf sep text := by
  rw [linesOf,splitOn_append_cons_self,filter_append]
  exact append_nil _

theorem splitOn_cons_other (other : c ≠ sep) (text : List α) :
    ∃ first rest, text.splitOn sep = first :: rest ∧ (c :: text).splitOn sep = (c :: first) :: rest := by
  obtain ⟨first,rest,pieces⟩ := exists_cons_of_ne_nil (splitOn_ne_nil sep text)
  refine ⟨first,rest,pieces,?_⟩
  rw [splitOn_cons_eq_if_modifyHead,if_neg (by simpa using other),pieces]
  rfl

theorem splitOn_snoc_other (other : c ≠ sep) (text : List α) :
    ∃ rest last, text.splitOn sep = rest ++ [last] ∧ (text ++ [c]).splitOn sep = rest ++ [last ++ [c]] := by
  induction text with
  | nil => exact ⟨[],[],rfl,by rw [nil_append,splitOn_eq_singleton (by simpa using other.symm)]; rfl⟩
  | cons d text ih =>
    obtain ⟨rest,last,pieces,pieces'⟩ := ih
    by_cases here : d = sep
    · subst d
      have split : ∀ text : List α, (sep :: text).splitOn sep = [] :: text.splitOn sep := fun text => by
        simpa using splitOn_append_cons_self [] text
      exact ⟨[] :: rest,last,by rw [split,pieces]; rfl,by rw [cons_append,split,pieces']; rfl⟩
    · obtain ⟨first,others,before,after⟩ := splitOn_cons_other here text
      obtain ⟨first',others',before',after'⟩ := splitOn_cons_other here (text ++ [c])
      rw [pieces] at before
      rw [pieces'] at before'
      cases rest with
      | nil =>
        obtain ⟨head,tail⟩ := List.cons.inj before
        obtain ⟨head',tail'⟩ := List.cons.inj before'
        rw [← head,← tail] at after
        rw [← head',← tail'] at after'
        exact ⟨[],d :: last,after,after'⟩
      | cons line more =>
        obtain ⟨head,tail⟩ := List.cons.inj before
        obtain ⟨head',tail'⟩ := List.cons.inj before'
        rw [← head,← tail] at after
        rw [← head',← tail'] at after'
        exact ⟨(d :: line) :: more,last,after,after'⟩

theorem mem_splitOn (member : part ∈ text.splitOn sep) (inside : c ∈ part) : c ∈ text ∧ c ≠ sep := by
  induction text generalizing part with
  | nil =>
    obtain rfl := mem_singleton.mp member
    cases inside
  | cons d text ih =>
    by_cases here : d = sep
    · subst d
      rw [show (sep :: text).splitOn sep = [] :: text.splitOn sep by simpa using splitOn_append_cons_self [] text] at member
      rcases mem_cons.mp member with rfl | later
      · cases inside
      · exact ⟨mem_cons_of_mem _ (ih later inside).1,(ih later inside).2⟩
    · obtain ⟨first,others,before,after⟩ := splitOn_cons_other here text
      rw [after] at member
      rcases mem_cons.mp member with rfl | later
      · rcases mem_cons.mp inside with rfl | within
        · exact ⟨mem_cons_self,here⟩
        · have found := ih (by rw [before]; exact mem_cons_self) within
          exact ⟨mem_cons_of_mem _ found.1,found.2⟩
      · have found := ih (by rw [before]; exact mem_cons_of_mem _ later) inside
        exact ⟨mem_cons_of_mem _ found.1,found.2⟩

theorem linesOf_intercalate (clear : ∀ line ∈ lines, sep ∉ line) :
    linesOf sep ([sep].intercalate lines) = lines.filter (fun line => decide (line ≠ [])) := by
  cases lines with
  | nil => rfl
  | cons line rest => rw [linesOf,splitOn_intercalate sep clear (by simp)]

theorem shrinks_first (space : blank c = true) (text : List α) : Shrinks blank (linesOf sep (c :: text)) (linesOf sep text) := by
  by_cases here : c = sep
  · subst c
    rw [linesOf_sep]
    exact .inr (forall₂_refl blank _)
  · obtain ⟨first,rest,before,after⟩ := splitOn_cons_other here text
    rw [linesOf,linesOf,before,after,filter_cons,filter_cons,if_pos (by simp)]
    split
    · exact .inr (.cons ⟨[c],[],by simpa using space,by simp,by simp⟩ (forall₂_refl blank _))
    · exact .inl (Nat.lt_succ_self _)

theorem shrinks_last (space : blank c = true) (text : List α) : Shrinks blank (linesOf sep (text ++ [c])) (linesOf sep text) := by
  by_cases here : c = sep
  · subst c
    rw [linesOf_sep_last]
    exact .inr (forall₂_refl blank _)
  · obtain ⟨rest,last,before,after⟩ := splitOn_snoc_other here text
    rw [linesOf,linesOf,before,after,filter_append,filter_append]
    have kept : [last ++ [c]].filter (fun line => decide (line ≠ [])) = [last ++ [c]] := by simp
    rw [kept]
    by_cases empty : last = []
    · left
      simp [empty]
    · right
      have still : [last].filter (fun line => decide (line ≠ [])) = [last] := by simp [empty]
      rw [still]
      exact rel_append (forall₂_refl blank _) (.cons ⟨[],[c],by simp,by simpa using space,by simp⟩ .nil)

theorem shrinks_dropWhile (sep : α) (blank : α → Bool) (text : List α) :
    Shrinks blank (linesOf sep text) (linesOf sep (text.dropWhile blank)) := by
  induction text with
  | nil => exact .inr (forall₂_refl blank _)
  | cons c rest ih =>
    rw [dropWhile_cons]
    split
    · rename_i space
      exact (shrinks_first space rest).trans ih
    · exact .inr (forall₂_refl blank _)

theorem shrinks_dropLast (sep : α) (blank : α → Bool) (text : List α) :
    Shrinks blank (linesOf sep text.reverse) (linesOf sep (text.dropWhile blank).reverse) := by
  induction text with
  | nil => exact .inr (forall₂_refl blank _)
  | cons c rest ih =>
    rw [dropWhile_cons]
    split
    · rename_i space
      rw [reverse_cons]
      exact (shrinks_last space rest.reverse).trans ih
    · exact .inr (forall₂_refl blank _)

theorem shrinks_trim (sep : α) (blank : α → Bool) (text : List α) : Shrinks blank (linesOf sep text) (linesOf sep (trim blank text)) := by
  have front := shrinks_dropWhile sep blank text
  have back := shrinks_dropLast sep blank (text.dropWhile blank).reverse
  rw [reverse_reverse] at back
  exact front.trans back

def Clean (blank : α → Bool) (lines : List (List α)) : Prop :=
  (∀ line ∈ lines.head?, ∀ c ∈ line.head?, blank c = false) ∧ ∀ line ∈ lines.getLast?, ∀ c ∈ line.getLast?, blank c = false

theorem dropWhile_clean (clean : ∀ line ∈ (linesOf sep text).head?, ∀ c ∈ line.head?, blank c = false) :
    linesOf sep (text.dropWhile blank) = linesOf sep text := by
  induction text with
  | nil => rfl
  | cons c rest ih =>
    rw [dropWhile_cons]
    split
    · rename_i space
      by_cases here : c = sep
      · subst c
        rw [linesOf_sep] at clean ⊢
        exact ih clean
      · obtain ⟨first,others,_,after⟩ := splitOn_cons_other here rest
        have begins := clean (c :: first) (by rw [linesOf,after,filter_cons,if_pos (by simp)]; rfl) c rfl
        rw [space] at begins
        cases begins
    · rfl

theorem dropLast_clean (clean : ∀ line ∈ (linesOf sep text.reverse).getLast?, ∀ c ∈ line.getLast?, blank c = false) :
    linesOf sep (text.dropWhile blank).reverse = linesOf sep text.reverse := by
  induction text with
  | nil => rfl
  | cons c rest ih =>
    rw [dropWhile_cons]
    split
    · rename_i space
      rw [reverse_cons] at clean ⊢
      by_cases here : c = sep
      · subst c
        rw [linesOf_sep_last] at clean ⊢
        exact ih clean
      · obtain ⟨others,last,_,after⟩ := splitOn_snoc_other here rest.reverse
        have kept : [last ++ [c]].filter (fun line => decide (line ≠ [])) = [last ++ [c]] := by simp
        have ends := clean (last ++ [c]) (by rw [linesOf,after,filter_append,kept]; simp) c (by simp)
        rw [space] at ends
        cases ends
    · rfl

theorem trim_clean (clean : Clean blank (linesOf sep text)) : linesOf sep (trim blank text) = linesOf sep text := by
  have front := dropWhile_clean clean.1
  have back : linesOf sep (trim blank text) = linesOf sep (text.dropWhile blank).reverse.reverse :=
    dropLast_clean (by rw [reverse_reverse,front]; exact clean.2)
  rw [reverse_reverse] at back
  exact back.trans front

theorem clean_first (space : blank sep = true) (begins : ∀ c ∈ text.head?, blank c = false) :
    ∀ line ∈ (linesOf sep text).head?, ∀ c ∈ line.head?, blank c = false := by
  cases text with
  | nil => simp [linesOf]
  | cons c rest =>
    have solid := begins c rfl
    have other : c ≠ sep := by
      rintro rfl
      rw [space] at solid
      cases solid
    obtain ⟨first,others,_,after⟩ := splitOn_cons_other other rest
    rw [linesOf,after,filter_cons,if_pos (by simp)]
    intro line here d there
    cases here
    cases there
    exact solid

theorem clean_last (space : blank sep = true) (ends : ∀ c ∈ text.getLast?, blank c = false) :
    ∀ line ∈ (linesOf sep text).getLast?, ∀ c ∈ line.getLast?, blank c = false := by
  rcases eq_nil_or_concat text with rfl | ⟨rest,c,rfl⟩
  · simp [linesOf]
  · rw [concat_eq_append] at ends ⊢
    have solid := ends c (by simp)
    have other : c ≠ sep := by
      rintro rfl
      rw [space] at solid
      cases solid
    obtain ⟨others,last,_,after⟩ := splitOn_snoc_other other rest
    have kept : [last ++ [c]].filter (fun line => decide (line ≠ [])) = [last ++ [c]] := by simp
    rw [linesOf,after,filter_append,kept,getLast?_concat]
    intro line here d there
    cases here
    rw [getLast?_concat] at there
    cases there
    exact solid

theorem trimmed_clean (space : blank sep = true) (text : List α) : Clean blank (linesOf sep (trim blank text)) :=
  ⟨clean_first space (trim_ends blank text).1,clean_last space (trim_ends blank text).2⟩

end Lines
