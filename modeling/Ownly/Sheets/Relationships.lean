import Ownly.Sheets.Packages

-- The relationships of the source with those of the new sheets put in.
namespace Ownly.Sheets.Xlsx
open Text (Line)
open Markup
open List

variable {styles : Styles} {source generated merged result : Entries} {sheets : List Tab} {data : Nat → Line} {sheet : Tab}
  {tab other : Tab × Nat} {entry entry' : CatalogEntry} {catalog : List CatalogEntry} {path text shell block attrs : Line} {k j : Nat}

theorem idAttribute_clear {sign : Char} (small : sign.isDigit = false) (clear : sign ∉ "Id=\"rId".toList) : sign ∉ idAttribute (rId k) := by
  intro member
  rw [idAttribute,rId,← append_assoc] at member
  rcases mem_append.mp member with inside | inside
  · rcases mem_append.mp inside with inside | inside
    · exact clear inside
    · rw [decimal_digits _ inside] at small
      cases small
  · obtain rfl := mem_singleton.mp inside
    exact clear (by simp)

section links
variable {more : List (Nat × Line)} {before after : Line} {map : KeyMap Line Line}

theorem related_linked (linked : Linked k attrs) : related map attrs = map.set (rId k) (sheetPathOf k) := by
  obtain ⟨target,found,filled,path⟩ := linked.target
  have named : rId k ≠ [] := by simp [rId]
  rw [related,linked.id,found]
  exact (if_pos ⟨named,filled⟩).trans (congrArg _ path)

theorem related_links (map : KeyMap Line Line) (linked : ∀ link ∈ more,Linked link.1 link.2) :
    (∀ link ∈ more,((more.map Prod.snd).foldl related map).get (rId link.1) = some (sheetPathOf link.1)) ∧
      ∀ relId,(∀ link ∈ more,relId ≠ rId link.1) → ((more.map Prod.snd).foldl related map).get relId = map.get relId := by
  induction more using List.reverseRecOn with
  | nil => exact ⟨fun _ member => absurd member not_mem_nil,fun _ _ => rfl⟩
  | append_singleton more last ih =>
    obtain ⟨own,others⟩ := ih (fun link member => linked link (mem_append_left _ member))
    have step : ((more ++ [last]).map Prod.snd).foldl related map =
        ((more.map Prod.snd).foldl related map).set (rId last.1) (sheetPathOf last.1) := by
      rw [map_append,foldl_append]
      exact related_linked (linked last (by simp))
    rw [step]
    constructor
    · intro link member
      rw [KeyMap.get_set]
      split
      · rename_i same
        rw [rId_injective same]
      · rename_i ne
        rcases mem_append.mp member with inside | inside
        · exact own link inside
        · cases mem_singleton.mp inside
          exact absurd rfl ne
    · intro relId apart
      rw [KeyMap.get_set_ne (apart last (by simp))]
      exact others relId (fun link member => apart link (mem_append_left _ member))

theorem mergeRelationship_links {generatedRelsXml : Line} (found : cut id closing (before ++ (closing ++ after)) = some (before,after))
    (linked : ∀ link ∈ more,Linked link.1 link.2) (own : Linked k attrs) (fresh : ∀ link ∈ more,k ≠ link.1) (same : entry.relId = rId k)
    (lookup : findTag relationship (contains Char.toLower (idAttribute (rId k))) generatedRelsXml = some (tagText relationship attrs)) :
    idAttribute (rId k) <:+: before ++ (closing ++ after) ∧
        mergeRelationship generatedRelsXml (before ++ (tagTexts relationship (more.map Prod.snd) ++ (closing ++ after))) entry =
          before ++ (tagTexts relationship (more.map Prod.snd) ++ (closing ++ after)) ∨
      mergeRelationship generatedRelsXml (before ++ (tagTexts relationship (more.map Prod.snd) ++ (closing ++ after))) entry =
        before ++ (tagTexts relationship ((more ++ [(k,attrs)]).map Prod.snd) ++ (closing ++ after)) := by
  have groups : ∀ group ∈ more.map Prod.snd,'<' ∉ group := by
    intro group member
    obtain ⟨link,inside,rfl⟩ := mem_map.mp member
    exact (linked link inside).clear.1
  have filled : idAttribute (rId k) ≠ [] := by simp [idAttribute]
  by_cases known : contains id (idAttribute (rId k)) (before ++ (tagTexts relationship (more.map Prod.snd) ++ (closing ++ after))) = true
  · refine .inl ⟨?_,?_⟩
    · have inside := (contains_iff filled).mp known
      rcases infix_tagTexts (idAttribute_clear (by decide) (by simp)) (idAttribute_clear (by decide) (by simp)) inside with ⟨group,member,within⟩ | base
      · obtain ⟨link,there,rfl⟩ := mem_map.mp member
        exact absurd within ((linked link there).only k (fresh link there))
      · exact base
    · rw [mergeRelationship,same,if_pos known]
  · refine .inr ?_
    have place : cut id closing (before ++ (tagTexts relationship (more.map Prod.snd) ++ (closing ++ after))) =
        some (before ++ tagTexts relationship (more.map Prod.snd),after) := by
      obtain ⟨tail,starts⟩ : ∃ tail,tagTexts relationship (more.map Prod.snd) ++ (closing ++ after) = '<' :: tail := by
        cases more with
        | nil => exact ⟨_,congrArg (· ++ after) closing_eq⟩
        | cons link more => exact ⟨_,rfl⟩
      have there : cut id closing (tagTexts relationship (more.map Prod.snd) ++ (closing ++ after)) = some (tagTexts relationship (more.map Prod.snd),after) := by
        have here : cut id closing (closing ++ after) = some ([],after) := cut_here (closing_eq ▸ cons_ne_nil _ _)
        rw [closing_eq] at here ⊢
        rw [cut_tagTexts relationship_clear.1 relationship_clear.2.1 relationship_clear.2.2 groups,here]
        simp
      rw [starts] at there ⊢
      rw [closing_eq] at found there ⊢
      rw [cut_insert (by simp) found,there]
      rfl
    have plain : verbatim (tagText relationship attrs ++ closing) = true := by
      exact verbatim_clear (by simp [tagText,relationship_signs,own.clear.2.2])
    have lookup_ : findTag "Relationship".toList (contains Char.toLower (idAttribute (rId k))) generatedRelsXml =
        some (tagText relationship attrs) := lookup
    have there : contains id "</Relationships>".toList (before ++ (tagTexts relationship (more.map Prod.snd) ++ (closing ++ after))) = true :=
      congrArg Option.isSome place
    rw [mergeRelationship,same,if_neg known,lookup_]
    simp only [there,if_true]
    refine (replaceFirst_cut place plain).trans ?_
    rw [map_append,map_singleton,tagTexts_concat]
    simp

theorem merged_links {relsXml generatedRelsXml : Line} {tabs : List (Tab × Nat)} (found : cut id closing relsXml = some (before,after))
    (links : ∀ tab ∈ tabs,∃ attrs,Linked tab.2 attrs ∧
      findTag relationship (contains Char.toLower (idAttribute (rId tab.2))) generatedRelsXml = some (tagText relationship attrs))
    (numbers : (tabs.map Prod.snd).Nodup) :
    ∃ more : List (Nat × Line),(∀ link ∈ more,Linked link.1 link.2) ∧ (∀ link ∈ more,link.1 ∈ tabs.map Prod.snd) ∧
      mergeWorkbookRelationships relsXml generatedRelsXml (tabs.map numberedAt) =
        before ++ (tagTexts relationship (more.map Prod.snd) ++ (closing ++ after)) ∧
      ∀ tab ∈ tabs,tab.2 ∈ more.map Prod.fst ∨ idAttribute (rId tab.2) <:+: relsXml := by
  have base : relsXml = before ++ (closing ++ after) := by
    rw [cut_id found,append_assoc]
  induction tabs using List.reverseRecOn with
  | nil => exact ⟨[],by simp,by simp,by rw [base]; rfl,by simp⟩
  | append_singleton tabs last ih =>
    rw [map_append,nodup_append] at numbers
    obtain ⟨distinct,_,fresh⟩ := numbers
    obtain ⟨more,linked,within,same,all⟩ := ih (fun tab member => links tab (mem_append_left _ member)) distinct
    obtain ⟨attrs,own,lookup⟩ := links last (by simp)
    have step : mergeWorkbookRelationships relsXml generatedRelsXml ((tabs ++ [last]).map numberedAt) =
        mergeRelationship generatedRelsXml (before ++ (tagTexts relationship (more.map Prod.snd) ++ (closing ++ after))) (numberedAt last) := by
      rw [← same]
      simp [mergeWorkbookRelationships]
    have apart : ∀ link ∈ more,last.2 ≠ link.1 := fun link member other => fresh _ (within link member) _ mem_cons_self other.symm
    have earlier : ∀ link ∈ more,link.1 ∈ (tabs ++ [last]).map Prod.snd := by
      intro link member
      rw [map_append]
      exact mem_append_left _ (within link member)
    rw [base] at found
    rw [step]
    rcases mergeRelationship_links found linked own apart (show (numberedAt last).relId = rId last.2 from rfl) lookup with ⟨known,stays⟩ | put
    · refine ⟨more,linked,earlier,stays,?_⟩
      intro tab member
      rcases mem_append.mp member with inside | inside
      · exact all tab inside
      · cases mem_singleton.mp inside
        rw [base]
        exact .inr known
    · refine ⟨more ++ [(last.2,attrs)],?_,?_,put,?_⟩
      · intro link member
        rcases mem_append.mp member with inside | inside
        · exact linked link inside
        · cases mem_singleton.mp inside
          exact own
      · intro link member
        rcases mem_append.mp member with inside | inside
        · exact earlier link inside
        · cases mem_singleton.mp inside
          simp
      · intro tab member
        rw [map_append]
        rcases mem_append.mp member with inside | inside
        · exact (all tab inside).imp_left (mem_append_left _)
        · cases mem_singleton.mp inside
          simp

theorem closing_closed : Closed closing := closed_of_last texts.2.2.2.1.1

theorem tags_closing (ended : tags relationship 0 after = []) : tags relationship 0 (closing ++ after) = [] := by
  have own : tags relationship 0 closing = [] := texts.2.2.2.1.2
  rw [tags_append relationship_signs.1 closing_closed (Nat.zero_le _),own,ended]
  rfl

theorem relMap_links (closed : Closed before) (ended : tags relationship 0 after = []) (linked : ∀ link ∈ more,Linked link.1 link.2) :
    relMap (before ++ (tagTexts relationship (more.map Prod.snd) ++ (closing ++ after))) =
      (more.map Prod.snd).foldl related (relMap (before ++ (closing ++ after))) := by
  have clear : '>' ∉ relationship := relationship_signs.1
  have bounded : ∀ group ∈ more.map Prod.snd,group.head?.all (fun c => !isWord c) = true ∧ '>' ∉ group := by
    intro group member
    obtain ⟨link,inside,rfl⟩ := mem_map.mp member
    refine ⟨?_,(linked link inside).clear.2.1⟩
    rw [(linked link inside).bounded]
    decide
  have groups : tags relationship 0 (before ++ (tagTexts relationship (more.map Prod.snd) ++ (closing ++ after))) =
      tags relationship 0 before ++ more.map Prod.snd := by
    rw [tags_append clear closed (Nat.zero_le _),tags_tagTexts (fun group member => (bounded group member).1) (fun group member => (bounded group member).2),
      tags_closing ended,append_nil]
  have own : tags relationship 0 (before ++ (closing ++ after)) = tags relationship 0 before := by
    rw [tags_append clear closed (Nat.zero_le _),tags_closing ended,append_nil]
  have whole : relMap (before ++ (tagTexts relationship (more.map Prod.snd) ++ (closing ++ after))) =
      (tags relationship 0 before ++ more.map Prod.snd).foldl related KeyMap.empty := congrArg (List.foldl related KeyMap.empty) groups
  have start : relMap (before ++ (closing ++ after)) = (tags relationship 0 before).foldl related KeyMap.empty :=
    congrArg (List.foldl related KeyMap.empty) own
  rw [whole,start,foldl_append]

end links

end Ownly.Sheets.Xlsx
