import Ownly.Sheets.Descent
import Ownly.Sheets.Relationships

-- The package that a save returns, part by part.
namespace Ownly.Sheets.Xlsx
open Text (Line)
open Markup
open List

variable {styles : Styles} {source generated merged result : Entries} {sheets : List Tab} {data : Nat → Line} {sheet : Tab}
  {tab other : Tab × Nat} {entry entry' : CatalogEntry} {catalog : List CatalogEntry} {path text shell block attrs : Line} {k j : Nat}
  {rels : List (String × String)}

theorem replace_carries (takes : Takes shell block) : Carries shell block (replaceSheetDataInWorksheet shell block) := by
  unfold Takes at takes
  unfold replaceSheetDataInWorksheet
  cases found : sheetDataElement shell with
  | some parts =>
    obtain ⟨before,old,after⟩ := parts
    rw [found] at takes
    exact ⟨before,after,by simp only [substitute_verbatim takes],.inl ⟨old,found⟩⟩
  | none =>
    rw [found] at takes
    obtain ⟨unopened,unclosed,plain⟩ := takes
    simp only [unopened,unclosed,Option.isSome_none,Bool.false_eq_true,if_false]
    cases merges : openingAt "mergeCells".toList shell with
    | some parts =>
      obtain ⟨before,after⟩ := parts
      exact ⟨before,after,rfl,.inr ⟨found,by rw [openingAt_parts merges]⟩⟩
    | none =>
      simp only
      split
      · rename_i ended
        obtain ⟨⟨before,after⟩,place⟩ := Option.isSome_iff_exists.mp ended
        have whole : verbatim (block ++ "</worksheet>".toList) = true := by
          have close : "</worksheet>".toList = '<' :: "/worksheet>".toList := by simp
          have own : verbatim ('<' :: "/worksheet>".toList) = true := texts.2.2.2.2.2.2
          rw [close,verbatim_append (by decide),own,plain merges ended]
          rfl
        obtain ⟨here,same,length,starts⟩ := cut_parts place
        have lower : here.map Char.toLower = "</worksheet>".toList.map Char.toLower := by
          have lead := isPrefixOf_iff_prefix.mp starts
          rw [map_append] at lead
          obtain ⟨_,joined⟩ := lead
          exact (append_inj joined (by simp [length])).1.symm
        refine ⟨before,"</worksheet>".toList ++ after,?_,.inr ⟨found,?_⟩⟩
        · rw [replaceFirst_cut place whole]
          simp only [append_assoc]
        · rw [same]
          simp only [map_append,lower,append_assoc]
      · exact ⟨shell,[],by rw [append_nil],.inr ⟨found,by rw [append_nil]⟩⟩

theorem copyPart_agrees (p : Line) (agrees : merged.get path = generated.get path) : (copyPart generated p merged).get path = generated.get path := by
  unfold copyPart
  split
  · rename_i found
    rw [KeyMap.get_set]
    split
    · rename_i same
      rw [same,found]
    · exact agrees
  · exact agrees

theorem copySheet_agrees (entry : CatalogEntry) (agrees : merged.get path = generated.get path) :
    (copySheet generated merged entry).get path = generated.get path := copyPart_agrees _ (copyPart_agrees _ agrees)

theorem copySheet_own (known : (generated.get entry.sheetPath).isSome) :
    (copySheet generated merged entry).get entry.sheetPath = generated.get entry.sheetPath := by
  obtain ⟨bytes,found⟩ := Option.isSome_iff_exists.mp known
  refine copyPart_agrees _ ?_
  rw [copyPart,found]
  exact KeyMap.get_set_self

theorem copied_get (known : (generated.get entry.sheetPath).isSome) (member : entry ∈ catalog) :
    (catalog.foldl (copySheet generated) merged).get entry.sheetPath = generated.get entry.sheetPath := by
  induction catalog using List.reverseRecOn with
  | nil => cases member
  | append_singleton catalog last ih =>
    rw [foldl_append]
    rcases mem_append.mp member with inside | inside
    · exact copySheet_agrees last (ih inside)
    · cases mem_singleton.mp inside
      exact copySheet_own known

section patches
variable (descended : Descended source (sheets.map origin)) (distinct : (sheets.map Tab.name).Nodup) (made : Generated sheets data generated)
  (plain : ∀ sheet ∈ sheets,∀ c ∈ sheet.name,c ∉ special) (formed : WellFormed source)
include descended distinct made plain formed

def patched (styles : Styles) (source generated : Entries) (data : Nat → Line) (tab : Tab × Nat) : Line :=
  replaceSheetDataInWorksheet (shellOf source generated tab) (restyle styles source generated (data tab.2))

theorem patch_row (styles : Styles) (merged : Entries) (member : tab ∈ placed sheets)
    (ready : tab.1.sourceSheetId = none → merged.get (sheetPathOf tab.2) = generated.get (sheetPathOf tab.2)) :
    patch styles source generated (keyed CatalogEntry.name (listWorksheetCatalog generated)) merged tab.1 =
      merged.set (row tab).sheetPath (patched styles source generated data tab) := by
  obtain ⟨part,own,extracted⟩ := made.parts tab member
  have link := generated_get distinct made plain member
  have own_ : generated.get (numberedAt tab).sheetPath = some part := own
  rw [patch,link]
  simp only [own_,extracted]
  rcases descended.traced_tab (placed_sheet member) with new | ⟨entry,known,whole⟩
  · simp only [origin,Prod.mk.injEq] at new
    have there : merged.get (sheetPathOf tab.2) = some part := (ready new.1).trans own
    simp [new,there,row,patched,shellOf,own,numberedAt]
  · obtain ⟨shell,kept⟩ := Option.isSome_iff_exists.mp (formed.parts entry known)
    simp only [origin,Prod.mk.injEq] at whole
    simp [whole,kept,row,patched,shellOf]

theorem patches (styles : Styles) {tabs : List (Tab × Nat)} (within : ∀ tab ∈ tabs,tab ∈ placed sheets) (paths : (tabs.map (fun tab => (row tab).sheetPath)).Nodup)
    (ready : ∀ tab ∈ tabs,tab.1.sourceSheetId = none → merged.get (sheetPathOf tab.2) = generated.get (sheetPathOf tab.2))
    (own : ∀ tab ∈ tabs,tab.1.sourceSheetId = none → (row tab).sheetPath = sheetPathOf tab.2) :
    (∀ tab ∈ tabs,((tabs.map Prod.fst).foldl (patch styles source generated (keyed CatalogEntry.name (listWorksheetCatalog generated))) merged).get
        (row tab).sheetPath = some (patched styles source generated data tab)) ∧
      ∀ path,path ∉ tabs.map (fun tab => (row tab).sheetPath) →
        ((tabs.map Prod.fst).foldl (patch styles source generated (keyed CatalogEntry.name (listWorksheetCatalog generated))) merged).get path =
          merged.get path := by
  induction tabs using List.reverseRecOn with
  | nil => exact ⟨fun _ member => absurd member not_mem_nil,fun _ _ => rfl⟩
  | append_singleton tabs last ih =>
    rw [map_append,nodup_append] at paths
    obtain ⟨before,_,fresh⟩ := paths
    obtain ⟨written,others⟩ := ih (fun tab member => within tab (mem_append_left _ member)) before
      (fun tab member => ready tab (mem_append_left _ member)) (fun tab member => own tab (mem_append_left _ member))
    have apart : (row last).sheetPath ∉ tabs.map (fun tab => (row tab).sheetPath) := fun member => fresh _ member _ mem_cons_self rfl
    have step := patch_row descended distinct made plain formed styles
      ((tabs.map Prod.fst).foldl (patch styles source generated (keyed CatalogEntry.name (listWorksheetCatalog generated))) merged)
      (within last (by simp)) (by
        intro new
        rw [← ready last (by simp) new]
        rw [own last (by simp) new] at apart
        exact others _ apart)
    rw [map_append,foldl_append,map_singleton,foldl_cons,foldl_nil,step]
    constructor
    · intro tab member
      rcases mem_append.mp member with inside | inside
      · have ne : (row tab).sheetPath ≠ (row last).sheetPath := fresh _ (mem_map_of_mem inside) _ mem_cons_self
        rw [KeyMap.get_set_ne ne]
        exact written tab inside
      · cases mem_singleton.mp inside
        exact KeyMap.get_set_self
    · intro path outside
      rw [map_append,mem_append,not_or] at outside
      have ne : path ≠ (row last).sheetPath := fun same => outside.2 (by rw [same]; simp)
      rw [KeyMap.get_set_ne ne]
      exact others path outside.1

omit descended distinct made plain formed in
theorem row_new (new : origin tab.1 = (none,none,none)) : row tab = ⟨tab.1.name,sheetPathOf tab.2,decimal tab.2,rId tab.2⟩ := by
  simp only [origin,Prod.mk.injEq] at new
  simp [row,new]

omit descended distinct made plain formed in
theorem row_kept (whole : origin tab.1 = (some entry.sheetId,some entry.relId,some entry.sheetPath)) :
    row tab = {entry with name := tab.1.name} := by
  simp only [origin,Prod.mk.injEq] at whole
  simp [row,whole]

end patches

section merge
variable (formed : WellFormed source) (obtained : Obtained source sheets) (distinct : (sheets.map Tab.name).Nodup)
  (made : Generated sheets data generated) (clear : Clear styles source generated sheets data)
include formed obtained distinct made clear

omit distinct made in
theorem rows_apart : ((placed sheets).map (fun tab => (row tab).sheetId)).Nodup ∧ ((placed sheets).map (fun tab => (row tab).relId)).Nodup ∧
    ((placed sheets).map (fun tab => (row tab).sheetPath)).Nodup := by
  have descended := obtained_descended formed obtained
  refine ⟨?_,?_,?_⟩
  · refine fields_nodup descended formed.sheetIds (fun _ _ same => decimal_injective same) ?_ ?_ (fun tab member new sheet known =>
      (clear.apart tab member new sheet known).1)
    · exact fun sheet new => congrArg Prod.fst new
    · exact fun sheet entry whole => congrArg Prod.fst whole
  · refine fields_nodup descended formed.relIds (fun _ _ same => rId_injective same) ?_ ?_ (fun tab member new sheet known =>
      (clear.apart tab member new sheet known).2.1)
    · exact fun sheet new => congrArg (fun place => place.2.1) new
    · exact fun sheet entry whole => congrArg (fun place => place.2.1) whole
  · refine fields_nodup descended formed.sheetPaths (fun _ _ same => sheetPathOf_injective same) ?_ ?_ (fun tab member new sheet known =>
      (clear.apart tab member new sheet known).2.2)
    · exact fun sheet new => congrArg (fun place => place.2.2) new
    · exact fun sheet entry whole => congrArg (fun place => place.2.2) whole

omit formed obtained distinct made clear in
theorem structured_other (sourceCatalog generatedCatalog : List CatalogEntry)
    (outside : path ∉ [workbookPath,relsPath,"[Content_Types].xml".toList]) :
    (applyWorkbookStructureMerge merged source generated sheets sourceCatalog generatedCatalog).get path =
      ((sheets.filterMap (chosenNew sourceCatalog generatedCatalog)).foldl (copySheet generated) merged).get path := by
  simp only [mem_cons,not_mem_nil,or_false,not_or] at outside
  obtain ⟨first,second,third⟩ := outside
  exact (KeyMap.get_set_ne third).trans ((KeyMap.get_set_ne second).trans (KeyMap.get_set_ne first))

omit formed obtained distinct made clear in
theorem structured_workbook (sourceCatalog generatedCatalog : List CatalogEntry) :
    (applyWorkbookStructureMerge merged source generated sheets sourceCatalog generatedCatalog).get workbookPath =
      some (rebuildWorkbookSheets (textOf source "xl/workbook.xml") (sheets.filterMap (chosenTag sourceCatalog generatedCatalog))) := by
  exact (KeyMap.get_set_ne paths_apart.2.1).trans ((KeyMap.get_set_ne paths_apart.1).trans KeyMap.get_set_self)

omit formed obtained distinct made clear in
theorem structured_rels (sourceCatalog generatedCatalog : List CatalogEntry) :
    (applyWorkbookStructureMerge merged source generated sheets sourceCatalog generatedCatalog).get relsPath =
      some (mergeWorkbookRelationships (textOf source "xl/_rels/workbook.xml.rels") (textOf generated "xl/_rels/workbook.xml.rels")
        (sheets.filterMap (chosenNew sourceCatalog generatedCatalog))) := by
  exact (KeyMap.get_set_ne paths_apart.2.2).trans KeyMap.get_set_self

omit distinct made clear in
theorem row_outside (member : tab ∈ placed sheets) : (row tab).sheetPath ∉ [workbookPath,relsPath,"[Content_Types].xml".toList] := by
  rcases (obtained_descended formed obtained).traced_tab (placed_sheet member) with new | ⟨entry,known,whole⟩
  · rw [row_new new]
    exact sheetPathOf_apart tab.2
  · rw [row_kept whole]
    exact formed.apart entry known

theorem merge_patches :
    (∀ tab ∈ placed sheets,(mergePassthroughXlsx styles source generated sheets).get (row tab).sheetPath =
      some (patched styles source generated data tab)) ∧
    ∀ path ∈ [workbookPath,relsPath],(mergePassthroughXlsx styles source generated sheets).get path =
      (applyWorkbookStructureMerge (mergeStyles styles source generated (overlay source generated)).1 source generated sheets
        (listWorksheetCatalog source) (listWorksheetCatalog generated)).get path := by
  have descended := obtained_descended formed obtained
  have paths := (rows_apart formed obtained clear).2.2
  have new_ : ∀ tab ∈ placed sheets,tab.1.sourceSheetId = none → origin tab.1 = (none,none,none) := by
    intro tab member none_
    rcases descended.traced_tab (placed_sheet member) with new | ⟨entry,_,whole⟩
    · exact new
    · simp [origin,none_] at whole
  have ready : ∀ tab ∈ placed sheets,tab.1.sourceSheetId = none →
      (applyWorkbookStructureMerge (mergeStyles styles source generated (overlay source generated)).1 source generated sheets
        (listWorksheetCatalog source) (listWorksheetCatalog generated)).get (sheetPathOf tab.2) = generated.get (sheetPathOf tab.2) := by
    intro tab member none_
    obtain ⟨part,own,_⟩ := made.parts tab member
    have listed_ : numberedAt tab ∈ (added sheets).map numberedAt :=
      mem_map_of_mem (mem_filter.mpr ⟨member,decide_eq_true none_⟩)
    rw [structured_other _ _ (sheetPathOf_apart tab.2),chosen_new descended distinct made clear.plain formed]
    exact copied_get (Option.isSome_iff_exists.mpr ⟨part,own⟩) listed_
  obtain ⟨written,others⟩ := patches descended distinct made clear.plain formed styles (fun _ member => member) paths ready
    (fun tab member none_ => by rw [row_new (new_ tab member none_)])
  have sheets_ : (placed sheets).map Prod.fst = sheets := zipIdx_map_fst 1 sheets
  rw [sheets_] at written others
  refine ⟨written,fun path describes => others path ?_⟩
  intro inside
  obtain ⟨tab,member,rfl⟩ := mem_map.mp inside
  refine row_outside formed obtained member ?_
  simp only [mem_cons,not_mem_nil,or_false] at describes ⊢
  exact describes.elim .inl (fun same => .inr (.inl same))

omit formed obtained distinct made clear in
theorem rows_zipIdx (sheets : List Tab) : ((placed sheets).map row).zipIdx 1 = (placed sheets).map (fun tab => (row tab,tab.2)) := by
  have run : ∀ (sheets : List Tab) (n : Nat),((sheets.zipIdx n).map row).zipIdx n = (sheets.zipIdx n).map (fun tab => (row tab,tab.2)) := by
    intro sheets
    induction sheets with
    | nil => exact fun _ => rfl
    | cons sheet sheets ih =>
      intro n
      rw [zipIdx_cons,map_cons,zipIdx_cons,ih (n + 1)]
      rfl
  exact run sheets 1

omit distinct made clear in
theorem rows_quoted (member : tab ∈ placed sheets) : '"' ∉ (row tab).sheetId ∧ '"' ∉ (row tab).relId := by
  rcases (obtained_descended formed obtained).traced_tab (placed_sheet member) with new | ⟨entry,known,whole⟩
  · rw [row_new new]
    exact ⟨decimal_quoted,rId_quoted⟩
  · rw [row_kept whole]
    exact (catalog_entered source entry known).quoted

theorem merge_resolved (member : tab ∈ placed sheets) :
    (relMap (textOf (mergePassthroughXlsx styles source generated sheets) "xl/_rels/workbook.xml.rels")).get (row tab).relId =
      some (row tab).sheetPath := by
  have descended := obtained_descended formed obtained
  obtain ⟨before,after,found,closed,ended⟩ := formed.rels
  have inside : ∀ tab ∈ added sheets,tab ∈ placed sheets := fun tab member => (mem_filter.mp member).1
  have new_ : ∀ tab ∈ added sheets,tab.1.sourceSheetId = none := fun tab member => of_decide_eq_true (mem_filter.mp member).2
  have numbers : ((added sheets).map Prod.snd).Nodup := (placed_numbers sheets).sublist (filter_sublist.map _)
  obtain ⟨more,linked,within,merged,all⟩ := merged_links found (fun tab member => made.links tab (inside tab member)) numbers
  have base : textOf source "xl/_rels/workbook.xml.rels" = before ++ (closing ++ after) := by
    rw [cut_id found,append_assoc]
    rfl
  have text : textOf (mergePassthroughXlsx styles source generated sheets) "xl/_rels/workbook.xml.rels" =
      before ++ (tagTexts relationship (more.map Prod.snd) ++ (closing ++ after)) := by
    have there := (merge_patches formed obtained distinct made clear).2 relsPath (by simp)
    rw [structured_rels,chosen_new descended distinct made clear.plain formed,merged] at there
    exact congrArg (Option.getD · []) there
  have map : relMap (textOf (mergePassthroughXlsx styles source generated sheets) "xl/_rels/workbook.xml.rels") =
      (more.map Prod.snd).foldl related (relMap (textOf source "xl/_rels/workbook.xml.rels")) := by
    rw [text,base]
    exact relMap_links closed ended linked
  obtain ⟨own,others⟩ := related_links (relMap (textOf source "xl/_rels/workbook.xml.rels")) linked
  rw [map]
  rcases descended.traced_tab (placed_sheet member) with new | ⟨entry,known,whole⟩
  · have fresh : tab ∈ added sheets := mem_filter.mpr ⟨member,decide_eq_true (congrArg Prod.fst new)⟩
    rw [row_new new]
    rcases all tab fresh with put | before_
    · obtain ⟨link,there,same⟩ := mem_map.mp put
      rw [← same]
      exact own link there
    · by_cases put : ∃ link ∈ more,link.1 = tab.2
      · obtain ⟨link,there,same⟩ := put
        rw [← same]
        exact own link there
      · have apart : ∀ link ∈ more,rId tab.2 ≠ rId link.1 := fun link there same => put ⟨link,there,(rId_injective same).symm⟩
        rw [others _ apart]
        exact (clear.free tab member (congrArg Prod.fst new)).resolve_left (not_not_intro before_)
  · have apart : ∀ link ∈ more,entry.relId ≠ rId link.1 := by
      intro link there same
      obtain ⟨other,fresh,number⟩ := mem_map.mp (within link there)
      have held : tab.1.sourceRelId = some (rId other.2) := by
        rw [number,← same]
        exact congrArg (fun place => place.2.1) whole
      exact (clear.apart other (inside other fresh) (new_ other fresh) tab.1 (placed_sheet member)).2.1 held
    rw [row_kept whole]
    exact (others _ apart).trans (catalog_entered source entry known).resolved

theorem merge_listed : ∃ before matched after,sheetsElement (textOf source "xl/workbook.xml") = some (before,matched,after) ∧
    textOf (mergePassthroughXlsx styles source generated sheets) "xl/workbook.xml" =
      before ++ sheetsBlock ((placed sheets).map (fun tab => tagOf (row tab))) ++ after := by
  obtain ⟨⟨before,matched,after⟩,element⟩ := Option.isSome_iff_exists.mp formed.sheets
  have there := (merge_patches formed obtained distinct made clear).2 workbookPath (by simp)
  rw [structured_workbook,chosen_tags (obtained_descended formed obtained) distinct made clear.plain formed,rebuildWorkbookSheets,element] at there
  simp only [substitute_verbatim clear.tags] at there
  exact ⟨before,matched,after,element,congrArg (Option.getD · []) there⟩

theorem merge_carried (member : tab ∈ placed sheets) : ∃ shell part,
    (source.get (row tab).sheetPath = some shell ∨ generated.get (row tab).sheetPath = some shell) ∧
      (mergePassthroughXlsx styles source generated sheets).get (row tab).sheetPath = some part ∧
      Carries shell (restyle styles source generated (data tab.2)) part := by
  refine ⟨shellOf source generated tab,patched styles source generated data tab,?_,
    (merge_patches formed obtained distinct made clear).1 tab member,replace_carries (clear.takes tab member)⟩
  rcases (obtained_descended formed obtained).traced_tab (placed_sheet member) with new | ⟨entry,known,whole⟩
  · obtain ⟨part,own,_⟩ := made.parts tab member
    rw [row_new new]
    simp only [origin,Prod.mk.injEq] at new
    simp [shellOf,new,own]
  · obtain ⟨shell,kept⟩ := Option.isSome_iff_exists.mp (formed.parts entry known)
    rw [row_kept whole]
    simp only [origin,Prod.mk.injEq] at whole
    simp [shellOf,whole,kept]

theorem mergePassthroughXlsx_apart :
    SheetsApart styles source generated sheets data (mergePassthroughXlsx styles source generated sheets) := by
  obtain ⟨sheetIds,relIds,sheetPaths⟩ := rows_apart formed obtained clear
  refine ⟨(placed sheets).map row,?_,?_,?_,?_,?_,?_,?_,?_⟩
  · have known : sheets = (placed sheets).map Prod.fst := (zipIdx_map_fst 1 sheets).symm
    conv_rhs => rw [known]
    simp [Function.comp_def,row]
  · rw [map_map]
    exact merge_listed formed obtained distinct made clear
  · intro entry member
    obtain ⟨tab,inside,rfl⟩ := mem_map.mp member
    exact rows_quoted formed obtained inside
  · rwa [map_map]
  · rwa [map_map]
  · rwa [map_map]
  · intro entry member
    obtain ⟨tab,inside,rfl⟩ := mem_map.mp member
    exact merge_resolved formed obtained distinct made clear inside
  · intro entry member
    rw [rows_zipIdx] at member
    obtain ⟨tab,inside,rfl⟩ := mem_map.mp member
    exact merge_carried formed obtained distinct made clear inside

end merge

theorem idAttribute_parts (k : Nat) : idAttribute (rId k) = "Id=".toList ++ '"' :: (rId k ++ '"' :: []) := by
  simp [idAttribute]

theorem idAttribute_inj (inside : idAttribute (rId j) <:+: idAttribute (rId k)) : j = k := by
  obtain ⟨front,back,whole⟩ := inside
  rw [idAttribute_parts,idAttribute_parts] at whole
  have quoted : ∀ n,(rId n).count '"' = 0 := fun n => count_eq_zero.mpr rId_quoted
  have none_ : '"' ∉ front := by
    have count := congrArg (List.count '"') whole
    simp [count_append,quoted] at count
    exact count_eq_zero.mp (by omega)
  have same : (front ++ "Id=".toList) ++ '"' :: (rId j ++ '"' :: back) = "Id=".toList ++ '"' :: (rId k ++ '"' :: []) := by
    rw [← whole]
    simp
  have inner := (sign_inj (by simp [none_]) (by simp) same).2
  exact rId_injective (sign_inj rId_quoted rId_quoted inner).1

theorem linked_only {rest : Line} (clear : 'I' ∉ rest) (ne : j ≠ k) :
    ¬idAttribute (rId j) <:+: tagText relationship (' ' :: (idAttribute (rId k) ++ ' ' :: rest)) := by
  intro inside
  have whole : tagText relationship (' ' :: (idAttribute (rId k) ++ ' ' :: rest)) =
      ('<' :: relationship) ++ ' ' :: (idAttribute (rId k) ++ ' ' :: (rest ++ ['>'])) := by simp [tagText]
  have blank : ' ' ∉ idAttribute (rId j) := idAttribute_clear (by decide) (by simp)
  have starts : 'I' ∈ idAttribute (rId j) := by simp [idAttribute]
  have quoted : '"' ∈ idAttribute (rId j) := by simp [idAttribute]
  rw [whole] at inside
  rcases infix_beside blank inside with front | behind
  · exact absurd (front.subset quoted) relationship_signs.2.2.1
  · rcases infix_beside blank behind with own | behind
    · exact ne (idAttribute_inj own)
    · have there := behind.subset starts
      simp [clear] at there

def sampleRels (rels : List (String × String)) : Line :=
  "<Relationships>".toList ++ tagTexts relationship (rels.map (fun rel =>
    " Id=\"".toList ++ rel.1.toList ++ "\" Target=\"".toList ++ rel.2.toList ++ "\"/".toList)) ++ closing

def sampleWorkbook (tags : List Line) : Line := "<workbook>".toList ++ sheetsBlock tags ++ "</workbook>".toList

def sampleData (k : Nat) : Line := "<sheetData>".toList ++ "<row r=\"".toList ++ decimal k ++ "\"/>".toList ++ "</sheetData>".toList

def samplePart (k : Nat) : Line := "<worksheet>".toList ++ sampleData k ++ "</worksheet>".toList

def sample (tags : List Line) (rels : List (String × String)) (parts : List (Line × Line)) : Entries :=
  parts.foldl (fun entries part => entries.set part.1 part.2)
    (((KeyMap.empty.set workbookPath (sampleWorkbook tags)).set relsPath (sampleRels rels)).set "xl/theme/theme1.xml".toList "<a:theme/>".toList)

def sampleTag (k : Nat) (name : String) : Line := sheetTag name.toList (decimal k) (rId k)

def sampleSource (rels : List (String × String)) : Entries := sample [sampleTag 1 "A"] rels [(sheetPathOf 1,samplePart 1)]

def sampleGenerated : Entries :=
  sample [sampleTag 1 "A",sampleTag 2 "B"] [("rId1","worksheets/sheet1.xml"),("rId2","worksheets/sheet2.xml"),("rId3","theme/theme1.xml")]
    [(sheetPathOf 1,samplePart 1),(sheetPathOf 2,samplePart 2)]

def sampleStyles : Styles := ⟨fun source _ => (source,KeyMap.empty),fun sheetData _ => sheetData⟩

def sampleFree : List (String × String) := [("rId1","worksheets/sheet1.xml"),("rId9","theme/theme1.xml")]

def sampleThemed : List (String × String) := [("rId1","worksheets/sheet1.xml"),("rId2","theme/theme1.xml")]

def sampleSheets : List Tab := [⟨"A".toList,some (decimal 1),some (rId 1),some (sheetPathOf 1)⟩,⟨"B".toList,none,none,none⟩]

def sampleTarget (k : Nat) : Line := "worksheets/sheet".toList ++ decimal k ++ ".xml".toList

def sampleLast (k : Nat) : Line := "Target=\"".toList ++ sampleTarget k ++ "\"/".toList

def sampleAttrs (k : Nat) : Line := ' ' :: (idAttribute (rId k) ++ ' ' :: sampleLast k)

theorem sample_facts :
    (∀ rels ∈ [sampleFree,sampleThemed],listWorksheetCatalog (sampleSource rels) = [⟨"A".toList,sheetPathOf 1,decimal 1,rId 1⟩] ∧
      sheetsElement (textOf (sampleSource rels) "xl/workbook.xml") = some ("<workbook>".toList,sheetsBlock [sampleTag 1 "A"],"</workbook>".toList) ∧
      ((sampleSource rels).get (sheetPathOf 1)).isSome ∧
      (cut id "</Relationships>".toList (textOf (sampleSource rels) "xl/_rels/workbook.xml.rels")).all
        (fun parts => parts.1.getLast? = some '>' ∧ parts.2 = []) ∧
      (cut id "</Relationships>".toList (textOf (sampleSource rels) "xl/_rels/workbook.xml.rels")).isSome) ∧
    (∀ k ∈ [1,2],'I' ∉ sampleLast k ∧ ('<' ∉ sampleAttrs k ∧ '>' ∉ sampleAttrs k ∧ '$' ∉ sampleAttrs k) ∧
      attributeOf "Id".toList (sampleAttrs k) = some (rId k) ∧
      attributeOf "Target".toList (sampleAttrs k) = some (sampleTarget k) ∧
      sampleTarget k ≠ [] ∧
      normalizeXlsxEntryPath (sampleTarget k) = sheetPathOf k) ∧
    (listWorksheetCatalog sampleGenerated = (placed sampleSheets).map numberedAt ∧
      ∀ k ∈ [1,2],(sampleGenerated.get (sheetPathOf k) = some (samplePart k) ∧ extractSheetDataBlock (samplePart k) = some (sampleData k)) ∧
        findTag "Relationship".toList (contains Char.toLower (idAttribute (rId k))) (textOf sampleGenerated "xl/_rels/workbook.xml.rels") =
          some (tagText "Relationship".toList (sampleAttrs k))) ∧
    (verbatim (sheetsBlock ((placed sampleSheets).map (fun tab => tagOf (row tab)))) = true ∧
      ∀ tab ∈ placed sampleSheets,((sheetDataElement (shellOf (sampleSource sampleFree) sampleGenerated tab)).isSome ∧
        verbatim (restyle sampleStyles (sampleSource sampleFree) sampleGenerated (sampleData tab.2)) = true) ∧
        (tab.1.sourceSheetId = none → ¬idAttribute (rId tab.2) <:+: textOf (sampleSource sampleFree) "xl/_rels/workbook.xml.rels" ∧
          ∀ sheet ∈ sampleSheets,sheet.sourceSheetId ≠ some (decimal tab.2) ∧ sheet.sourceRelId ≠ some (rId tab.2) ∧
            sheet.sourceWorksheetPath ≠ some (sheetPathOf tab.2))) ∧
    textOf (mergePassthroughXlsx sampleStyles (sampleSource sampleThemed) sampleGenerated sampleSheets) "xl/workbook.xml" =
      "<workbook>".toList ++ sheetsBlock [sampleTag 1 "A",sampleTag 2 "B"] ++ "</workbook>".toList ∧
    (relMap (textOf (mergePassthroughXlsx sampleStyles (sampleSource sampleThemed) sampleGenerated sampleSheets)
      "xl/_rels/workbook.xml.rels")).get (rId 2) = some "xl/theme/theme1.xml".toList ∧
    (mergePassthroughXlsx sampleStyles (sampleSource sampleThemed) sampleGenerated sampleSheets).get "xl/theme/theme1.xml".toList =
      some "<a:theme/>".toList ∧
    "<a:theme/>".toList.length < (restyle sampleStyles (sampleSource sampleThemed) sampleGenerated (sampleData 2)).length := by
  refine ⟨?_,?_,?_,?_,?_⟩ <;> decide +kernel

theorem sample_obtained (member : rels ∈ [sampleFree,sampleThemed]) : Obtained (sampleSource rels) sampleSheets := by
  have before : Obtained (sampleSource rels) (["A".toList].map (opened (sampleSource rels))) := .opened _ (nodup_singleton _)
  have sheet : opened (sampleSource rels) "A".toList = ⟨"A".toList,some (decimal 1),some (rId 1),some (sheetPathOf 1)⟩ := by
    rw [opened,(sample_facts.1 rels member).1]
    rfl
  have after := before.added (some "B".toList)
  rw [map_singleton,sheet] at after
  exact after

theorem sample_formed (member : rels ∈ [sampleFree,sampleThemed]) : WellFormed (sampleSource rels) := by
  obtain ⟨catalog,element,part,ends,closes⟩ := sample_facts.1 rels member
  have only : ∀ entry ∈ listWorksheetCatalog (sampleSource rels),entry = ⟨"A".toList,sheetPathOf 1,decimal 1,rId 1⟩ := by
    rw [catalog]
    exact fun entry inside => mem_singleton.mp inside
  refine ⟨by rw [element]; rfl,?_,?_,?_,?_,?_,?_,?_⟩
  · obtain ⟨⟨before,after⟩,found⟩ := Option.isSome_iff_exists.mp closes
    rw [found] at ends
    obtain ⟨last,rest_⟩ := of_decide_eq_true ends
    exact ⟨before,after,found,closed_of_last last,congrArg (tags "Relationship".toList 0) rest_⟩
  · rw [catalog]
    exact nodup_singleton _
  · rw [catalog]
    exact nodup_singleton _
  · rw [catalog]
    exact nodup_singleton _
  · intro entry inside
    rw [only entry inside]
    decide
  · intro entry inside
    rw [only entry inside]
    exact part
  · intro entry inside
    rw [only entry inside]
    exact sheetPathOf_apart 1

theorem sample_linked {k : Nat} (member : k ∈ [1,2]) : Linked k (sampleAttrs k) := by
  obtain ⟨clear,marks,own,target⟩ := sample_facts.2.1 k member
  exact ⟨rfl,marks,own,⟨_,target⟩,fun j ne => linked_only clear ne⟩

theorem sample_placed (member : tab ∈ placed sampleSheets) : tab.2 ∈ [1,2] := by
  have number : tab.2 ∈ (placed sampleSheets).map Prod.snd := mem_map_of_mem member
  rwa [placed,zipIdx_map_snd] at number

theorem sample_generated : Generated sampleSheets sampleData sampleGenerated := by
  have all := sample_facts.2.2.1
  exact ⟨all.1,fun tab member => ⟨_,(all.2 _ (sample_placed member)).1⟩,
    fun tab member => ⟨_,sample_linked (sample_placed member),(all.2 _ (sample_placed member)).2⟩⟩

theorem sampleFree_clear : Clear sampleStyles (sampleSource sampleFree) sampleGenerated sampleSheets sampleData := by
  have all := sample_facts.2.2.2.1
  refine ⟨by simp [sampleSheets,special],all.1,?_,fun tab member new => ((all.2 tab member).2 new).2,
    fun tab member new => .inl ((all.2 tab member).2 new).1⟩
  intro tab member
  obtain ⟨element,plain⟩ := (all.2 tab member).1
  obtain ⟨parts,found⟩ := Option.isSome_iff_exists.mp element
  rw [Takes,found]
  exact plain

theorem sample_distinct : (sampleSheets.map Tab.name).Nodup := by simp [sampleSheets]

theorem mergePassthroughXlsx_apart_free : SheetsApart sampleStyles (sampleSource sampleFree) sampleGenerated sampleSheets sampleData
    (mergePassthroughXlsx sampleStyles (sampleSource sampleFree) sampleGenerated sampleSheets) :=
  mergePassthroughXlsx_apart (sample_formed (by simp)) (sample_obtained (by simp)) sample_distinct sample_generated sampleFree_clear

theorem sheetTag_parts (name sheetId relId rest : Line) : sheetTag name sheetId relId ++ rest =
    ("<sheet name=\"".toList ++ escapeXmlAttribute name ++ "\" sheetId=\"".toList) ++
      (sheetId ++ '"' :: (" r:id=\"".toList ++ (relId ++ '"' :: ("/>".toList ++ rest)))) := by
  have middle : "\" r:id=\"".toList = '"' :: " r:id=\"".toList := by simp
  have last : "\"/>".toList = '"' :: "/>".toList := by simp
  unfold sheetTag
  generalize "<sheet name=\"".toList = a,"\" sheetId=\"".toList = b,"\" r:id=\"".toList = c,"\"/>".toList = d,
    " r:id=\"".toList = e,"/>".toList = f at middle last ⊢
  subst middle last
  simp

theorem sheetTag_inj {name sheetId relId sheetId' relId' rest rest' : Line} (quoted : '"' ∉ sheetId ∧ '"' ∉ relId)
    (quoted' : '"' ∉ sheetId' ∧ '"' ∉ relId') (same : sheetTag name sheetId relId ++ rest = sheetTag name sheetId' relId' ++ rest') :
    sheetId = sheetId' ∧ relId = relId' ∧ rest = rest' := by
  have parts := (sheetTag_parts name sheetId relId rest).symm.trans (same.trans (sheetTag_parts name sheetId' relId' rest'))
  obtain ⟨first,behind⟩ := sign_inj quoted.1 quoted'.1 (append_cancel_left parts)
  obtain ⟨second,last⟩ := sign_inj quoted.2 quoted'.2 (append_cancel_left behind)
  exact ⟨first,second,append_cancel_left last⟩

theorem mergePassthroughXlsx_theme : ∃ source sheets data generated,WellFormed source ∧ Obtained source sheets ∧ (sheets.map Tab.name).Nodup ∧
    Generated sheets data generated ∧
    ¬SheetsApart sampleStyles source generated sheets data (mergePassthroughXlsx sampleStyles source generated sheets) := by
  refine ⟨sampleSource sampleThemed,sampleSheets,sampleData,sampleGenerated,sample_formed (by simp),sample_obtained (by simp),
    sample_distinct,sample_generated,?_⟩
  rintro ⟨rows,apart⟩
  obtain ⟨before,matched,after,element,listed⟩ := apart.listed
  obtain ⟨text,theme,part_,short⟩ := sample_facts.2.2.2.2
  have two : rows.map CatalogEntry.name = ["A".toList,"B".toList] := apart.names
  obtain ⟨first,second,rfl⟩ := length_eq_two.mp ((length_map _).symm.trans (congrArg List.length two))
  simp only [map_cons,map_nil,List.cons.injEq,and_true] at two
  rw [(sample_facts.1 sampleThemed (by simp)).2.1] at element
  cases element
  have block : sheetsBlock [sampleTag 1 "A",sampleTag 2 "B"] = sheetsBlock [tagOf first,tagOf second] :=
    append_cancel_left (append_cancel_right (text.symm.trans listed))
  have both : sampleTag 1 "A" ++ sampleTag 2 "B" = tagOf first ++ tagOf second := by
    simpa using append_cancel_left (append_cancel_right block)
  have ids : ('"' ∉ first.sheetId ∧ '"' ∉ first.relId) ∧ '"' ∉ second.sheetId ∧ '"' ∉ second.relId :=
    ⟨apart.quoted first (by simp),apart.quoted second (by simp)⟩
  rw [tagOf,tagOf,two.1,two.2] at both
  obtain ⟨_,_,rest_⟩ := sheetTag_inj ⟨decimal_quoted,rId_quoted⟩ ids.1 both
  obtain ⟨_,related,_⟩ := sheetTag_inj ⟨decimal_quoted,rId_quoted⟩ ids.2 ((append_nil _).trans (rest_.trans (append_nil _).symm))
  have resolved := apart.resolved second (by simp)
  rw [← related,theme] at resolved
  obtain ⟨shell,part,_,there,before,after,whole,_⟩ := apart.carried (second,2) (by simp)
  simp only at there
  rw [← Option.some.inj resolved,part_] at there
  cases there
  have length := congrArg List.length whole
  simp only [length_append] at length
  omega

end Ownly.Sheets.Xlsx
