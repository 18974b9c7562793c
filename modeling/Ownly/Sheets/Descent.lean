import Ownly.Sheets.Packages

-- The sheets of a model by where they come from, and the entries that they are given.
namespace Ownly.Sheets.Xlsx
open Text (Line)
open Markup
open List

variable {styles : Styles} {source generated merged result : Entries} {sheets : List Tab} {data : Nat → Line} {sheet : Tab}
  {tab other : Tab × Nat} {entry entry' : CatalogEntry} {catalog : List CatalogEntry} {path text shell block attrs : Line} {k j : Nat}
  {origins origins' : List (Option Line × Option Line × Option Line)}

def origin (sheet : Tab) : Option Line × Option Line × Option Line :=
  (sheet.sourceSheetId,sheet.sourceRelId,sheet.sourceWorksheetPath)

structure Descended (source : Entries) (origins : List (Option Line × Option Line × Option Line)) : Prop where
  traced : ∀ place ∈ origins,place = (none,none,none) ∨
    ∃ entry ∈ listWorksheetCatalog source,place = (some entry.sheetId,some entry.relId,some entry.sheetPath)
  once : (origins.filterMap Prod.fst).Nodup

theorem opened_origin (source : Entries) (name : Line) : origin (opened source name) = (none,none,none) ∨
    ∃ entry ∈ listWorksheetCatalog source,entry.name = name ∧
      origin (opened source name) = (some entry.sheetId,some entry.relId,some entry.sheetPath) := by
  cases found : (keyed CatalogEntry.name (listWorksheetCatalog source)).get name with
  | none => exact .inl (by simp [origin,opened,found])
  | some entry =>
    obtain ⟨member,same⟩ := keyed_mem CatalogEntry.name found
    exact .inr ⟨entry,member,same,by simp [origin,opened,found]⟩

theorem opened_descended (formed : WellFormed source) {names : List Line} (distinct : names.Nodup) :
    Descended source ((names.map (opened source)).map origin) := by
  constructor
  · intro place member
    obtain ⟨_,inside,rfl⟩ := mem_map.mp member
    obtain ⟨name,_,rfl⟩ := mem_map.mp inside
    rcases opened_origin source name with new | ⟨entry,known,_,same⟩
    · exact .inl new
    · exact .inr ⟨entry,known,same⟩
  · rw [filterMap_map,filterMap_map,List.Nodup,pairwise_filterMap]
    apply List.Pairwise.imp _ distinct
    intro name name' ne sheetId first sheetId' second same
    simp only [Function.comp_apply] at first second
    rcases opened_origin source name with new | ⟨entry,known,named,whole⟩
    · rw [new] at first
      cases first
    · rcases opened_origin source name' with new | ⟨entry',known',named',whole'⟩
      · rw [new] at second
        cases second
      · rw [whole] at first
        rw [whole'] at second
        cases first
        cases second
        have one : entry = entry' := inj_on_of_nodup_map formed.sheetIds known known' same
        rw [← named,← named',one] at ne
        exact ne rfl

theorem Descended.sublist (descended : Descended source origins)
    (part : origins'.Sublist origins) : Descended source origins' :=
  ⟨fun place member => descended.traced place (part.subset member),descended.once.sublist (part.filterMap _)⟩

theorem Descended.perm (descended : Descended source origins)
    (order : origins'.Perm origins) : Descended source origins' :=
  ⟨fun place member => descended.traced place (order.mem_iff.mp member),(order.filterMap _).nodup_iff.mpr descended.once⟩

theorem addSheet_origin (name : Option Line) (sheets : List Tab) :
    (addSheet name sheets).map origin = sheets.map origin ++ [(none,none,none)] := by simp [addSheet,origin]

theorem renameSheet_origin (sheetIndex : Nat) (name : Line) (sheets : List Tab) :
    (renameSheet sheetIndex name sheets).map origin = sheets.map origin := by
  unfold renameSheet
  split
  · rfl
  · induction sheets generalizing sheetIndex with
    | nil => simp
    | cons sheet sheets ih =>
      cases sheetIndex with
      | zero => simp [origin]
      | succ sheetIndex => simp [ih]

theorem moveSheet_perm (fromIndex toIndex : Nat) (sheets : List Tab) : (moveSheet fromIndex toIndex sheets).Perm sheets := by
  unfold moveSheet
  split
  · exact .refl _
  · split
    · exact .refl _
    · rename_i sheet found
      obtain ⟨inside,rfl⟩ := List.getElem?_eq_some_iff.mp found
      have middle : ((sheets.eraseIdx fromIndex).take toIndex ++ sheets[fromIndex] :: (sheets.eraseIdx fromIndex).drop toIndex).Perm
          (sheets[fromIndex] :: ((sheets.eraseIdx fromIndex).take toIndex ++ (sheets.eraseIdx fromIndex).drop toIndex)) := perm_middle
      rw [take_append_drop] at middle
      exact middle.trans (getElem_cons_eraseIdx_perm inside)

theorem obtained_descended (formed : WellFormed source) (obtained : Obtained source sheets) : Descended source (sheets.map origin) := by
  induction obtained with
  | opened names distinct => exact opened_descended formed distinct
  | added name before ih =>
    rw [addSheet_origin]
    constructor
    · intro place member
      rcases mem_append.mp member with inside | inside
      · exact ih.traced place inside
      · exact .inl (mem_singleton.mp inside)
    · simpa using ih.once
  | removed sheetIndex before ih =>
    unfold removeSheet
    split
    · exact ih
    · exact ih.sublist ((eraseIdx_sublist _ _).map origin)
  | renamed sheetIndex name before ih =>
    rw [renameSheet_origin]
    exact ih
  | moved fromIndex toIndex before ih => exact ih.perm ((moveSheet_perm fromIndex toIndex _).map origin)

theorem placed_sheet (member : tab ∈ placed sheets) : tab.1 ∈ sheets := by
  have known : tab.1 ∈ (placed sheets).map Prod.fst := mem_map_of_mem member
  rwa [placed,zipIdx_map_fst] at known

theorem filterMap_placed {α : Type} (f : Tab → Option α) (sheets : List Tab) :
    sheets.filterMap f = (placed sheets).filterMap (fun tab => f tab.1) := by
  have known : sheets = (placed sheets).map Prod.fst := (zipIdx_map_fst 1 sheets).symm
  conv_lhs => rw [known,filterMap_map]
  rfl

theorem placed_numbers (sheets : List Tab) : ((placed sheets).map Prod.snd).Nodup := by
  rw [placed,zipIdx_map_snd]
  exact nodup_range'

theorem placed_nodup (sheets : List Tab) : (placed sheets).Nodup := .of_map _ (placed_numbers sheets)

theorem filterMap_unique {α β : Type} {f : α → Option β} {l : List α} {a b : α} {v : β} (once : (l.filterMap f).Nodup) (first : a ∈ l)
    (second : b ∈ l) (found : f a = some v) (found' : f b = some v) : a = b := by
  induction l with
  | nil => cases first
  | cons x l ih =>
    have rest_ : (l.filterMap f).Nodup := once.sublist ((sublist_cons_self x l).filterMap f)
    have fresh : f x = some v → v ∉ l.filterMap f := by
      intro here
      rw [filterMap_cons_some here] at once
      exact (nodup_cons.mp once).1
    rcases mem_cons.mp first with rfl | inside
    · rcases mem_cons.mp second with rfl | inside'
      · rfl
      · exact absurd (mem_filterMap.mpr ⟨b,inside',found'⟩) (fresh found)
    · rcases mem_cons.mp second with rfl | inside'
      · exact absurd (mem_filterMap.mpr ⟨a,inside,found⟩) (fresh found')
      · exact ih rest_ inside inside'

section
variable (descended : Descended source (sheets.map origin))
include descended

theorem Descended.unique {sheetId : Line} (member : tab ∈ placed sheets)
    (member' : other ∈ placed sheets) (first : tab.1.sourceSheetId = some sheetId) (second : other.1.sourceSheetId = some sheetId) :
    tab = other := by
  have once := descended.once
  rw [filterMap_map,filterMap_placed] at once
  exact filterMap_unique once member member' first second

theorem Descended.traced_tab (member : sheet ∈ sheets) : origin sheet = (none,none,none) ∨
    ∃ entry ∈ listWorksheetCatalog source,origin sheet = (some entry.sheetId,some entry.relId,some entry.sheetPath) :=
  descended.traced _ (mem_map_of_mem member)

theorem fields_nodup {field : CatalogEntry → Line} {pick : Tab → Option Line} {fresh : Nat → Line}
    (distinct : ((listWorksheetCatalog source).map field).Nodup) (injective : ∀ k j,fresh k = fresh j → k = j)
    (picked : ∀ sheet,origin sheet = (none,none,none) → pick sheet = none)
    (known : ∀ sheet entry,origin sheet = (some entry.sheetId,some entry.relId,some entry.sheetPath) → pick sheet = some (field entry))
    (clear : ∀ tab ∈ placed sheets,tab.1.sourceSheetId = none → ∀ sheet ∈ sheets,pick sheet ≠ some (fresh tab.2)) :
    ((placed sheets).map (fun tab => (pick tab.1).getD (fresh tab.2))).Nodup := by
  apply List.Nodup.map_on _ (placed_nodup sheets)
  intro tab member tab' member' same
  rcases descended.traced_tab (placed_sheet member) with new | ⟨entry,inside,whole⟩
  · rw [picked _ new,Option.getD_none] at same
    rcases descended.traced_tab (placed_sheet member') with new' | ⟨entry',_,whole'⟩
    · rw [picked _ new',Option.getD_none] at same
      exact inj_on_of_nodup_map (placed_numbers sheets) member member' (injective _ _ same)
    · have found := known _ _ whole'
      rw [found,Option.getD_some] at same
      rw [← same] at found
      exact absurd found (clear _ member (congrArg Prod.fst new) _ (placed_sheet member'))
  · have found := known _ _ whole
    rw [found,Option.getD_some] at same
    rcases descended.traced_tab (placed_sheet member') with new' | ⟨entry',inside',whole'⟩
    · rw [picked _ new',Option.getD_none] at same
      rw [same] at found
      exact absurd found (clear _ member' (congrArg Prod.fst new') _ (placed_sheet member))
    · rw [known _ _ whole',Option.getD_some] at same
      obtain rfl := inj_on_of_nodup_map distinct inside inside' same
      exact descended.unique member member' (congrArg Prod.fst whole) (congrArg Prod.fst whole')

end

theorem escapeXml_plain {name : Line} (plain : ∀ c ∈ name,c ∉ special) : escapeXml name = name := by
  have each : ∀ c ∈ name,escapeXmlChar c = [c] := by
    intro c member
    have other := plain c member
    simp only [special,mem_cons,not_mem_nil,or_false,not_or] at other
    unfold escapeXmlChar escapeChar
    split
    · simp at other
    · split <;> simp_all
  rw [escapeXml,flatMap_congr each]
  simp

section chosen
variable (descended : Descended source (sheets.map origin)) (distinct : (sheets.map Tab.name).Nodup) (made : Generated sheets data generated)
  (plain : ∀ sheet ∈ sheets,∀ c ∈ sheet.name,c ∉ special)
include distinct made plain

theorem generated_get (member : tab ∈ placed sheets) :
    (keyed CatalogEntry.name (listWorksheetCatalog generated)).get tab.1.name = some (numberedAt tab) := by
  have names : (listWorksheetCatalog generated).map CatalogEntry.name = sheets.map Tab.name := by
    have known : sheets = (placed sheets).map Prod.fst := (zipIdx_map_fst 1 sheets).symm
    rw [made.catalog,map_map]
    conv_rhs => rw [known,map_map]
    exact map_congr_left (fun other inside => escapeXml_plain (plain _ (placed_sheet inside)))
  have inside : numberedAt tab ∈ listWorksheetCatalog generated := by
    rw [made.catalog]
    exact mem_map_of_mem member
  have own : (numberedAt tab).name = tab.1.name := escapeXml_plain (plain _ (placed_sheet member))
  rw [← own]
  exact keyed_get CatalogEntry.name (names ▸ distinct) inside

theorem choose_new (source : Entries) (member : tab ∈ placed sheets) (new : origin tab.1 = (none,none,none)) :
    choose (listWorksheetCatalog source) (listWorksheetCatalog generated) tab.1 = some (.added (numberedAt tab)) := by
  have none_ : tab.1.sourceSheetId = none := congrArg Prod.fst new
  simp [choose,none_,generated_get distinct made plain member]

omit distinct made plain in
theorem choose_kept (catalog : List CatalogEntry) (formed : WellFormed source) (known : entry ∈ listWorksheetCatalog source)
    (whole : origin sheet = (some entry.sheetId,some entry.relId,some entry.sheetPath)) :
    choose (listWorksheetCatalog source) catalog sheet = some (.kept entry) := by
  have some_ : sheet.sourceSheetId = some entry.sheetId := congrArg Prod.fst whole
  have filtered : (some entry.sheetId).filter (fun sheetId => decide (sheetId ≠ [])) = some entry.sheetId :=
    Option.filter_eq_some_iff.mpr ⟨rfl,decide_eq_true (formed.filled entry known)⟩
  rw [choose,some_,filtered,Option.bind_some,keyed_get CatalogEntry.sheetId formed.sheetIds known]

include descended

section
variable (formed : WellFormed source)
include formed

theorem chosenTag_row (member : tab ∈ placed sheets) :
    chosenTag (listWorksheetCatalog source) (listWorksheetCatalog generated) tab.1 = some (tagOf (row tab)) := by
  rcases descended.traced_tab (placed_sheet member) with new | ⟨entry,known,whole⟩
  · have chosen := choose_new distinct made plain source member new
    simp only [origin,Prod.mk.injEq] at new
    simp [chosenTag,chosen,Choice.entry,tagOf,row,new,numberedAt]
  · have chosen := choose_kept (listWorksheetCatalog generated) formed known whole
    simp only [origin,Prod.mk.injEq] at whole
    simp [chosenTag,chosen,Choice.entry,tagOf,row,whole]

theorem chosenNew_row (member : tab ∈ placed sheets) :
    chosenNew (listWorksheetCatalog source) (listWorksheetCatalog generated) tab.1 =
      if tab.1.sourceSheetId = none then some (numberedAt tab) else none := by
  rcases descended.traced_tab (placed_sheet member) with new | ⟨entry,known,whole⟩
  · have chosen := choose_new distinct made plain source member new
    simp only [origin,Prod.mk.injEq] at new
    simp [chosenNew,chosen,new]
  · have chosen := choose_kept (listWorksheetCatalog generated) formed known whole
    simp only [origin,Prod.mk.injEq] at whole
    simp [chosenNew,chosen,whole]

theorem chosen_tags : sheets.filterMap (chosenTag (listWorksheetCatalog source) (listWorksheetCatalog generated)) =
    (placed sheets).map (fun tab => tagOf (row tab)) := by
  rw [filterMap_placed,filterMap_congr (fun tab member => chosenTag_row descended distinct made plain formed member)]
  exact congrFun filterMap_eq_map' _

theorem chosen_new : sheets.filterMap (chosenNew (listWorksheetCatalog source) (listWorksheetCatalog generated)) =
    (added sheets).map numberedAt := by
  rw [filterMap_placed,filterMap_congr (fun tab member => chosenNew_row descended distinct made plain formed member)]
  rw [added,← filterMap_eq_map,filterMap_filter]
  simp

end

end chosen

end Ownly.Sheets.Xlsx
