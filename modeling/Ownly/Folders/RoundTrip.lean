import Ownly.Folders.RecycleBin

-- A folder that is deleted and restored at once: what is active again afterwards.
namespace Ownly.Folders
open Option

structure SameActivity (before after : Tree) : Prop where
  folders : ∀ id, (after.folders.get id).map (fun row => decide row.Active) = (before.folders.get id).map (fun row => decide row.Active)
  files : ∀ id, (after.files.get id).map (fun row => decide row.Active) = (before.files.get id).map (fun row => decide row.Active)

def deleteAndRestore (now : Int) (userId folderId : String) (tree : Tree) : Option Tree :=
  (softDeleteOwnedFolder now userId folderId tree).bind (fun deleted =>
    (restoreRecycleBinItems userId [] [folderId] deleted.2).map (·.2))

def Emptied (tree : Tree) (userId folderId : String) : String → Prop :=
  Subtree tree.folders (fun row => decide (row.userId = userId ∧ row.Active)) folderId

structure Undoable (tree : Tree) (userId folderId : String) (row : FolderRow) : Prop where
  place : ∀ parentId, row.parentId = some parentId → (ownActive tree.folders userId parentId).isSome = true
  alone : ∀ parentId other sibling, row.parentId = some parentId → tree.folders.get other = some sibling → other ≠ folderId →
    sibling.userId = userId → sibling.parentId = some parentId → sibling.name = row.name → ¬sibling.Active
  folders : ∀ id child parentId, tree.folders.get id = some child → child.userId = userId → child.parentId = some parentId →
    Emptied tree userId folderId parentId → child.Active
  files : ∀ id file parentId, tree.files.get id = some file → file.userId = userId → file.folderId = some parentId →
    Emptied tree userId folderId parentId → file.Active

section RoundTrip
variable {tree : Tree} {now : Int} {userId folderId id : String} {row : FolderRow} {folderIds restored : List String}

theorem emptied_row (present : tree.folders.get folderId = some row) (owned : row.userId = userId) (active : row.Active)
    (inside : Emptied tree userId folderId id) : ∃ found, tree.folders.get id = some found ∧ found.userId = userId ∧ found.Active := by
  refine Subtree.rec_down (motive := fun id => ∃ found, tree.folders.get id = some found ∧ found.userId = userId ∧ found.Active)
    ⟨row,present,owned,active⟩ ?_ inside
  intro _ child _ under
  obtain ⟨found,there,_,kept⟩ := childrenWhere_mem.mp under
  exact ⟨found,there,of_decide_eq_true kept⟩

theorem parent_outside {parentId : String} (forest : Forest tree.folders) (present : tree.folders.get folderId = some row)
    (linked : row.parentId = some parentId) : ¬Emptied tree userId folderId parentId :=
  fun inside => forest folderId parentId ((parent_eq present).trans linked) inside.reaches

theorem sibling_outside {parentId other : String} {sibling : FolderRow} (forest : Forest tree.folders)
    (present : tree.folders.get folderId = some row) (linked : row.parentId = some parentId) (there : tree.folders.get other = some sibling)
    (beside : sibling.parentId = some parentId) (ne : other ≠ folderId) : ¬Emptied tree userId folderId other := by
  intro inside
  rcases Ancestry.reaches_iff.mp inside.reaches with same | ⟨above,up,rest⟩
  · exact ne same
  · rw [parent_eq there,beside] at up
    cases up
    exact forest folderId parentId ((parent_eq present).trans linked) rest

variable (marks : ∀ id, id ∈ folderIds ↔ Emptied tree userId folderId id)
include marks

theorem trashed_inside (inside : Emptied tree userId folderId id) {found : FolderRow} (there : tree.folders.get id = some found)
    (owned : found.userId = userId) (active : found.Active) :
    (trashAll now userId folderIds tree).folders.get id = some {found with deletedAt := some now} := by
  rw [trashAll_folder,there,map_some,trashFolder,if_pos ⟨(marks id).mpr inside,owned,active⟩]

theorem trashed_outside (outside : ¬Emptied tree userId folderId id) :
    (trashAll now userId folderIds tree).folders.get id = tree.folders.get id := by
  rw [trashAll_folder]
  cases tree.folders.get id with
  | none => rfl
  | some found => rw [map_some,trashFolder,if_neg (fun all => outside ((marks id).mp all.1))]

def Reached (tree : Tree) (userId folderId : String) : String → Prop :=
  Subtree tree.folders (fun row => decide (row.userId = userId ∧ ¬row.Active)) folderId

theorem emptied_reached (inside : Emptied tree userId folderId id) : Reached (trashAll now userId folderIds tree) userId folderId id := by
  refine (Subtree.rec_down (motive := fun id => Emptied tree userId folderId id ∧
    Reached (trashAll now userId folderIds tree) userId folderId id) ⟨.inl rfl,.inl rfl⟩ ?_ inside).2
  rintro above child ⟨before,after⟩ under
  have here := Subtree.step before under
  obtain ⟨found,there,linked,kept⟩ := childrenWhere_mem.mp under
  obtain ⟨mine,yes⟩ := of_decide_eq_true kept
  refine ⟨here,Subtree.step after (childrenWhere_mem.mpr ⟨_,trashed_inside marks here there mine yes,linked,?_⟩)⟩
  exact decide_eq_true ⟨mine,fun none => by cases none⟩

theorem reached_emptied
    (quiet : ∀ id child parentId, tree.folders.get id = some child → child.userId = userId → child.parentId = some parentId →
      Emptied tree userId folderId parentId → child.Active)
    (reached : Reached (trashAll now userId folderIds tree) userId folderId id) : Emptied tree userId folderId id := by
  refine Subtree.rec_down (motive := Emptied tree userId folderId) (.inl rfl) ?_ reached
  intro above child inside under
  by_contra outside
  obtain ⟨found,there,linked,kept⟩ := childrenWhere_mem.mp under
  obtain ⟨mine,trashed⟩ := of_decide_eq_true kept
  rw [trashed_outside marks outside] at there
  exact trashed (quiet child found above there mine linked inside)

theorem checkParent_iff (now : Int) (forest : Forest tree.folders) (present : tree.folders.get folderId = some row) (owned : row.userId = userId)
    (active : row.Active) :
    checkParent (trashAll now userId folderIds tree).folders userId {row with deletedAt := some now} = .ok () ↔
      (∀ parentId, row.parentId = some parentId → (ownActive tree.folders userId parentId).isSome = true) ∧
      (∀ parentId other sibling, row.parentId = some parentId → tree.folders.get other = some sibling → other ≠ folderId →
        sibling.userId = userId → sibling.parentId = some parentId → sibling.name = row.name → ¬sibling.Active) := by
  unfold checkParent
  dsimp only
  cases linked : row.parentId with
  | none => simp
  | some parentId =>
    have above : ownActive (trashAll now userId folderIds tree).folders userId parentId = ownActive tree.folders userId parentId := by
      unfold ownActive
      rw [trashed_outside marks (parent_outside forest present linked)]
    have alone : nameConflict (trashAll now userId folderIds tree).folders userId parentId row.name = false ↔
        ∀ other sibling, tree.folders.get other = some sibling → other ≠ folderId → sibling.userId = userId →
          sibling.parentId = some parentId → sibling.name = row.name → ¬sibling.Active := by
      rw [← Bool.not_eq_true,nameConflict,KeyMap.any_iff]
      simp only [decide_eq_true_eq]
      constructor
      · intro free other sibling there ne mine beside named yes
        refine free ⟨other,sibling,?_,mine,beside,named,yes⟩
        rw [trashed_outside marks (sibling_outside forest present linked there beside ne)]
        exact there
      · rintro free ⟨other,sibling,there,mine,beside,named,yes⟩
        by_cases inside : Emptied tree userId folderId other
        · obtain ⟨found,before,owns,was⟩ := emptied_row present owned active inside
          rw [trashed_inside marks inside before owns was] at there
          cases there
          cases yes
        · have ne : other ≠ folderId := fun same => inside (.inl same)
          rw [trashed_outside marks inside] at there
          exact free other sibling there ne mine beside named yes
    dsimp only
    rw [above]
    cases own : ownActive tree.folders userId parentId with
    | none => simp [own]
    | some found =>
      cases taken : nameConflict (trashAll now userId folderIds tree).folders userId parentId row.name with
      | false =>
        have free := alone.mp taken
        simp only [isNone_some,Bool.false_eq_true,if_false,Option.some.injEq,true_iff]
        refine ⟨?_,?_⟩
        · rintro _ rfl
          rw [own]
          rfl
        · rintro _ other sibling rfl
          exact free other sibling
      | true =>
        simp only [isNone_some,Bool.false_eq_true,if_false,if_true,reduceCtorEq,false_iff,not_and,Option.some.injEq]
        intro _ free
        have clear := alone.mpr (fun other sibling => free parentId other sibling rfl)
        rw [taken] at clear
        cases clear

section
variable (present : tree.folders.get folderId = some row) (owned : row.userId = userId) (active : row.Active)
include present owned active

theorem quiet_back
    (quiet : Undoable tree userId folderId row)
    (reach : ∀ id, id ∈ restored ↔ Reached (trashAll now userId folderIds tree) userId folderId id) :
    SameActivity tree (untrashAll userId restored (trashAll now userId folderIds tree)) := by
  have same : ∀ id, id ∈ restored ↔ Emptied tree userId folderId id := by
    intro id
    rw [reach id]
    exact ⟨reached_emptied marks quiet.folders,emptied_reached marks⟩
  refine ⟨?_,?_⟩
  · intro id
    rw [untrashAll_folder]
    by_cases inside : Emptied tree userId folderId id
    · obtain ⟨found,there,mine,was⟩ := emptied_row present owned active inside
      rw [trashed_inside marks inside there mine was,there,map_some,untrashFolder,if_pos ⟨(same id).mpr inside,mine⟩]
      have yes : found.deletedAt = none := was
      simp [FolderRow.Active,yes]
    · rw [trashed_outside marks inside]
      cases tree.folders.get id with
      | none => rfl
      | some found => rw [map_some,untrashFolder,if_neg (fun all => inside ((same id).mp all.1))]
  · intro id
    rw [untrashAll_file,trashAll_file]
    cases there : tree.files.get id with
    | none => rfl
    | some file =>
      simp only [map_some,Option.some.injEq]
      have covered : inFolders restored file ↔ inFolders folderIds file := by
        unfold inFolders
        simp only [same,marks]
      by_cases hit : file.userId = userId ∧ inFolders folderIds file
      · obtain ⟨mine,parentId,placed,listed⟩ := hit
        have yes : file.Active := quiet.files id file parentId there mine placed ((marks parentId).mp listed)
        have marked : inFolders restored {file with deletedAt := some now} := covered.mpr ⟨parentId,placed,listed⟩
        rw [trashFile,if_pos ⟨mine,⟨parentId,placed,listed⟩,yes⟩,untrashFile,if_pos ⟨mine,marked,fun none => by cases none⟩]
        have was : file.deletedAt = none := yes
        simp [FileRow.Active,was]
      · have left : trashFile now userId folderIds file = file := by
          rw [trashFile,if_neg (fun all => hit ⟨all.1,all.2.1⟩)]
        rw [left,untrashFile,if_neg (fun all => hit ⟨all.1,covered.mp all.2.1⟩)]

theorem back_quiet
    (reach : ∀ id, id ∈ restored ↔ Reached (trashAll now userId folderIds tree) userId folderId id)
    (same : SameActivity tree (untrashAll userId restored (trashAll now userId folderIds tree))) :
    (∀ id child parentId, tree.folders.get id = some child → child.userId = userId → child.parentId = some parentId →
      Emptied tree userId folderId parentId → child.Active) ∧
    (∀ id file parentId, tree.files.get id = some file → file.userId = userId → file.folderId = some parentId →
      Emptied tree userId folderId parentId → file.Active) := by
  refine ⟨?_,?_⟩
  · intro id child parentId there mine linked inside
    by_contra trashed
    have outside : ¬Emptied tree userId folderId id := by
      intro emptied
      obtain ⟨found,before,_,was⟩ := emptied_row present owned active emptied
      rw [there] at before
      cases before
      exact trashed was
    have still : (trashAll now userId folderIds tree).folders.get id = tree.folders.get id := trashed_outside marks outside
    have listed : id ∈ restored := by
      refine (reach id).mpr (Subtree.step (emptied_reached marks inside) (childrenWhere_mem.mpr ⟨child,?_,linked,?_⟩))
      · rw [still,there]
      · exact decide_eq_true ⟨mine,trashed⟩
    have equal := same.folders id
    rw [untrashAll_folder,still,there,map_some,untrashFolder,if_pos ⟨listed,mine⟩] at equal
    simp only [map_some,Option.some.injEq,decide_eq_decide] at equal
    exact trashed (equal.mp rfl)
  · intro id file parentId there mine placed inside
    by_contra trashed
    have listed : parentId ∈ restored := (reach parentId).mpr (emptied_reached marks inside)
    have equal := same.files id
    have left : trashFile now userId folderIds file = file := by
      rw [trashFile,if_neg (fun all => trashed all.2.2)]
    rw [untrashAll_file,trashAll_file,there,map_some,left,map_some,untrashFile,
      if_pos ⟨mine,⟨parentId,placed,listed⟩,trashed⟩] at equal
    simp only [map_some,Option.some.injEq,decide_eq_decide] at equal
    exact trashed (equal.mp rfl)

end

omit marks

theorem restore_one (found : tree.folders.get folderId = some row) (owned : row.userId = userId) (trashed : ¬row.Active)
    (forest : Forest tree.folders) :
    (∃ refused, checkParent tree.folders userId row = .error refused ∧
      restoreRecycleBinItems userId [] [folderId] tree = some (.error refused,tree)) ∨
    (checkParent tree.folders userId row = .ok () ∧ ∃ restored, (∀ id, id ∈ restored ↔ Reached tree userId folderId id) ∧
      restoreRecycleBinItems userId [] [folderId] tree = some (.ok (0,1),untrashAll userId restored tree)) := by
  have kept : (tree.folders.get folderId).filter (fun row => decide (row.userId = userId)) = some row := by
    rw [filter_eq_some_iff,decide_eq_true_eq]
    exact ⟨found,owned⟩
  obtain ⟨restored,ended⟩ : ∃ restored, subtreeWalk (trashedChildrenOf tree.folders userId) tree.folders folderId = some restored :=
    subtreeWalk_ends forest (by rw [found]; rfl)
  cases checked : checkParent tree.folders userId row with
  | error refused =>
    refine .inl ⟨refused,rfl,?_⟩
    simp only [restoreRecycleBinItems,restoreFiles,restoreFolders,restoreFolder,kept,trashed,checked]
    rfl
  | ok _ =>
    refine .inr ⟨rfl,restored,fun _ => subtreeWalk_mem ended,?_⟩
    simp only [restoreRecycleBinItems,restoreFiles,restoreFolders,restoreFolder,kept,trashed,checked,ended]
    rfl

theorem delete_active (present : tree.folders.get folderId = some row) (owned : row.userId = userId) (active : row.Active)
    (forest : Forest tree.folders) : ∃ folderIds, (∀ id, id ∈ folderIds ↔ Emptied tree userId folderId id) ∧
      softDeleteOwnedFolder now userId folderId tree = some (.ok row.name,trashAll now userId folderIds tree) := by
  have kept : (tree.folders.get folderId).filter (fun row => decide (row.userId = userId)) = some row := by
    rw [filter_eq_some_iff,decide_eq_true_eq]
    exact ⟨present,owned⟩
  obtain ⟨folderIds,ended⟩ : ∃ folderIds, subtreeWalk (activeChildrenOf tree.folders userId) tree.folders folderId = some folderIds :=
    subtreeWalk_ends forest (by rw [present]; rfl)
  refine ⟨folderIds,fun _ => subtreeWalk_mem ended,?_⟩
  simp only [softDeleteOwnedFolder,kept,active,not_true_eq_false,if_false,ended]
  rfl

theorem delete_restore_undone (tree : Tree) (now : Int) (userId folderId : String) (row : FolderRow) (forest : Forest tree.folders)
    (present : tree.folders.get folderId = some row) (owned : row.userId = userId) (active : row.Active) :
    (∃ after, deleteAndRestore now userId folderId tree = some after ∧ SameActivity tree after) ↔ Undoable tree userId folderId row := by
  obtain ⟨folderIds,marks,deleted⟩ : ∃ folderIds, (∀ id, id ∈ folderIds ↔ Emptied tree userId folderId id) ∧
      softDeleteOwnedFolder now userId folderId tree = some (.ok row.name,trashAll now userId folderIds tree) :=
    delete_active present owned active forest
  have trashed : (trashAll now userId folderIds tree).folders.get folderId = some {row with deletedAt := some now} :=
    trashed_inside marks (.inl rfl) present owned active
  have still : Forest (trashAll now userId folderIds tree).folders := by
    unfold Forest
    rw [trashAll_parent]
    exact forest
  have checked := checkParent_iff marks now forest present owned active
  unfold deleteAndRestore
  rw [deleted]
  dsimp only [bind_some]
  rcases restore_one trashed owned (fun none => by cases none) still with ⟨refused,refusal,answer⟩ | ⟨passed,restored,reach,answer⟩
  · rw [answer]
    refine iff_of_false ?_ ?_
    · rintro ⟨_,⟨⟩,same⟩
      have equal := same.folders folderId
      rw [trashed,present] at equal
      simp only [map_some,Option.some.injEq,decide_eq_decide] at equal
      cases equal.mpr active
    · intro undoable
      rw [checked.mpr ⟨undoable.place,undoable.alone⟩] at refusal
      cases refusal
  · rw [answer]
    constructor
    · rintro ⟨_,⟨⟩,same⟩
      obtain ⟨folders,files⟩ := back_quiet marks present owned active reach same
      obtain ⟨place,alone⟩ := checked.mp passed
      exact ⟨place,alone,folders,files⟩
    · intro undoable
      exact ⟨_,rfl,quiet_back marks present owned active undoable reach⟩

end RoundTrip

section EarlierDeletion

def folderDocs : FolderRow := ⟨"ann",none,"docs",none⟩

def docsWithDrafts (deletedAt : Option Int) : Tree :=
  ⟨(KeyMap.empty.set "docs" folderDocs).set "drafts" ⟨"ann",some "docs","drafts",deletedAt⟩,
    KeyMap.empty.set "report" ⟨"ann",some "docs",none⟩⟩

theorem drafts_forest {deletedAt : Option Int} (listed : deletedAt ∈ [none,some 5]) : Forest (docsWithDrafts deletedAt).folders := by
  have falls : ∀ deletedAt ∈ [none,some 5], ∀ entry ∈ (docsWithDrafts deletedAt).folders.entries,
      ∀ above ∈ entry.2.parentId.toList, above.length < entry.1.length := by decide +kernel
  exact forest_of_rank (falls deletedAt listed)

theorem delete_restore_undone_docs : (∃ after, deleteAndRestore 7 "ann" "docs" (docsWithDrafts none) = some after ∧
    SameActivity (docsWithDrafts none) after) ↔ Undoable (docsWithDrafts none) "ann" "docs" folderDocs :=
  delete_restore_undone (docsWithDrafts none) 7 "ann" "docs" folderDocs (drafts_forest (by decide)) (by decide +kernel) rfl rfl

theorem delete_restore_revives : Forest (docsWithDrafts (some 5)).folders ∧ (docsWithDrafts (some 5)).folders.get "docs" = some folderDocs ∧
    folderDocs.userId = "ann" ∧ folderDocs.Active ∧ ∃ after, deleteAndRestore 7 "ann" "docs" (docsWithDrafts (some 5)) = some after ∧
      activeFolder (docsWithDrafts (some 5)).folders "drafts" = false ∧ activeFolder after.folders "drafts" = true ∧
      ¬SameActivity (docsWithDrafts (some 5)) after := by
  refine ⟨drafts_forest (by decide),by decide +kernel,rfl,rfl,_,rfl,by decide +kernel,by decide +kernel,?_⟩
  intro same
  exact absurd (same.folders "drafts") (by decide +kernel)

end EarlierDeletion

end Ownly.Folders
