import Ownly.Folders.RecycleBin
import Ownly.Lib.Schedule

-- Whether anything active lies under a folder in the recycle bin, over runs of calls by
-- users with any grants on each other's folders.
namespace Ownly.Folders
open Option KeyMap

inductive Call where
  | createFolder (caller : Caller) (folderId : String) (parentId : Option String) (name : String)
  | uploadFile (caller : Caller) (fileId : String) (folderId : Option String)
  | moveFile (caller : Caller) (fileId : String) (folderId : Option String)
  | copyFile (caller : Caller) (fileId newFileId : String) (folderId : Option String)
  | moveFolderInPlace (caller : Caller) (folderId : String) (targetParentId : Option String)
  | softDeleteFile (caller : Caller) (fileId : String)
  | softDeleteOwnedFolder (now : Int) (userId folderId : String)
  | restoreRecycleBinItems (userId : String) (fileIds folderIds : List String)
  | purgeUserRecycleBin (userId : String) (kept : List String)

def step (lower : String → String) (tree : Tree) : Call → Option Tree
  | .createFolder caller folderId parentId name => some (createFolder caller folderId parentId name tree).2
  | .uploadFile caller fileId folderId => some (uploadFile caller fileId folderId tree).2
  | .moveFile caller fileId folderId => some (moveFile caller fileId folderId tree).2
  | .copyFile caller fileId newFileId folderId => some (copyFile caller fileId newFileId folderId tree).2
  | .moveFolderInPlace caller folderId target => (moveFolderInPlace lower caller folderId target tree).map (·.2)
  | .softDeleteFile caller fileId => some (softDeleteFile caller fileId tree).2
  | .softDeleteOwnedFolder now userId folderId => (softDeleteOwnedFolder now userId folderId tree).map (·.2)
  | .restoreRecycleBinItems userId fileIds folderIds => (restoreRecycleBinItems userId fileIds folderIds tree).map (·.2)
  | .purgeUserRecycleBin userId kept => some (purgeUserRecycleBin userId kept tree)

structure OnlyActiveAbove (tree : Tree) : Prop where
  folders : ∀ id row above found, tree.folders.get id = some row → row.Active → Ancestry.Reaches (parent tree.folders) id above →
    tree.folders.get above = some found → found.Active
  files : ∀ id file folderId above found, tree.files.get id = some file → file.Active → file.folderId = some folderId →
    Ancestry.Reaches (parent tree.folders) folderId above → tree.folders.get above = some found → found.Active

def NoGuests (tree : Tree) : Call → Prop
  | .softDeleteOwnedFolder _ userId folderId => ∀ row, tree.folders.get folderId = some row → row.userId = userId → row.Active →
      (∀ id below, tree.folders.get id = some below → below.Active → Ancestry.Reaches (parent tree.folders) id folderId →
        below.userId = userId) ∧
      (∀ id file inside, tree.files.get id = some file → file.Active → file.folderId = some inside →
        Ancestry.Reaches (parent tree.folders) inside folderId → file.userId = userId)
  | _ => True

structure ParentsActive (tree : Tree) : Prop where
  folders : ∀ id row above found, tree.folders.get id = some row → row.Active → row.parentId = some above →
    tree.folders.get above = some found → found.Active
  files : ∀ id file above found, tree.files.get id = some file → file.Active → file.folderId = some above →
    tree.folders.get above = some found → found.Active

variable {found : FolderRow}

section Rows
variable {tree next : Tree} {userId folderId id fileId : String} {row : FolderRow} {file : FileRow} {now : Int} {folderIds : List String}

theorem ParentsActive.above (local_ : ParentsActive tree) {above : String} (present : tree.folders.get id = some row)
    (active : row.Active) (reaches : Ancestry.Reaches (parent tree.folders) id above) (there : tree.folders.get above = some found) :
    found.Active := by
  obtain ⟨k,climbed⟩ := reaches
  induction k generalizing id row with
  | zero =>
    cases climbed
    rw [present] at there
    cases there
    exact active
  | succ k ih =>
    obtain ⟨next,up,rest⟩ := bind_eq_some_iff.mp climbed
    rw [parent_eq present] at up
    cases held : tree.folders.get next with
    | some nextRow => exact ih held (local_.folders id row next nextRow present active up held) rest
    | none =>
      cases k with
      | zero =>
        cases rest
        rw [held] at there
        cases there
      | succ k =>
        obtain ⟨_,link,_⟩ := bind_eq_some_iff.mp rest
        obtain ⟨_,some_,_⟩ := parent_some link
        rw [held] at some_
        cases some_

theorem onlyActiveAbove_iff : OnlyActiveAbove tree ↔ ParentsActive tree := by
  constructor
  · rintro ⟨folders,files⟩
    refine ⟨?_,?_⟩
    · intro id row above found present active linked there
      have up : parent tree.folders id = some above := (parent_eq present).trans linked
      exact folders id row above found present active ((Ancestry.reaches_refl _ above).head up) there
    · intro id file above found present active placed there
      exact files id file above above found present active placed (Ancestry.reaches_refl _ above) there
  · intro local_
    refine ⟨fun id row above found present active reaches there => local_.above present active reaches there,?_⟩
    intro id file folderId above found present active placed reaches there
    cases held : tree.folders.get folderId with
    | some inner => exact local_.above held (local_.files id file folderId inner present active placed held) reaches there
    | none =>
      rcases Ancestry.reaches_iff.mp reaches with rfl | ⟨_,link,_⟩
      · rw [held] at there
        cases there
      · obtain ⟨_,some_,_⟩ := parent_some link
        rw [held] at some_
        cases some_

theorem ParentsActive.set_folder (local_ : ParentsActive tree) (active : row.Active)
    (place : ∀ above, row.parentId = some above → activeFolder tree.folders above = true) :
    ParentsActive {tree with folders := tree.folders.set folderId row} := by
  refine ⟨?_,?_⟩
  · intro id other above found present yes linked there
    dsimp only at present there
    rw [get_set] at present there
    split at there
    · cases there
      exact active
    · split at present
      · cases present
        obtain ⟨placed,same,holds⟩ := activeFolder_iff.mp (place above linked)
        rw [there] at same
        cases same
        exact holds
      · exact local_.folders id other above found present yes linked there
  · intro id other above found present yes placed there
    dsimp only at there
    rw [get_set] at there
    split at there
    · cases there
      exact active
    · exact local_.files id other above found present yes placed there

theorem ParentsActive.set_file (local_ : ParentsActive tree)
    (place : file.Active → ∀ above, file.folderId = some above → activeFolder tree.folders above = true) :
    ParentsActive {tree with files := tree.files.set fileId file} := by
  refine ⟨local_.folders,?_⟩
  intro id other above found present yes placed there
  dsimp only at present there
  rw [get_set] at present
  split at present
  · cases present
    obtain ⟨held,same,holds⟩ := activeFolder_iff.mp (place yes above placed)
    rw [there] at same
    cases same
    exact holds
  · exact local_.files id other above found present yes placed there

theorem ParentsActive.fewer (local_ : ParentsActive tree)
    (folders : ∀ id row, next.folders.get id = some row → tree.folders.get id = some row)
    (files : ∀ id file, next.files.get id = some file → file.folderId = none ∨
      ∃ old, tree.files.get id = some old ∧ old.folderId = file.folderId ∧ (file.Active → old.Active)) : ParentsActive next := by
  refine ⟨?_,?_⟩
  · intro id row above found present active linked there
    exact local_.folders id row above found (folders id row present) active linked (folders above found there)
  · intro id file above found present active placed there
    rcases files id file present with root | ⟨old,before,same,was⟩
    · rw [root] at placed
      cases placed
    · exact local_.files id old above found before (was active) (same.trans placed) (folders above found there)

end Rows

section Calls
variable {lower : String → String} {caller : Caller} {tree next : Tree} {call : Call} {userId folderId id fileId newFileId : String}
  {parentId target : Option String} {rawName : String} {now : Int} {folderIds fileIds restored kept : List String} {row : FolderRow}

section
variable (local_ : ParentsActive tree)
include local_

theorem createFolder_keeps : ParentsActive (createFolder caller folderId parentId rawName tree).2 := by
  have made : Created caller folderId parentId rawName tree (createFolder caller folderId parentId rawName tree) := createFolder_created
  generalize createFolder caller folderId parentId rawName tree = outcome at made ⊢
  cases made with
  | refused => exact local_
  | created name _ granted _ _ => exact local_.set_folder rfl (targetAccess_active granted)

theorem moveFolder_keeps (moved : (moveFolderInPlace lower caller folderId target tree).map (·.2) = some next) :
    ParentsActive next := by
  obtain ⟨outcome,returned,rfl⟩ := map_eq_some_iff.mp moved
  cases moveFolderInPlace_moved returned with
  | refused => exact local_
  | moved row found checked _ _ =>
    exact local_.set_folder (ownActive_row found).2.2 (fun above placed => (checkTarget_active checked above placed).2)

theorem insertFile_keeps {file : FileRow}
    (place : ∀ above, file.folderId = some above → activeFolder tree.folders above = true) :
    ParentsActive (insertFile fileId file tree).2 := by
  unfold insertFile
  split
  · exact local_
  · exact local_.set_file (fun _ => place)

theorem uploadFile_keeps : ParentsActive (uploadFile caller fileId target tree).2 := by
  unfold uploadFile
  split
  · exact local_
  · rename_i granted
    exact insertFile_keeps local_ (targetAccess_active granted)

theorem copyFile_keeps : ParentsActive (copyFile caller fileId newFileId target tree).2 := by
  unfold copyFile
  split
  · exact local_
  · split
    · exact local_
    · rename_i granted
      exact insertFile_keeps local_ (targetAccess_active granted)

theorem moveFile_keeps : ParentsActive (moveFile caller fileId target tree).2 := by
  unfold moveFile
  split
  · exact local_
  · split
    · exact local_
    · split
      · exact local_
      · split
        · exact local_
        · rename_i granted
          exact local_.set_file (fun _ => targetAccess_active granted)

theorem softDeleteFile_keeps : ParentsActive (softDeleteFile caller fileId tree).2 := by
  unfold softDeleteFile
  split
  · exact local_
  · refine local_.fewer (fun _ _ present => present) ?_
    intro id file present
    dsimp only at present
    rw [KeyMap.modify,get_mapEntries] at present
    obtain ⟨old,before,rfl⟩ := map_eq_some_iff.mp present
    refine .inr ⟨old,before,?_⟩
    split
    · split
      · exact ⟨rfl,fun none => by cases none⟩
      · exact ⟨rfl,fun active => active⟩
    · exact ⟨rfl,fun active => active⟩

theorem restoreFile_keeps : ParentsActive (restoreFile userId fileId tree).2 := by
  unfold restoreFile
  split
  · exact local_
  · rename_i row found
    split
    · exact local_
    · split
      · exact local_
      · rename_i placed
        refine local_.set_file ?_
        intro _ above inside
        dsimp only at inside
        rw [inside,any_some] at placed
        cases own : ownActive tree.folders userId above with
        | none =>
          rw [own] at placed
          exact absurd rfl placed
        | some parent =>
          obtain ⟨there,_,active⟩ := ownActive_row own
          exact activeFolder_iff.mpr ⟨parent,there,active⟩

theorem restoreFiles_keeps {n : Nat} : ParentsActive (restoreFiles userId fileIds n tree).2 := by
  induction fileIds generalizing n tree with
  | nil => exact local_
  | cons fileId rest ih =>
    have turn : ParentsActive (restoreFile userId fileId tree).2 := restoreFile_keeps local_
    unfold restoreFiles
    split
    · rename_i made
      rw [made] at turn
      exact turn
    · rename_i made
      rw [made] at turn
      exact ih turn

end

theorem untrashAll_active (active : activeFolder tree.folders id = true) : activeFolder (untrashAll userId folderIds tree).folders id = true := by
  obtain ⟨row,present,yes⟩ := activeFolder_iff.mp active
  refine activeFolder_iff.mpr ⟨_,by rw [untrashAll_folder,present]; rfl,?_⟩
  unfold untrashFolder
  split
  · rfl
  · exact yes

theorem checkParent_active (passed : checkParent tree.folders userId row = .ok ()) :
    ∀ above, row.parentId = some above → activeFolder tree.folders above = true := by
  intro above linked
  unfold checkParent at passed
  rw [linked] at passed
  dsimp only at passed
  cases own : ownActive tree.folders userId above with
  | none =>
    rw [own] at passed
    cases passed
  | some parent =>
    obtain ⟨there,_,active⟩ := ownActive_row own
    exact activeFolder_iff.mpr ⟨parent,there,active⟩

section
variable (local_ : ParentsActive tree)
include local_

theorem untrashAll_keeps (present : tree.folders.get folderId = some row) (owned : row.userId = userId)
    (place : ∀ above, row.parentId = some above → activeFolder tree.folders above = true)
    (reach : ∀ id, id ∈ restored ↔ Subtree tree.folders (fun row => decide (row.userId = userId ∧ ¬row.Active)) folderId id) :
    ParentsActive (untrashAll userId restored tree) := by
  have now_active : ∀ id, id ∈ restored → activeFolder (untrashAll userId restored tree).folders id = true := by
    intro id listed
    have own : ∃ found, tree.folders.get id = some found ∧ found.userId = userId := by
      refine Subtree.rec_down (motive := fun id => ∃ found, tree.folders.get id = some found ∧ found.userId = userId)
        ⟨row,present,owned⟩ ?_ ((reach id).mp listed)
      intro _ child _ under
      obtain ⟨found,there,_,kept⟩ := childrenWhere_mem.mp under
      exact ⟨found,there,(of_decide_eq_true kept).1⟩
    obtain ⟨found,there,mine⟩ := own
    refine activeFolder_iff.mpr ⟨_,by rw [untrashAll_folder,there]; rfl,?_⟩
    rw [untrashFolder,if_pos ⟨listed,mine⟩]
    rfl
  have read : ∀ above found, activeFolder (untrashAll userId restored tree).folders above = true →
      (untrashAll userId restored tree).folders.get above = some found → found.Active := by
    intro above found active there
    obtain ⟨held,same,yes⟩ := activeFolder_iff.mp active
    rw [there] at same
    cases same
    exact yes
  refine ⟨?_,?_⟩
  · intro id after above found there active linked above_there
    rw [untrashAll_folder] at there
    obtain ⟨before,was,rfl⟩ := map_eq_some_iff.mp there
    rw [untrashFolder_parent] at linked
    refine read above found ?_ above_there
    by_cases listed : id ∈ restored
    · rcases (reach id).mp listed with rfl | path
      · rw [present] at was
        cases was
        exact untrashAll_active (place above linked)
      · obtain ⟨other,back,under⟩ : ∃ other, other ∈ restored ∧ parent tree.folders id = some other := by
          cases path with
          | single under => exact ⟨folderId,(reach folderId).mpr (.inl rfl),childrenWhere_parent under⟩
          | tail first under => exact ⟨_,(reach _).mpr (.inr first),childrenWhere_parent under⟩
        rw [parent_eq was,linked] at under
        cases under
        exact now_active above back
    · rw [untrashFolder,if_neg (fun all => listed all.1)] at active
      rw [untrashAll_folder] at above_there
      obtain ⟨held,earlier,_⟩ := map_eq_some_iff.mp above_there
      exact untrashAll_active (activeFolder_iff.mpr ⟨held,earlier,local_.folders id before above held was active linked earlier⟩)
  · intro id after above found there active placed above_there
    rw [untrashAll_file] at there
    obtain ⟨before,was,rfl⟩ := map_eq_some_iff.mp there
    have inside : before.folderId = some above := by
      unfold untrashFile at placed
      split at placed <;> exact placed
    refine read above found ?_ above_there
    by_cases back : before.userId = userId ∧ inFolders restored before ∧ ¬before.Active
    · obtain ⟨_,⟨held,placed,listed⟩,_⟩ := back
      rw [inside] at placed
      cases placed
      exact now_active above listed
    · rw [untrashFile,if_neg back] at active
      rw [untrashAll_folder] at above_there
      obtain ⟨held,earlier,_⟩ := map_eq_some_iff.mp above_there
      exact untrashAll_active (activeFolder_iff.mpr ⟨held,earlier,local_.files id before above held was active inside earlier⟩)

theorem restoreFolder_keeps {answer : Except AppError Bool × Tree}
    (returned : restoreFolder userId folderId tree = some answer) : ParentsActive answer.2 := by
  unfold restoreFolder at returned
  split at returned
  · cases returned
    exact local_
  · rename_i row kept
    rw [filter_eq_some_iff,decide_eq_true_eq] at kept
    obtain ⟨present,owned⟩ := kept
    split at returned
    · cases returned
      exact local_
    · split at returned
      · cases returned
        exact local_
      · rename_i passed
        obtain ⟨restored,walked,rfl⟩ := map_eq_some_iff.mp returned
        exact untrashAll_keeps local_ present owned (checkParent_active passed) (fun _ => subtreeWalk_mem walked)

theorem restoreFolders_keeps {n : Nat} {answer : Except AppError Nat × Tree}
    (returned : restoreFolders userId folderIds n tree = some answer) : ParentsActive answer.2 := by
  induction folderIds generalizing n tree with
  | nil =>
    cases returned
    exact local_
  | cons folderId rest ih =>
    obtain ⟨turn,made,later⟩ := bind_eq_some_iff.mp returned
    have held := restoreFolder_keeps local_ made
    split at later
    · cases later
      exact held
    · exact ih held later

theorem restoreItems_keeps {answer : Except AppError (Nat × Nat) × Tree}
    (returned : restoreRecycleBinItems userId fileIds folderIds tree = some answer) : ParentsActive answer.2 := by
  have files : ParentsActive (restoreFiles userId fileIds 0 tree).2 := restoreFiles_keeps local_
  unfold restoreRecycleBinItems at returned
  split at returned
  · rename_i made
    rw [made] at files
    cases returned
    exact files
  · rename_i made
    rw [made] at files
    obtain ⟨later,folders,rfl⟩ := map_eq_some_iff.mp returned
    exact restoreFolders_keeps files folders

end

theorem reaches_present {above : String} (present : tree.folders.get folderId = some row)
    (reaches : Ancestry.Reaches (parent tree.folders) above folderId) : ∃ found, tree.folders.get above = some found := by
  rcases Ancestry.reaches_iff.mp reaches with rfl | ⟨_,link,_⟩
  · exact ⟨row,present⟩
  · obtain ⟨found,there,_⟩ := parent_some link
    exact ⟨found,there⟩

section Deletion
variable (present : tree.folders.get folderId = some row) (owned : row.userId = userId) (active : row.Active)
  (walked : subtreeWalk (activeChildrenOf tree.folders userId) tree.folders folderId = some folderIds) {marked : String}
include present owned active walked

theorem walked_own (listed : marked ∈ folderIds) :
    ∃ found, tree.folders.get marked = some found ∧ found.userId = userId ∧ found.Active := by
  refine Subtree.rec_down (motive := fun id => ∃ found, tree.folders.get id = some found ∧ found.userId = userId ∧ found.Active)
    ⟨row,present,owned,active⟩ ?_ ((subtreeWalk_mem walked).mp listed)
  intro _ child _ under
  obtain ⟨found,there,_,kept⟩ := childrenWhere_mem.mp under
  exact ⟨found,there,of_decide_eq_true kept⟩

theorem walked_trashed (listed : marked ∈ folderIds) (there : tree.folders.get marked = some found) :
    ¬(trashFolder now userId folderIds marked found).Active := by
  obtain ⟨_,same,mine,yes⟩ := walked_own present owned active walked listed
  rw [there] at same
  cases same
  rw [trashFolder,if_pos ⟨listed,mine,yes⟩]
  intro none
  cases none

section
variable (local_ : ParentsActive tree) (after : ParentsActive (trashAll now userId folderIds tree))
include local_ after

theorem deletion_covers
    (reaches : Ancestry.Reaches (parent tree.folders) id folderId) :
    ∀ below, tree.folders.get id = some below → below.Active → id ∈ folderIds := by
  refine reaches.rec_up (motive := fun id => ∀ below, tree.folders.get id = some below → below.Active → id ∈ folderIds) ?_ ?_
  · exact fun _ _ _ => (subtreeWalk_mem walked).mpr (.inl rfl)
  · intro id above up rest covered below there yes
    rw [parent_eq there] at up
    obtain ⟨found,held⟩ := reaches_present present rest
    have listed := covered found held (local_.folders id below above found there yes up held)
    by_cases mine : below.userId = userId
    · refine (subtreeWalk_mem walked).mpr (Subtree.step ((subtreeWalk_mem walked).mp listed) (childrenWhere_mem.mpr ⟨below,there,up,?_⟩))
      exact decide_eq_true ⟨mine,yes⟩
    · have kept : (trashAll now userId folderIds tree).folders.get id = some below := by
        rw [trashAll_folder,there,map_some,trashFolder,if_neg (fun all => mine all.2.1)]
      have marked : (trashAll now userId folderIds tree).folders.get above = some (trashFolder now userId folderIds above found) := by
        rw [trashAll_folder,held,map_some]
      exact absurd (after.folders id below above _ kept yes up marked) (walked_trashed present owned active walked listed held)

theorem deletion_strands :
    NoGuests tree (.softDeleteOwnedFolder now userId folderId) := by
  intro other same _ _
  rw [present] at same
  cases same
  refine ⟨?_,?_⟩
  · intro id below there yes reaches
    have listed := deletion_covers present owned active walked local_ after reaches below there yes
    obtain ⟨found,same,mine,_⟩ := walked_own present owned active walked listed
    rw [there] at same
    cases same
    exact mine
  · intro id file inside there yes placed reaches
    by_contra other
    obtain ⟨found,held⟩ := reaches_present present reaches
    have listed := deletion_covers present owned active walked local_ after reaches found held
      (local_.files id file inside found there yes placed held)
    have kept : (trashAll now userId folderIds tree).files.get id = some file := by
      rw [trashAll_file,there,map_some,trashFile,if_neg (fun all => other all.1)]
    have marked : (trashAll now userId folderIds tree).folders.get inside = some (trashFolder now userId folderIds inside found) := by
      rw [trashAll_folder,held,map_some]
    exact walked_trashed present owned active walked listed held (after.files id file inside _ kept yes placed marked)

end

theorem deletion_keeps (local_ : ParentsActive tree) (clear : NoGuests tree (.softDeleteOwnedFolder now userId folderId)) :
    ParentsActive (trashAll now userId folderIds tree) := by
  obtain ⟨folders,files⟩ := clear row present owned active
  have reach : ∀ above, above ∈ folderIds → Ancestry.Reaches (parent tree.folders) above folderId :=
    fun _ listed => ((subtreeWalk_mem walked).mp listed).reaches
  refine ⟨?_,?_⟩
  · intro id after above later there yes linked above_there
    rw [trashAll_folder] at there above_there
    obtain ⟨before,was,rfl⟩ := map_eq_some_iff.mp there
    obtain ⟨earlier,held,rfl⟩ := map_eq_some_iff.mp above_there
    rw [trashFolder_parent] at linked
    have unmarked : ¬(id ∈ folderIds ∧ before.userId = userId ∧ before.Active) := by
      intro all
      rw [trashFolder,if_pos all] at yes
      cases yes
    rw [trashFolder,if_neg unmarked] at yes
    have was_active := local_.folders id before above earlier was yes linked held
    by_cases marked : above ∈ folderIds ∧ earlier.userId = userId ∧ earlier.Active
    · have lower := (reach above marked.1).head ((parent_eq was).trans linked)
      have mine := folders id before was yes lower
      refine absurd ⟨(subtreeWalk_mem walked).mpr (Subtree.step ((subtreeWalk_mem walked).mp marked.1) ?_),mine,yes⟩ unmarked
      exact childrenWhere_mem.mpr ⟨before,was,linked,decide_eq_true ⟨mine,yes⟩⟩
    · rw [trashFolder,if_neg marked]
      exact was_active
  · intro id after above later there yes placed above_there
    rw [trashAll_file] at there
    rw [trashAll_folder] at above_there
    obtain ⟨before,was,rfl⟩ := map_eq_some_iff.mp there
    obtain ⟨earlier,held,rfl⟩ := map_eq_some_iff.mp above_there
    have unmarked : ¬(before.userId = userId ∧ inFolders folderIds before ∧ before.Active) := by
      intro all
      rw [trashFile,if_pos all] at yes
      cases yes
    rw [trashFile,if_neg unmarked] at yes placed
    have was_active := local_.files id before above earlier was yes placed held
    by_cases marked : above ∈ folderIds ∧ earlier.userId = userId ∧ earlier.Active
    · have mine := files id before above was yes placed (reach above marked.1)
      exact absurd ⟨mine,⟨above,placed,marked.1⟩,yes⟩ unmarked
    · rw [trashFolder,if_neg marked]
      exact was_active

end Deletion

section
variable (local_ : ParentsActive tree)
include local_

theorem softDelete_iff (returned : (softDeleteOwnedFolder now userId folderId tree).map (·.2) = some next) :
    ParentsActive next ↔ NoGuests tree (.softDeleteOwnedFolder now userId folderId) := by
  obtain ⟨outcome,made,rfl⟩ := map_eq_some_iff.mp returned
  unfold softDeleteOwnedFolder at made
  split at made
  · rename_i absent
    cases made
    refine iff_of_true local_ ?_
    intro row present owned
    have kept : (tree.folders.get folderId).filter (fun row => decide (row.userId = userId)) = some row := by
      rw [filter_eq_some_iff,decide_eq_true_eq]
      exact ⟨present,owned⟩
    rw [absent] at kept
    cases kept
  · rename_i row kept
    rw [filter_eq_some_iff,decide_eq_true_eq] at kept
    obtain ⟨present,owned⟩ := kept
    split at made
    · rename_i trashed
      cases made
      refine iff_of_true local_ ?_
      intro other same _ yes
      rw [present] at same
      cases same
      exact absurd yes trashed
    · rename_i yes
      obtain ⟨folderIds,walked,rfl⟩ := map_eq_some_iff.mp made
      have active : row.Active := not_not.mp yes
      exact ⟨deletion_strands present owned active walked local_,deletion_keeps present owned active walked local_⟩

theorem deleteFolderRow_keeps : ParentsActive (deleteFolderRow userId tree folderId) := by
  unfold deleteFolderRow
  split
  · refine local_.fewer ?_ ?_
    · intro id row present
      dsimp only at present
      rw [get_retain,filter_eq_some_iff] at present
      exact present.1
    · intro id file present
      dsimp only at present
      rw [get_mapValues] at present
      obtain ⟨old,before,rfl⟩ := map_eq_some_iff.mp present
      split
      · exact .inl rfl
      · exact .inr ⟨old,before,rfl,fun active => active⟩
  · exact local_

theorem purge_keeps : ParentsActive (purgeUserRecycleBin userId kept tree) := by
  unfold purgeUserRecycleBin
  dsimp only
  generalize trashedFolders _ userId = gone
  have files : ParentsActive {tree with files := tree.files.retain (fun id _ =>
      decide (id ∉ (trashedFiles tree userId).filter (fun id => decide (id ∉ kept))))} := by
    refine local_.fewer (fun _ _ present => present) ?_
    intro id file present
    dsimp only at present
    rw [get_retain,filter_eq_some_iff] at present
    exact .inr ⟨file,present.1,rfl,fun active => active⟩
  generalize Tree.mk tree.folders _ = purged at files ⊢
  induction gone generalizing purged with
  | nil => exact files
  | cons folderId rest ih => exact ih _ (deleteFolderRow_keeps files)

theorem step_iff (fired : step lower tree call = some next) : ParentsActive next ↔ NoGuests tree call := by
  cases call with
  | createFolder =>
    cases fired
    exact iff_of_true (createFolder_keeps local_) trivial
  | uploadFile =>
    cases fired
    exact iff_of_true (uploadFile_keeps local_) trivial
  | moveFile =>
    cases fired
    exact iff_of_true (moveFile_keeps local_) trivial
  | copyFile =>
    cases fired
    exact iff_of_true (copyFile_keeps local_) trivial
  | moveFolderInPlace => exact iff_of_true (moveFolder_keeps local_ fired) trivial
  | softDeleteFile =>
    cases fired
    exact iff_of_true (softDeleteFile_keeps local_) trivial
  | softDeleteOwnedFolder => exact softDelete_iff local_ fired
  | restoreRecycleBinItems =>
    obtain ⟨answer,returned,rfl⟩ := map_eq_some_iff.mp fired
    exact iff_of_true (restoreItems_keeps local_ returned) trivial
  | purgeUserRecycleBin =>
    cases fired
    exact iff_of_true (purge_keeps local_) trivial

end

theorem nothing_under_trash (lower : String → String) (start final : Tree) (calls : List Call) (only : OnlyActiveAbove start)
    (ran : Schedule.run (step lower) start calls = some final) :
    (∀ left right reached, calls = left ++ right → Schedule.run (step lower) start left = some reached → OnlyActiveAbove reached) ↔
      Schedule.Along (step lower) NoGuests start calls := by
  have exact_ : ∀ tree call next, True → OnlyActiveAbove tree → step lower tree call = some next →
      True ∧ (OnlyActiveAbove next ↔ NoGuests tree call) :=
    fun _ _ _ _ held fired => ⟨trivial,onlyActiveAbove_iff.trans (step_iff (onlyActiveAbove_iff.mp held) fired)⟩
  exact Schedule.reached_iff_along exact_ trivial only ran

end Calls

section Guest

def projects : FolderRow := ⟨"ann",none,"projects",none⟩

def annsTree : Tree := ⟨KeyMap.empty.set "projects" projects,KeyMap.empty⟩

def bobWrites : Authz.Policy := ⟨KeyMap.empty,KeyMap.empty,[],[],
  KeyMap.empty.set "g1" ⟨.user "bob",.folder "projects","content.write",.allow,some "ann",0,none⟩⟩

theorem annsTree_active : OnlyActiveAbove annsTree := by
  have active : ∀ entry ∈ annsTree.folders.entries, entry.2.Active := by decide +kernel
  have all : ∀ id row, annsTree.folders.get id = some row → row.Active := fun id row present => active _ (get_eq_some.mp present)
  exact ⟨fun _ _ above found _ _ _ there => all above found there,fun _ _ _ above found _ _ _ _ there => all above found there⟩

def annsCalls : List Call :=
  [.createFolder ⟨"ann",bobWrites,0⟩ "own" (some "projects") "own",.softDeleteOwnedFolder 1 "ann" "projects"]

theorem nothing_under_trash_own : ∃ final, Schedule.run (step String.toLower) annsTree annsCalls = some final ∧
    ((∀ left right reached, annsCalls = left ++ right → Schedule.run (step String.toLower) annsTree left = some reached →
      OnlyActiveAbove reached) ↔ Schedule.Along (step String.toLower) NoGuests annsTree annsCalls) := by
  have goes : (Schedule.run (step String.toLower) annsTree annsCalls).isSome = true := by decide +kernel
  obtain ⟨final,ran⟩ := isSome_iff_exists.mp goes
  exact ⟨final,ran,nothing_under_trash String.toLower annsTree final annsCalls annsTree_active ran⟩

def guestCalls : List Call :=
  [.createFolder ⟨"bob",bobWrites,0⟩ "guest" (some "projects") "guest",.softDeleteOwnedFolder 1 "ann" "projects"]

theorem guest_under_trash : OnlyActiveAbove annsTree ∧
    ∃ final, Schedule.run (step String.toLower) annsTree guestCalls = some final ∧ ¬OnlyActiveAbove final := by
  obtain ⟨final,ran,active,trashed,climbed⟩ : ∃ final, Schedule.run (step String.toLower) annsTree guestCalls = some final ∧
      final.folders.get "guest" = some ⟨"bob",some "projects","guest",none⟩ ∧
      final.folders.get "projects" = some {projects with deletedAt := some 1} ∧
      Ancestry.climb (parent final.folders) 1 "guest" = some "projects" := Schedule.reached_of_any (by decide +kernel)
  refine ⟨annsTree_active,final,ran,?_⟩
  intro only
  have still := only.folders "guest" _ "projects" _ active rfl ⟨1,climbed⟩ trashed
  cases still

end Guest

end Ownly.Folders
