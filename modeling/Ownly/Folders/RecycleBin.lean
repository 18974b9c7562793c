import Ownly.Folders.Changes

-- files/recycle_bin.rs: what deleting, restoring and purging do to the tree.
namespace Ownly.Folders
open KeyMap

def activeChildrenOf (folders : KeyMap String FolderRow) (userId : String) : String → List String :=
  childrenWhere folders (fun row => decide (row.userId = userId ∧ row.Active))

def trashedChildrenOf (folders : KeyMap String FolderRow) (userId : String) : String → List String :=
  childrenWhere folders (fun row => decide (row.userId = userId ∧ ¬row.Active))

def subtreeWalk (below : String → List String) (folders : KeyMap String FolderRow) (folderId : String) : Option (List String) :=
  Worklist.walk below folders.entries.length [folderId] [folderId]

def trashFolder (now : Int) (userId : String) (folderIds : List String) (id : String) (row : FolderRow) : FolderRow :=
  if id ∈ folderIds ∧ row.userId = userId ∧ row.Active then {row with deletedAt := some now} else row

def inFolders (folderIds : List String) (row : FileRow) : Prop := ∃ inside, row.folderId = some inside ∧ inside ∈ folderIds

instance (folderIds : List String) (row : FileRow) : Decidable (inFolders folderIds row) :=
  decidable_of_iff (row.folderId.any (fun inside => decide (inside ∈ folderIds)) = true) (by simp [inFolders,Option.any_eq_true])

def trashFile (now : Int) (userId : String) (folderIds : List String) (row : FileRow) : FileRow :=
  if row.userId = userId ∧ inFolders folderIds row ∧ row.Active then {row with deletedAt := some now} else row

-- The UPDATEs of one folder after another, and that of their files.
def trashAll (now : Int) (userId : String) (folderIds : List String) (tree : Tree) : Tree :=
  ⟨tree.folders.mapEntries (trashFolder now userId folderIds),tree.files.mapValues (trashFile now userId folderIds)⟩

def softDeleteOwnedFolder (now : Int) (userId folderId : String) (tree : Tree) : Outcome String :=
  match (tree.folders.get folderId).filter (fun row => decide (row.userId = userId)) with
  | none => some (.error .notFound,tree)
  | some row =>
    if ¬row.Active then some (.ok row.name,tree)
    else (subtreeWalk (activeChildrenOf tree.folders userId) tree.folders folderId).map (fun folderIds =>
      (.ok row.name,trashAll now userId folderIds tree))

def softDeleteFile (caller : Caller) (fileId : String) (tree : Tree) : Except AppError Unit × Tree :=
  match ensureFileAccess caller tree fileId .contentDelete with
  | .error refused => (.error refused,tree)
  | .ok () => (.ok (),{tree with files := tree.files.modify fileId (fun row => if row.Active then {row with deletedAt := some caller.now} else row)})

def restoreFile (userId fileId : String) (tree : Tree) : Except AppError Bool × Tree :=
  match (tree.files.get fileId).filter (fun row => decide (row.userId = userId)) with
  | none => (.ok false,tree)
  | some row =>
    if row.Active then (.ok false,tree)
    else if row.folderId.any (fun parentId => (ownActive tree.folders userId parentId).isNone) then
      (.error (.conflict "cannot restore file — original folder is in the recycle bin"),tree)
    else (.ok true,{tree with files := tree.files.set fileId {row with deletedAt := none}})

def untrashFolder (userId : String) (folderIds : List String) (id : String) (row : FolderRow) : FolderRow :=
  if id ∈ folderIds ∧ row.userId = userId then {row with deletedAt := none} else row

def untrashFile (userId : String) (folderIds : List String) (row : FileRow) : FileRow :=
  if row.userId = userId ∧ inFolders folderIds row ∧ ¬row.Active then {row with deletedAt := none} else row

def untrashAll (userId : String) (folderIds : List String) (tree : Tree) : Tree :=
  ⟨tree.folders.mapEntries (untrashFolder userId folderIds),tree.files.mapValues (untrashFile userId folderIds)⟩

def nameConflict (folders : KeyMap String FolderRow) (userId parentId name : String) : Bool :=
  folders.any (fun _ row => decide (row.userId = userId ∧ row.parentId = some parentId ∧ row.name = name ∧ row.Active))

def existsInDestination : AppError := .conflict "a folder with this name already exists in the destination"

def checkParent (folders : KeyMap String FolderRow) (userId : String) (row : FolderRow) : Except AppError Unit :=
  match row.parentId with
  | none => .ok ()
  | some parentId =>
    if (ownActive folders userId parentId).isNone then
      .error (.conflict "cannot restore folder — parent folder is in the recycle bin")
    else if nameConflict folders userId parentId row.name then .error existsInDestination
    else .ok ()

def restoreFolder (userId folderId : String) (tree : Tree) : Outcome Bool :=
  match (tree.folders.get folderId).filter (fun row => decide (row.userId = userId)) with
  | none => some (.ok false,tree)
  | some row =>
    if row.Active then some (.ok false,tree)
    else match checkParent tree.folders userId row with
      | .error refused => some (.error refused,tree)
      | .ok () => (subtreeWalk (trashedChildrenOf tree.folders userId) tree.folders folderId).map (fun folderIds =>
          (.ok true,untrashAll userId folderIds tree))

def counted (n : Nat) (restored : Bool) : Nat := if restored then min (n + 1) (UInt32.size - 1) else n

-- What is restored before a refusal stays restored.
def restoreFiles (userId : String) : List String → Nat → Tree → Except AppError Nat × Tree
  | [],n,tree => (.ok n,tree)
  | fileId :: rest,n,tree => match restoreFile userId fileId tree with
    | (.error refused,tree') => (.error refused,tree')
    | (.ok restored,tree') => restoreFiles userId rest (counted n restored) tree'

def restoreFolders (userId : String) : List String → Nat → Tree → Outcome Nat
  | [],n,tree => some (.ok n,tree)
  | folderId :: rest,n,tree => (restoreFolder userId folderId tree).bind (fun
    | (.error refused,tree') => some (.error refused,tree')
    | (.ok restored,tree') => restoreFolders userId rest (counted n restored) tree')

def restoreRecycleBinItems (userId : String) (fileIds folderIds : List String) (tree : Tree) : Outcome (Nat × Nat) :=
  match restoreFiles userId fileIds 0 tree with
  | (.error refused,tree') => some (.error refused,tree')
  | (.ok restoredFiles,tree') => (restoreFolders userId folderIds 0 tree').map (fun (answer,tree'') =>
      (answer.map (restoredFiles,·),tree''))

def under (folders : KeyMap String FolderRow) (folderId id : String) : Bool :=
  decide (folderId ∈ Ancestry.trail (parent folders) (folders.entries.length + 1) id)

def deleteFolderRow (userId : String) (tree : Tree) (folderId : String) : Tree :=
  if (tree.folders.get folderId).any (fun row => decide (row.userId = userId)) then
    ⟨tree.folders.retain (fun id _ => !under tree.folders folderId id),
      tree.files.mapValues (fun row => if row.folderId.any (under tree.folders folderId) then {row with folderId := none} else row)⟩
  else tree

def trashedFiles (tree : Tree) (userId : String) : List String :=
  (tree.files.entries.filter (fun entry => decide (entry.2.userId = userId ∧ ¬entry.2.Active))).map (·.1)

def trashedFolders (tree : Tree) (userId : String) : List String :=
  (tree.folders.entries.filter (fun entry => decide (entry.2.userId = userId ∧ ¬entry.2.Active))).map (·.1)

-- A file whose blob cannot be deleted is skipped; `kept` has them.
def purgeUserRecycleBin (userId : String) (kept : List String) (tree : Tree) : Tree :=
  let files := (trashedFiles tree userId).filter (fun id => decide (id ∉ kept))
  let purged : Tree := {tree with files := tree.files.retain (fun id _ => decide (id ∉ files))}
  (trashedFolders purged userId).foldl (deleteFolderRow userId) purged

section Walks
variable {tree : Tree} {folders : KeyMap String FolderRow} {keep : FolderRow → Bool} {userId folderId id : String} {folderIds : List String}
  {now : Int}

theorem subtreeWalk_ends (forest : Forest folders) (present : (folders.get folderId).isSome) :
    ∃ folderIds, subtreeWalk (childrenWhere folders keep) folders folderId = some folderIds := by
  obtain ⟨row,found⟩ := Option.isSome_iff_exists.mp present
  have listed : folderId ∈ folders.entries.map (·.1) := List.mem_map.mpr ⟨_,get_eq_some.mp found,rfl⟩
  refine Worklist.walk_ends forest (fun _ _ => childrenWhere_parent) (fun _ => childrenWhere_nodup)
    (fun _ => childrenWhere_listed) listed ?_
  rw [List.length_map]

def Subtree (folders : KeyMap String FolderRow) (keep : FolderRow → Bool) (folderId id : String) : Prop :=
  id = folderId ∨ Worklist.Below (childrenWhere folders keep) folderId id

theorem subtreeWalk_mem (ended : subtreeWalk (childrenWhere folders keep) folders folderId = some folderIds) :
    id ∈ folderIds ↔ Subtree folders keep folderId id := by
  rw [Worklist.walk_mem ended]
  simp [Subtree]

theorem Subtree.reaches (inside : Subtree folders keep folderId id) : Ancestry.Reaches (parent folders) id folderId := by
  rcases inside with rfl | path
  · exact Ancestry.reaches_refl _ _
  · induction path with
    | single under => exact (Ancestry.reaches_refl _ _).head (childrenWhere_parent under)
    | tail _ under above => exact above.head (childrenWhere_parent under)

theorem Subtree.step {child : String} (inside : Subtree folders keep folderId id) (under : child ∈ childrenWhere folders keep id) :
    Subtree folders keep folderId child := by
  rcases inside with rfl | path
  · exact .inr (.single under)
  · exact .inr (path.tail under)

theorem Subtree.rec_down {motive : String → Prop} (top : motive folderId)
    (down : ∀ id child, motive id → child ∈ childrenWhere folders keep id → motive child) (inside : Subtree folders keep folderId id) :
    motive id := by
  rcases inside with rfl | path
  · exact top
  · induction path with
    | single under => exact down _ _ top under
    | tail _ under above => exact down _ _ above under

theorem trashAll_folder : (trashAll now userId folderIds tree).folders.get id = (tree.folders.get id).map (trashFolder now userId folderIds id) :=
  get_mapEntries

theorem trashAll_file : (trashAll now userId folderIds tree).files.get id = (tree.files.get id).map (trashFile now userId folderIds) :=
  get_mapValues

theorem untrashAll_folder : (untrashAll userId folderIds tree).folders.get id = (tree.folders.get id).map (untrashFolder userId folderIds id) :=
  get_mapEntries

theorem untrashAll_file : (untrashAll userId folderIds tree).files.get id = (tree.files.get id).map (untrashFile userId folderIds) :=
  get_mapValues

theorem trashFolder_parent {row : FolderRow} : (trashFolder now userId folderIds id row).parentId = row.parentId := by
  unfold trashFolder
  split <;> rfl

theorem untrashFolder_parent {row : FolderRow} : (untrashFolder userId folderIds id row).parentId = row.parentId := by
  unfold untrashFolder
  split <;> rfl

theorem parent_map {f : String → FolderRow → FolderRow} (same : ∀ id row, (f id row).parentId = row.parentId) :
    parent (folders.mapEntries f) = parent folders := by
  funext id
  unfold parent
  rw [get_mapEntries]
  cases folders.get id with
  | none => rfl
  | some row => exact same id row

theorem trashAll_parent : parent (trashAll now userId folderIds tree).folders = parent tree.folders :=
  parent_map (fun _ _ => trashFolder_parent)

end Walks

end Ownly.Folders
