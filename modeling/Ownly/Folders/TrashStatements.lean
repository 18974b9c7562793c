import Ownly.Folders.Trash

-- soft_delete_owned_folder statement by statement: what it leaves behind when the database
-- refuses one of them.
namespace Ownly.Folders
open List Option

-- The statements that fail, those of the two loops by their turn. That of the shares may fail
-- as well; its error is dropped, and it writes no row of the tree.
structure Failures where
  readFolder : Bool
  readChildren : Nat → Bool
  updateFolder : Nat → Bool
  updateFiles : Bool

def refused : AppError := .database "error returned from database"

-- The walk of `Worklist`, with a SELECT at each turn.
def readSubtree (fails : Nat → Bool) (below : String → List String) : Nat → Nat → List String → List String → Option (Except AppError (List String))
  | _,_,[],found => some (.ok found)
  | 0,_,_ :: _,_ => none
  | fuel + 1,turn,id :: rest,found =>
    if fails turn then some (.error refused)
    else readSubtree fails below fuel (turn + 1) ((below id).reverse ++ rest) (found ++ below id)

def trashFolders (fails : Nat → Bool) (now : Int) (userId : String) : Nat → List String → KeyMap String FolderRow → Except AppError Unit × KeyMap String FolderRow
  | _,[],folders => (.ok (),folders)
  | turn,id :: rest,folders =>
    if fails turn then (.error refused,folders)
    else trashFolders fails now userId (turn + 1) rest (folders.mapEntries (trashFolder now userId [id]))

-- The UPDATEs, of one folder after another and of all files.
def trashStatements (fails : Failures) (now : Int) (userId name : String) (folderIds : List String) (tree : Tree) : Except AppError String × Tree :=
  match trashFolders fails.updateFolder now userId 0 folderIds tree.folders with
  | (.error err,folders) => (.error err,{tree with folders := folders})
  | (.ok (),folders) =>
    if fails.updateFiles then (.error refused,{tree with folders := folders})
    else (.ok name,⟨folders,tree.files.mapValues (trashFile now userId folderIds)⟩)

def softDeleteStatements (fails : Failures) (now : Int) (userId folderId : String) (tree : Tree) : Outcome String :=
  if fails.readFolder then some (.error refused,tree)
  else match (tree.folders.get folderId).filter (fun row => decide (row.userId = userId)) with
  | none => some (.error .notFound,tree)
  | some row =>
    if ¬row.Active then some (.ok row.name,tree)
    else (readSubtree fails.readChildren (activeChildrenOf tree.folders userId) tree.folders.entries.length 0 [folderId] [folderId]).map (fun
      | .error err => (.error err,tree)
      | .ok folderIds => trashStatements fails now userId row.name folderIds tree)

def SubtreeTrashed (userId folderId : String) (before after : Tree) : Prop :=
  ∀ id, Subtree before.folders (fun row => decide (row.userId = userId ∧ row.Active)) folderId id →
    (∀ row, after.folders.get id = some row → ¬row.Active) ∧
    ∀ fileId file, after.files.get fileId = some file → file.userId = userId → file.folderId = some id → ¬file.Active

def Atomic (userId folderId : String) (tree : Tree) : Except AppError String × Tree → Prop
  | (.ok _,after) => SubtreeTrashed userId folderId tree after
  | (.error _,after) => after = tree

def Undisturbed (fails : Failures) (userId folderId : String) (tree : Tree) : Prop :=
  fails.readFolder ∨ ∀ row, tree.folders.get folderId = some row → row.userId = userId →
    if row.Active then ∀ folderIds, subtreeWalk (activeChildrenOf tree.folders userId) tree.folders folderId = some folderIds →
      (∃ turn < folderIds.length, fails.readChildren turn) ∨ fails.updateFolder 0 ∨
        (∀ turn < folderIds.length, ¬fails.updateFolder turn) ∧ ¬fails.updateFiles
    else SubtreeTrashed userId folderId tree tree

section
variable {fails : Nat → Bool} {below : String → List String} {fuel turn : Nat} {stack found result folderIds rest : List String}
variable {now : Int} {userId folderId id : String} {folders : KeyMap String FolderRow} {row : FolderRow} {tree : Tree}

theorem walk_extends (ended : Worklist.walk below fuel stack found = some result) : found <+: result := by
  induction fuel generalizing stack found with
  | zero => cases stack <;> cases ended; exact prefix_rfl
  | succ fuel ih =>
    cases stack with
    | nil => cases ended; exact prefix_rfl
    | cons id rest => exact (prefix_append found (below id)).trans (ih ended)

theorem readSubtree_cases (fails : Nat → Bool) (turn : Nat) (ended : Worklist.walk below fuel stack found = some result) :
    (readSubtree fails below fuel turn stack found = some (.ok result) ∧
      ∀ other, turn ≤ other → other + found.length < turn + stack.length + result.length → fails other = false) ∨
    readSubtree fails below fuel turn stack found = some (.error refused) ∧
      ∃ other, other + found.length < turn + stack.length + result.length ∧ fails other = true := by
  induction fuel generalizing stack found turn with
  | zero =>
    cases stack <;> cases ended
    exact .inl ⟨rfl,by intro other low high; simp at high; omega⟩
  | succ fuel ih =>
    cases stack with
    | nil =>
      cases ended
      exact .inl ⟨rfl,by intro other low high; simp at high; omega⟩
    | cons id rest =>
      have deeper : Worklist.walk below fuel ((below id).reverse ++ rest) (found ++ below id) = some result := ended
      have later := (walk_extends deeper).length_le
      simp only [length_append] at later
      rw [readSubtree]
      cases now : fails turn with
      | true => exact .inr ⟨rfl,turn,by simp; omega,now⟩
      | false =>
        rcases ih (turn + 1) ended with ⟨read,clear⟩ | ⟨read,other,bound,failed⟩
        · refine .inl ⟨read,?_⟩
          intro other low high
          rcases Nat.eq_or_lt_of_le low with rfl | above
          · exact now
          · exact clear other above (by simp at high ⊢; omega)
        · exact .inr ⟨read,other,by simp at bound ⊢; omega,failed⟩

theorem trashFolder_cons {id : String} {row : FolderRow} {first : String} :
    trashFolder now userId rest id (trashFolder now userId [first] id row) = trashFolder now userId (first :: rest) id row := by
  unfold trashFolder FolderRow.Active
  grind

theorem trashFolders_cases (fails : Nat → Bool) (now : Int) (userId : String) (turn : Nat) (folderIds : List String) (folders : KeyMap String FolderRow) :
    (trashFolders fails now userId turn folderIds folders = (.ok (),folders.mapEntries (trashFolder now userId folderIds)) ∧
      ∀ other, turn ≤ other → other < turn + folderIds.length → fails other = false) ∨
    (trashFolders fails now userId turn folderIds folders).1 = .error refused ∧
      ∃ other, turn ≤ other ∧ other < turn + folderIds.length ∧ fails other = true := by
  induction folderIds generalizing turn folders with
  | nil =>
    refine .inl ⟨?_,by intro other low high; simp at high; omega⟩
    simp [trashFolders,KeyMap.mapEntries,trashFolder]
  | cons id rest ih =>
    rw [trashFolders]
    cases answer : fails turn with
    | true => exact .inr ⟨rfl,turn,le_rfl,by simp,answer⟩
    | false =>
      rcases ih (turn + 1) (folders.mapEntries (trashFolder now userId [id])) with ⟨wrote,clear⟩ | ⟨wrote,other,low,high,failed⟩
      · refine .inl ⟨?_,?_⟩
        · simp only [Bool.false_eq_true,if_false,wrote]
          exact congrArg (Prod.mk _) (AList.ext (by simp [KeyMap.mapEntries,trashFolder_cons]))
        · intro other low high
          rcases Nat.eq_or_lt_of_le low with rfl | above
          · exact answer
          · exact clear other above (by simp at high ⊢; omega)
      · exact .inr ⟨wrote,other,by omega,by simp at high ⊢; omega,failed⟩

theorem trashFolders_frozen (present : folders.get id = some row) (trashed : ¬row.Active) :
    (trashFolders fails now userId turn folderIds folders).2.get id = some row := by
  induction folderIds generalizing turn folders with
  | nil => exact present
  | cons first rest ih =>
    rw [trashFolders]
    split
    · exact present
    · apply ih
      simp [present,trashFolder,trashed]

theorem trashFolders_started (now : Int) (rest : List String) (present : folders.get folderId = some row) (own : row.userId = userId) (active : row.Active)
    (passed : fails turn = false) :
    (trashFolders fails now userId turn (folderId :: rest) folders).2 ≠ folders := by
  intro same
  have marked : (folders.mapEntries (trashFolder now userId [folderId])).get folderId = some {row with deletedAt := some now} := by
    simp [present,trashFolder,own,active]
  have frozen : (trashFolders fails now userId (turn + 1) rest (folders.mapEntries (trashFolder now userId [folderId]))).2.get folderId =
      some {row with deletedAt := some now} := trashFolders_frozen marked (by simp [FolderRow.Active])
  rw [trashFolders,passed] at same
  simp only [Bool.false_eq_true,if_false] at same
  rw [same,present] at frozen
  rw [Option.some.inj frozen] at active
  cases active

theorem subtree_trashed (present : tree.folders.get folderId = some row) (own : row.userId = userId) (active : row.Active)
    (walked : subtreeWalk (activeChildrenOf tree.folders userId) tree.folders folderId = some folderIds) :
    SubtreeTrashed userId folderId tree (trashAll now userId folderIds tree) := by
  intro id inside
  have listed := (subtreeWalk_mem walked).mpr inside
  constructor
  · intro after placed
    rw [trashAll_folder] at placed
    obtain ⟨before,there,rfl⟩ := map_eq_some_iff.mp placed
    exact walked_trashed present own active walked listed there
  · intro fileId file placed mine within
    rw [trashAll_file] at placed
    obtain ⟨before,-,rfl⟩ := map_eq_some_iff.mp placed
    unfold trashFile FileRow.Active inFolders at *
    split <;> grind

theorem trashStatements_atomic (fails : Failures) (now : Int) (present : tree.folders.get folderId = some row) (own : row.userId = userId) (active : row.Active)
    (walked : subtreeWalk (activeChildrenOf tree.folders userId) tree.folders folderId = some (folderId :: rest)) :
    Atomic userId folderId tree (trashStatements fails now userId row.name (folderId :: rest) tree) ↔
      fails.updateFolder 0 ∨ (∀ turn < (folderId :: rest).length, ¬fails.updateFolder turn) ∧ ¬fails.updateFiles := by
  unfold trashStatements
  rcases trashFolders_cases fails.updateFolder now userId 0 (folderId :: rest) tree.folders with ⟨wrote,fine⟩ | ⟨wrote,turn,-,bound,failed⟩
  · have started := trashFolders_started now rest present own active (fine 0 le_rfl (by simp))
    rw [wrote] at started ⊢
    cases files : fails.updateFiles with
    | true => simpa [Atomic,fine 0 le_rfl] using fun same => started (congrArg Tree.folders same)
    | false =>
      refine iff_of_true (subtree_trashed present own active walked) (.inr ⟨?_,by simp⟩)
      intro turn bound
      simp [fine turn (Nat.zero_le _) (by omega)]
  · cases first : fails.updateFolder 0 with
    | true => simp [trashFolders,first,Atomic]
    | false =>
      have started := trashFolders_started now rest present own active first
      generalize trashFolders fails.updateFolder now userId 0 (folderId :: rest) tree.folders = written at wrote started
      obtain ⟨answer,folders⟩ := written
      cases wrote
      refine iff_of_false (fun same => started (congrArg Tree.folders same)) ?_
      rintro (now | ⟨none,-⟩)
      · cases now
      · exact none turn (by omega) failed

-- A deletion is all or nothing exactly when no error comes in between.
theorem trash_atomic_iff (fails : Failures) (now : Int) (userId folderId : String) (tree : Tree) (forest : Forest tree.folders) :
    ∃ outcome, softDeleteStatements fails now userId folderId tree = some outcome ∧
      (Atomic userId folderId tree outcome ↔ Undisturbed fails userId folderId tree) := by
  unfold softDeleteStatements Undisturbed
  cases fails.readFolder with
  | true => exact ⟨_,rfl,by simp [Atomic]⟩
  | false =>
    cases present : tree.folders.get folderId with
    | none => exact ⟨_,rfl,by simp [Atomic]⟩
    | some row =>
      by_cases own : row.userId = userId
      · by_cases active : row.Active
        · obtain ⟨folderIds,walked⟩ : ∃ folderIds, subtreeWalk (activeChildrenOf tree.folders userId) tree.folders folderId = some folderIds :=
            subtreeWalk_ends forest (isSome_of_eq_some present)
          obtain ⟨rest,rfl⟩ := walk_extends walked
          have writes := trashStatements_atomic fails now present own active walked
          simp only [Option.filter,own,active,decide_true,if_true,not_true,if_false,Bool.false_eq_true,false_or,Option.some.injEq,
            forall_eq',forall_const,walked]
          rcases readSubtree_cases fails.readChildren 0 walked with ⟨read,clear⟩ | ⟨read,turn,bound,failed⟩
          · refine ⟨_,by rw [read,map_some],?_⟩
            have unread : ¬∃ turn < ([folderId] ++ rest).length, fails.readChildren turn = true := by
              rintro ⟨turn,bound,failed⟩
              rw [clear turn (Nat.zero_le _) (by simp at bound ⊢; omega)] at failed
              cases failed
            simp only [unread,false_or]
            exact writes
          · refine ⟨_,by rw [read,map_some],?_⟩
            exact iff_of_true rfl (.inl ⟨turn,by simp at bound ⊢; omega,failed⟩)
        · exact ⟨(.ok row.name,tree),by simp [Option.filter,own,active],by simp [own,active,Atomic]⟩
      · exact ⟨(.error .notFound,tree),by simp [Option.filter,own],by simp [own,Atomic]⟩

end

theorem projects_forest : Forest annsTree.folders := by
  have only : ∀ entry ∈ annsTree.folders.entries, entry.2.parentId = none := by decide +kernel
  have falls : ∀ entry ∈ annsTree.folders.entries, ∀ above ∈ entry.2.parentId.toList, 0 < 0 := by
    intro entry member above found
    simp [only entry member] at found
  exact forest_of_rank falls

theorem projects_trashed : ∃ outcome, softDeleteStatements ⟨false,fun _ => false,fun _ => false,false⟩ 1 "ann" "projects" annsTree = some outcome ∧
    (Atomic "ann" "projects" annsTree outcome ↔ Undisturbed ⟨false,fun _ => false,fun _ => false,false⟩ "ann" "projects" annsTree) :=
  trash_atomic_iff _ 1 "ann" "projects" annsTree projects_forest

theorem projects_half_trashed : ¬∀ fails now userId folderId tree, Forest tree.folders →
    ∃ outcome, softDeleteStatements fails now userId folderId tree = some outcome ∧ Atomic userId folderId tree outcome := by
  intro atomic
  obtain ⟨outcome,ran,same⟩ := atomic ⟨false,fun _ => false,fun _ => false,true⟩ 1 "ann" "projects" annsTree projects_forest
  have half : (softDeleteStatements ⟨false,fun _ => false,fun _ => false,true⟩ 1 "ann" "projects" annsTree).any (fun outcome =>
      (match outcome.1 with | .ok _ => false | .error _ => true) && (outcome.2.folders.get "projects").any (fun row => row.deletedAt.isSome)) = true := by
    decide +kernel
  rw [ran] at half
  obtain ⟨answer | answer,after⟩ := outcome
  · cases (same : after = annsTree)
    have active : (annsTree.folders.get "projects").any (fun row => row.deletedAt.isSome) = false := by decide
    simp [active] at half
  · exact absurd half (by simp)

end Ownly.Folders
