import Ownly.Authz.Resolver
import Ownly.Lib.Worklist

-- files/folders.rs, rename.rs, folder_move.rs and handlers.rs: the calls that put folders
-- and files into a place, each run in one piece.
namespace Ownly.Folders
open Authz (Policy Permission authorize)
open Option

structure Caller where
  userId : String
  policy : Policy
  now : Int

abbrev Outcome (α : Type) := Option (Except AppError α × Tree)

def conflict : AppError := .conflict "a folder with this name already exists here"

def duplicateName : AppError := .database "folders_user_id_parent_id_name_key"

def normalizeFolderName (name : String) : Except AppError String :=
  let trimmed := String.ofList (Text.trim name.toList)
  if trimmed = "" then .error (.badRequest "folder name is required")
  else if 255 < trimmed.utf8ByteSize then .error (.badRequest "folder name is too long")
  else if '/' ∈ trimmed.toList ∨ '\\' ∈ trimmed.toList then .error (.badRequest "folder name cannot contain path separators")
  else if trimmed = "." ∨ trimmed = ".." then .error (.badRequest "folder name cannot be '.' or '..'")
  else .ok trimmed

def ensureFolderAccess (caller : Caller) (tree : Tree) (folderId : String) (permission : Permission) : Except AppError Unit :=
  if activeFolder tree.folders folderId then authorize caller.policy tree caller.now caller.userId permission (.folder folderId)
  else .error .notFound

def ensureFileAccess (caller : Caller) (tree : Tree) (fileId : String) (permission : Permission) : Except AppError Unit :=
  if activeFile tree.files fileId then authorize caller.policy tree caller.now caller.userId permission (.file fileId)
  else .error .notFound

-- Nothing to ask at the root.
def ensureTargetAccess (caller : Caller) (tree : Tree) : Option String → Except AppError Unit
  | none => .ok ()
  | some folderId => ensureFolderAccess caller tree folderId .contentWrite

-- `UNIQUE (user_id, parent_id, name)` over all rows, where a NULL parent equals no other.
def nameTaken (folders : KeyMap String FolderRow) (userId : String) (parentId : Option String) (name exceptId : String) : Bool :=
  parentId.isSome && folders.any (fun id row => decide (id ≠ exceptId ∧ row.userId = userId ∧ row.parentId = parentId ∧ row.name = name))

def createFolder (caller : Caller) (folderId : String) (parentId : Option String) (rawName : String) (tree : Tree) :
    Except AppError FolderRow × Tree :=
  match normalizeFolderName rawName with
  | .error refused => (.error refused,tree)
  | .ok name => match ensureTargetAccess caller tree parentId with
    | .error refused => (.error refused,tree)
    | .ok () =>
      if tree.folders.contains folderId ∨ nameTaken tree.folders caller.userId parentId name folderId then (.error conflict,tree)
      else
        let row : FolderRow := ⟨caller.userId,parentId,name,none⟩
        (.ok row,{tree with folders := tree.folders.set folderId row})

-- `WHERE id = $1 AND user_id = $2 AND deleted_at IS NULL`
def ownActive (folders : KeyMap String FolderRow) (userId id : String) : Option FolderRow :=
  (folders.get id).filter (fun row => decide (row.userId = userId ∧ row.Active))

-- `LOWER` is that of the database's locale.
def ensureUniqueFolderName (lower : String → String) (folders : KeyMap String FolderRow) (userId : String) (parentId : Option String)
    (name excludeId : String) : Except AppError Unit :=
  if folders.any (fun id row => decide (row.userId = userId ∧ id ≠ excludeId ∧ row.Active ∧ lower row.name = lower name ∧
    row.parentId = parentId)) then .error conflict
  else .ok ()

def renameFolderInPlace (lower : String → String) (userId folderId rawName : String) (tree : Tree) : Except AppError Unit × Tree :=
  match normalizeFolderName rawName with
  | .error refused => (.error refused,tree)
  | .ok name => match ownActive tree.folders userId folderId with
    | none => (.error .notFound,tree)
    | some row =>
      if row.name = name then (.ok (),tree)
      else match ensureUniqueFolderName lower tree.folders userId row.parentId name folderId with
        | .error refused => (.error refused,tree)
        | .ok () =>
          if nameTaken tree.folders userId row.parentId name folderId then (.error duplicateName,tree)
          else (.ok (),{tree with folders := tree.folders.set folderId {row with name := name}})

-- The loop of `folder_is_ancestor_of`, one query a round.
def ancestorWalk (folders : KeyMap String FolderRow) (userId ancestorId : String) : Nat → Option String → Option Bool
  | _,none => some false
  | 0,some _ => none
  | rounds + 1,some id =>
    if id = ancestorId then some true
    else match ownActive folders userId id with
      | none => some false
      | some row => ancestorWalk folders userId ancestorId rounds row.parentId

def folderIsAncestorOf (folders : KeyMap String FolderRow) (userId ancestorId candidateId : String) : Option Bool :=
  if ancestorId = candidateId then some true
  else ancestorWalk folders userId ancestorId (folders.entries.length + 1) (some candidateId)

def intoItself : AppError := .badRequest "a folder cannot be moved into itself"

def intoSubfolder : AppError := .badRequest "a folder cannot be moved into its own subfolder"

def checkTarget (caller : Caller) (tree : Tree) (folderId : String) : Option String → Option (Except AppError Unit)
  | none => some (.ok ())
  | some parentId =>
    if parentId = folderId then some (.error intoItself)
    else (folderIsAncestorOf tree.folders caller.userId folderId parentId).map (fun above =>
      if above then .error intoSubfolder else ensureFolderAccess caller tree parentId .contentWrite)

def moveFolderInPlace (lower : String → String) (caller : Caller) (folderId : String) (targetParentId : Option String) (tree : Tree) :
    Outcome FolderRow :=
  match ownActive tree.folders caller.userId folderId with
  | none => some (.error .notFound,tree)
  | some row =>
    if row.parentId = targetParentId then some (.error (.badRequest "folder is already in this location"),tree)
    else (checkTarget caller tree folderId targetParentId).map (fun
      | .error refused => (.error refused,tree)
      | .ok () => match ensureUniqueFolderName lower tree.folders caller.userId targetParentId row.name folderId with
        | .error refused => (.error refused,tree)
        | .ok () =>
          if nameTaken tree.folders caller.userId targetParentId row.name folderId then (.error duplicateName,tree)
          else
            let moved := {row with parentId := targetParentId}
            (.ok moved,{tree with folders := tree.folders.set folderId moved}))

def insertFile (fileId : String) (row : FileRow) (tree : Tree) : Except AppError FileRow × Tree :=
  if tree.files.contains fileId then (.error (.database "files_pkey"),tree)
  else (.ok row,{tree with files := tree.files.set fileId row})

-- Uploads into a folder belong to its owner.
def uploadFile (caller : Caller) (fileId : String) (folderId : Option String) (tree : Tree) : Except AppError FileRow × Tree :=
  match ensureTargetAccess caller tree folderId with
  | .error refused => (.error refused,tree)
  | .ok () =>
    let owner := (folderId.bind (Authz.folderOwner tree)).getD caller.userId
    insertFile fileId ⟨owner,folderId,none⟩ tree

def moveFile (caller : Caller) (fileId : String) (folderId : Option String) (tree : Tree) : Except AppError FileRow × Tree :=
  match ensureFileAccess caller tree fileId .contentWrite with
  | .error refused => (.error refused,tree)
  | .ok () => match (tree.files.get fileId).filter (fun row => decide row.Active) with
    | none => (.error .notFound,tree)
    | some row =>
      if row.folderId = folderId then (.error (.badRequest "file is already in this folder"),tree)
      else match ensureTargetAccess caller tree folderId with
        | .error refused => (.error refused,tree)
        | .ok () =>
          let moved := {row with folderId := folderId}
          (.ok moved,{tree with files := tree.files.set fileId moved})

def copyFile (caller : Caller) (fileId newFileId : String) (folderId : Option String) (tree : Tree) : Except AppError FileRow × Tree :=
  match ensureFileAccess caller tree fileId .contentRead with
  | .error refused => (.error refused,tree)
  | .ok () => match ensureTargetAccess caller tree folderId with
    | .error refused => (.error refused,tree)
    | .ok () => insertFile newFileId ⟨caller.userId,folderId,none⟩ tree

section Outcomes
variable {lower : String → String} {caller : Caller} {tree : Tree} {folderId fileId userId name rawName : String} {parentId : Option String}
  {permission : Permission} {row : FolderRow} {file : FileRow}

theorem folderAccess_active (granted : ensureFolderAccess caller tree folderId permission = .ok ()) :
    activeFolder tree.folders folderId = true := by
  unfold ensureFolderAccess at granted
  split at granted
  · assumption
  · cases granted

theorem targetAccess_active (granted : ensureTargetAccess caller tree parentId = .ok ()) :
    ∀ above, parentId = some above → activeFolder tree.folders above = true := by
  rintro above rfl
  exact folderAccess_active granted

theorem ownActive_row {folders : KeyMap String FolderRow} (found : ownActive folders userId folderId = some row) :
    folders.get folderId = some row ∧ row.userId = userId ∧ row.Active := by
  rw [ownActive,filter_eq_some_iff,decide_eq_true_eq] at found
  exact found

inductive Created (caller : Caller) (folderId : String) (parentId : Option String) (rawName : String) (tree : Tree) :
    Except AppError FolderRow × Tree → Prop
  | refused (refusal : AppError) : Created caller folderId parentId rawName tree (.error refusal,tree)
  | created (name : String) (named : normalizeFolderName rawName = .ok name) (granted : ensureTargetAccess caller tree parentId = .ok ())
      (fresh : tree.folders.get folderId = none) (free : nameTaken tree.folders caller.userId parentId name folderId = false) :
      Created caller folderId parentId rawName tree
        (.ok ⟨caller.userId,parentId,name,none⟩,{tree with folders := tree.folders.set folderId ⟨caller.userId,parentId,name,none⟩})

theorem createFolder_created : Created caller folderId parentId rawName tree (createFolder caller folderId parentId rawName tree) := by
  unfold createFolder
  split
  · exact .refused _
  · rename_i name named
    split
    · exact .refused _
    · rename_i granted
      split
      · exact .refused _
      · rename_i clear
        obtain ⟨fresh,free⟩ := not_or.mp clear
        refine .created name named granted ?_ (Bool.eq_false_iff.mpr free)
        simpa [KeyMap.contains] using fresh

inductive Moved (lower : String → String) (caller : Caller) (folderId : String) (target : Option String) (tree : Tree) :
    Except AppError FolderRow × Tree → Prop
  | refused (refusal : AppError) : Moved lower caller folderId target tree (.error refusal,tree)
  | moved (row : FolderRow) (found : ownActive tree.folders caller.userId folderId = some row)
      (checked : checkTarget caller tree folderId target = some (.ok ()))
      (unique : ensureUniqueFolderName lower tree.folders caller.userId target row.name folderId = .ok ())
      (free : nameTaken tree.folders caller.userId target row.name folderId = false) :
      Moved lower caller folderId target tree
        (.ok {row with parentId := target},{tree with folders := tree.folders.set folderId {row with parentId := target}})

theorem moveFolderInPlace_moved {outcome : Except AppError FolderRow × Tree}
    (returned : moveFolderInPlace lower caller folderId parentId tree = some outcome) : Moved lower caller folderId parentId tree outcome := by
  unfold moveFolderInPlace at returned
  split at returned
  · cases returned
    exact .refused _
  · rename_i row found
    split at returned
    · cases returned
      exact .refused _
    · obtain ⟨checked,passed,made⟩ := map_eq_some_iff.mp returned
      split at made
      · cases made
        exact .refused _
      · split at made
        · cases made
          exact .refused _
        · rename_i unique
          split at made
          · cases made
            exact .refused _
          · rename_i free
            cases made
            exact .moved row found passed unique (Bool.eq_false_iff.mpr free)

theorem checkTarget_active {target : Option String} (checked : checkTarget caller tree folderId target = some (.ok ())) :
    ∀ above, target = some above → above ≠ folderId ∧ activeFolder tree.folders above = true := by
  rintro above rfl
  unfold checkTarget at checked
  dsimp only at checked
  split at checked
  · cases checked
  · rename_i ne
    obtain ⟨walked,_,made⟩ := map_eq_some_iff.mp checked
    split at made
    · cases made
    · exact ⟨ne,folderAccess_active made⟩

end Outcomes

end Ownly.Folders
