import Ownly.Folders.RecycleBin
import Ownly.Lib.Schedule

-- Whether the folders in use beside each other have different names, and whether a name is
-- refused only where a folder in use has it, over runs of one owner's calls.
namespace Ownly.Folders.Names
open Authz (Policy)
open Option KeyMap

-- patch_folder renames, moves, or does one after the other, and several folders are
-- restored in one turn each.
inductive Call where
  | createFolder (policy : Policy) (now : Int) (folderId : String) (parentId : Option String) (rawName : String)
  | renameFolderInPlace (folderId rawName : String)
  | moveFolderInPlace (policy : Policy) (now : Int) (folderId : String) (targetParentId : Option String)
  | softDeleteOwnedFolder (now : Int) (folderId : String)
  | restoreFolder (folderId : String)

def plain {α : Type} (answer : Except AppError α × Tree) : Except AppError Unit × Tree := (answer.1.map (fun _ => ()),answer.2)

def answer (lower : String → String) (owner : String) (tree : Tree) : Call → Outcome Unit
  | .createFolder policy now folderId parentId rawName =>
    if tree.folders.contains folderId then none else some (plain (createFolder ⟨owner,policy,now⟩ folderId parentId rawName tree))
  | .renameFolderInPlace folderId rawName => some (renameFolderInPlace lower owner folderId rawName tree)
  | .moveFolderInPlace policy now folderId target => (moveFolderInPlace lower ⟨owner,policy,now⟩ folderId target tree).map plain
  | .softDeleteOwnedFolder now folderId => (softDeleteOwnedFolder now owner folderId tree).map plain
  | .restoreFolder folderId => (restoreFolder owner folderId tree).map plain

def step (lower : String → String) (owner : String) (tree : Tree) (call : Call) : Option Tree := (answer lower owner tree call).map (·.2)

def Namesake (lower : String → String) (folders : KeyMap String FolderRow) (owner : String) (parentId : Option String)
    (name exceptId : String) : Prop :=
  ∃ id row, folders.get id = some row ∧ id ≠ exceptId ∧ row.userId = owner ∧ row.parentId = parentId ∧ row.Active ∧
    lower row.name = lower name

def Beside (lower : String → String) (row sibling : FolderRow) : Prop :=
  row.userId = sibling.userId ∧ row.parentId = sibling.parentId ∧ lower row.name = lower sibling.name

def Unique (lower : String → String) (folders : KeyMap String FolderRow) : Prop :=
  ∀ id other row sibling, folders.get id = some row → folders.get other = some sibling → row.Active → sibling.Active →
    Beside lower row sibling → id = other

def refusedForName (result : Except AppError Unit) : Prop :=
  result = .error conflict ∨ result = .error duplicateName ∨ result = .error existsInDestination

def wanted (owner : String) (tree : Tree) : Call → Option (String × Option String × String)
  | .createFolder _ _ folderId parentId rawName => (normalizeFolderName rawName).toOption.map (folderId,parentId,·)
  | .renameFolderInPlace folderId rawName => (ownActive tree.folders owner folderId).bind (fun row =>
      (normalizeFolderName rawName).toOption.map (folderId,row.parentId,·))
  | .moveFolderInPlace _ _ folderId target => (ownActive tree.folders owner folderId).map (fun row => (folderId,target,row.name))
  | .softDeleteOwnedFolder .. => none
  | .restoreFolder folderId => (tree.folders.get folderId).map (fun row => (folderId,row.parentId,row.name))

structure Respected (lower : String → String) (owner : String) (tree : Tree) (call : Call) (result : Except AppError Unit × Tree) : Prop where
  unique : Unique lower result.2.folders
  refused : refusedForName result.1 → ∃ folderId parentId name, wanted owner tree call = some (folderId,parentId,name) ∧
    Namesake lower tree.folders owner parentId name folderId

def ComesBack (tree : Tree) (owner folderId id : String) (row : FolderRow) : Prop :=
  row.Active ∨ row.userId = owner ∧ Subtree tree.folders (fun row => decide (row.userId = owner ∧ ¬row.Active)) folderId id

-- The key constraint and the folders in use agree on the name, and no two folders that are
-- active after a restore have the same name.
def NamesAgree (lower : String → String) (owner : String) (tree : Tree) : Call → Prop
  | .createFolder policy now folderId parentId rawName => ∀ name, normalizeFolderName rawName = .ok name →
      ensureTargetAccess ⟨owner,policy,now⟩ tree parentId = .ok () →
      (nameTaken tree.folders owner parentId name folderId = true ↔ Namesake lower tree.folders owner parentId name folderId)
  | .renameFolderInPlace folderId rawName => ∀ name row, normalizeFolderName rawName = .ok name →
      ownActive tree.folders owner folderId = some row → row.name ≠ name →
      nameTaken tree.folders owner row.parentId name folderId = true → Namesake lower tree.folders owner row.parentId name folderId
  | .moveFolderInPlace policy now folderId target => ∀ row, ownActive tree.folders owner folderId = some row → row.parentId ≠ target →
      checkTarget ⟨owner,policy,now⟩ tree folderId target = some (.ok ()) →
      nameTaken tree.folders owner target row.name folderId = true → Namesake lower tree.folders owner target row.name folderId
  | .softDeleteOwnedFolder .. => True
  | .restoreFolder folderId => ∀ top, tree.folders.get folderId = some top → top.userId = owner → ¬top.Active →
      checkParent tree.folders owner top = .ok () → ∀ id other row sibling, tree.folders.get id = some row →
      tree.folders.get other = some sibling → ComesBack tree owner folderId id row → ComesBack tree owner folderId other sibling →
      Beside lower row sibling → id = other

section Rows
variable {lower : String → String} {owner : String} {tree : Tree} {folders after : KeyMap String FolderRow} {folderId id name : String}
  {parentId : Option String} {row : FolderRow} {folderIds : List String} {now : Int}

theorem ensureUnique_ok : ensureUniqueFolderName lower folders owner parentId name folderId = .ok () ↔
    ¬Namesake lower folders owner parentId name folderId := by
  have found : folders.any (fun id row => decide (row.userId = owner ∧ id ≠ folderId ∧ row.Active ∧ lower row.name = lower name ∧
      row.parentId = parentId)) = true ↔ Namesake lower folders owner parentId name folderId := by
    rw [any_iff]
    unfold Namesake
    simp only [decide_eq_true_eq]
    constructor
    · rintro ⟨id,row,present,owned,ne,active,named,inside⟩
      exact ⟨id,row,present,ne,owned,inside,active,named⟩
    · rintro ⟨id,row,present,ne,owned,inside,active,named⟩
      exact ⟨id,row,present,owned,ne,active,named,inside⟩
  unfold ensureUniqueFolderName
  rw [← found]
  split <;> simp_all

theorem ensureUnique_error {refusal : AppError} (refused : ensureUniqueFolderName lower folders owner parentId name folderId = .error refusal) :
    refusal = conflict ∧ Namesake lower folders owner parentId name folderId := by
  have sibling : Namesake lower folders owner parentId name folderId := by
    by_contra none
    rw [ensureUnique_ok.mpr none] at refused
    cases refused
  refine ⟨?_,sibling⟩
  unfold ensureUniqueFolderName at refused
  split at refused
  · cases refused
    rfl
  · cases refused

theorem unique_set (unique : Unique lower folders) (active : row.Active) : Unique lower (folders.set id row) ↔
    ¬Namesake lower folders row.userId row.parentId row.name id := by
  constructor
  · rintro kept ⟨other,sibling,present,ne,owned,inside,there,named⟩
    refine ne (kept other id sibling row ?_ get_set_self there active ⟨owned,inside,named⟩)
    rw [get_set_ne ne]
    exact present
  · rintro free first second one two hasFirst hasSecond activeFirst activeSecond ⟨owned,inside,named⟩
    rw [get_set] at hasFirst hasSecond
    split at hasFirst
    · rename_i isFirst
      split at hasSecond
      · rename_i isSecond
        rw [isFirst,isSecond]
      · rename_i ne
        cases hasFirst
        exact absurd ⟨second,two,hasSecond,ne,owned.symm,inside.symm,activeSecond,named.symm⟩ free
    · rename_i ne
      split at hasSecond
      · cases hasSecond
        exact absurd ⟨first,one,hasFirst,ne,owned,inside,activeFirst,named⟩ free
      · exact unique first second one two hasFirst hasSecond activeFirst activeSecond ⟨owned,inside,named⟩

theorem unique_marked {f : String → FolderRow → FolderRow} (same : ∀ id row, (f id row).userId = row.userId ∧
    (f id row).parentId = row.parentId ∧ (f id row).name = row.name) : Unique lower (folders.mapEntries f) ↔
    ∀ id other row sibling, folders.get id = some row → folders.get other = some sibling → (f id row).Active → (f other sibling).Active →
      Beside lower row sibling → id = other := by
  have beside : ∀ id other row sibling, Beside lower (f id row) (f other sibling) ↔ Beside lower row sibling := by
    intro id other row sibling
    unfold Beside
    rw [(same id row).1,(same id row).2.1,(same id row).2.2,(same other sibling).1,(same other sibling).2.1,(same other sibling).2.2]
  constructor
  · intro unique id other row sibling present there active alive near
    refine unique id other (f id row) (f other sibling) ?_ ?_ active alive ((beside id other row sibling).mpr near)
    · rw [get_mapEntries,present]
      rfl
    · rw [get_mapEntries,there]
      rfl
  · intro unique id other marked marked' stored stored' active alive near
    rw [get_mapEntries] at stored stored'
    obtain ⟨row,present,rfl⟩ := map_eq_some_iff.mp stored
    obtain ⟨sibling,there,rfl⟩ := map_eq_some_iff.mp stored'
    exact unique id other row sibling present there active alive ((beside id other row sibling).mp near)

theorem trashFolder_same : (trashFolder now owner folderIds id row).userId = row.userId ∧
    (trashFolder now owner folderIds id row).parentId = row.parentId ∧ (trashFolder now owner folderIds id row).name = row.name := by
  unfold trashFolder
  split <;> exact ⟨rfl,rfl,rfl⟩

theorem untrashFolder_same : (untrashFolder owner folderIds id row).userId = row.userId ∧
    (untrashFolder owner folderIds id row).parentId = row.parentId ∧ (untrashFolder owner folderIds id row).name = row.name := by
  unfold untrashFolder
  split <;> exact ⟨rfl,rfl,rfl⟩

theorem trashFolder_active (active : (trashFolder now owner folderIds id row).Active) : row.Active := by
  unfold trashFolder at active
  split at active
  · cases active
  · exact active

theorem untrashFolder_active : (untrashFolder owner folderIds id row).Active ↔
    row.Active ∨ row.userId = owner ∧ id ∈ folderIds := by
  unfold untrashFolder
  split
  · rename_i back
    exact iff_of_true rfl (.inr back.symm)
  · rename_i out
    exact ⟨.inl,fun either => either.resolve_right (fun back => out back.symm)⟩

end Rows

section Calls
variable {lower : String → String} {owner : String} {tree next : Tree} {folderId name rawName : String} {parentId target : Option String}
  {policy : Policy} {now : Int} {row : FolderRow} {refused : AppError} {call : Call} {result : Except AppError Unit × Tree}
  {caller : Caller}

def NameError (refused : AppError) : Prop := refused = conflict ∨ refused = duplicateName ∨ refused = existsInDestination

theorem refusedForName_error : refusedForName (.error refused) ↔ NameError refused := by
  unfold refusedForName NameError
  simp only [Except.error.injEq]

theorem refusedForName_ok : ¬refusedForName (.ok ()) := by
  rintro (wrong | wrong | wrong) <;> cases wrong

theorem normalize_refusal (refuses : normalizeFolderName rawName = .error refused) : ¬NameError refused := by
  unfold normalizeFolderName at refuses
  dsimp only at refuses
  rintro (rfl | rfl | rfl) <;> split_ifs at refuses <;> cases refuses

theorem access_refusal {permission : Authz.Permission}
    (refuses : ensureFolderAccess caller tree folderId permission = .error refused) : ¬NameError refused := by
  unfold ensureFolderAccess at refuses
  split at refuses
  · rcases Authz.authorize_cases with allowed | denied
    · rw [allowed] at refuses
      cases refuses
    · rw [denied] at refuses
      cases refuses
      rintro (wrong | wrong | wrong) <;> cases wrong
  · cases refuses
    rintro (wrong | wrong | wrong) <;> cases wrong

theorem targetAccess_refusal (refuses : ensureTargetAccess caller tree parentId = .error refused) : ¬NameError refused := by
  cases parentId with
  | none => cases refuses
  | some above => exact access_refusal refuses

theorem checkTarget_refusal (refuses : checkTarget caller tree folderId target = some (.error refused)) :
    ¬NameError refused := by
  cases target with
  | none => cases refuses
  | some above =>
    unfold checkTarget at refuses
    dsimp only at refuses
    split at refuses
    · cases refuses
      rintro (wrong | wrong | wrong) <;> cases wrong
    · obtain ⟨walked,_,made⟩ := map_eq_some_iff.mp refuses
      split at made
      · cases made
        rintro (wrong | wrong | wrong) <;> cases wrong
      · exact access_refusal made

section
variable (unique : Unique lower tree.folders) {answered : Except AppError Unit}
include unique

theorem respected_kept (other : ¬refusedForName answered) :
    Respected lower owner tree call (answered,tree) := ⟨unique,fun refused => absurd refused other⟩

theorem respected_taken (names : refusedForName answered)
    (about : wanted owner tree call = some (folderId,parentId,name)) : Respected lower owner tree call (answered,tree) ↔
    Namesake lower tree.folders owner parentId name folderId := by
  constructor
  · intro respected
    obtain ⟨_,_,_,same,sibling⟩ := respected.refused names
    rw [about] at same
    cases same
    exact sibling
  · exact fun sibling => ⟨unique,fun _ => ⟨_,_,_,about,sibling⟩⟩

theorem respected_placed (active : row.Active) :
    Respected lower owner tree call (.ok (),{tree with folders := tree.folders.set folderId row}) ↔
    ¬Namesake lower tree.folders row.userId row.parentId row.name folderId := by
  rw [← unique_set unique active]
  exact ⟨Respected.unique,fun kept => ⟨kept,fun names => absurd names refusedForName_ok⟩⟩

theorem createFolder_respected (fresh : tree.folders.contains folderId = false) :
    Respected lower owner tree (.createFolder policy now folderId parentId rawName)
      (plain (createFolder ⟨owner,policy,now⟩ folderId parentId rawName tree)) ↔
    NamesAgree lower owner tree (.createFolder policy now folderId parentId rawName) := by
  unfold createFolder
  cases named : normalizeFolderName rawName with
  | error refused =>
    refine iff_of_true (respected_kept unique (mt refusedForName_error.mp (normalize_refusal named))) (fun _ ok => ?_)
    rw [named] at ok
    cases ok
  | ok name =>
    dsimp only
    cases granted : ensureTargetAccess ⟨owner,policy,now⟩ tree parentId with
    | error refused =>
      refine iff_of_true (respected_kept unique (mt refusedForName_error.mp (targetAccess_refusal granted))) (fun _ _ ok => ?_)
      rw [granted] at ok
      cases ok
    | ok =>
      have only : NamesAgree lower owner tree (.createFolder policy now folderId parentId rawName) ↔
          (nameTaken tree.folders owner parentId name folderId = true ↔ Namesake lower tree.folders owner parentId name folderId) := by
        refine ⟨fun all => all name named granted,fun one other same _ => ?_⟩
        rw [named] at same
        cases same
        exact one
      rw [only]
      dsimp only
      split
      · rename_i refused
        have taken := refused.resolve_left (by rw [fresh]; exact Bool.false_ne_true)
        have about : wanted owner tree (.createFolder policy now folderId parentId rawName) = some (folderId,parentId,name) := by
          rw [wanted,named]
          rfl
        exact (respected_taken unique (.inl rfl) about).trans ⟨fun sibling => iff_of_true taken sibling,fun agree => agree.mp taken⟩
      · rename_i passed
        have free := (not_or.mp passed).2
        have active : (⟨owner,parentId,name,none⟩ : FolderRow).Active := rfl
        exact (respected_placed unique active).trans ⟨fun none => iff_of_false free none,fun agree => mt agree.mpr free⟩

theorem renameFolder_respected :
    Respected lower owner tree (.renameFolderInPlace folderId rawName) (renameFolderInPlace lower owner folderId rawName tree) ↔
    NamesAgree lower owner tree (.renameFolderInPlace folderId rawName) := by
  unfold renameFolderInPlace
  cases named : normalizeFolderName rawName with
  | error refused =>
    refine iff_of_true (respected_kept unique (mt refusedForName_error.mp (normalize_refusal named))) (fun _ _ ok => ?_)
    rw [named] at ok
    cases ok
  | ok name =>
    dsimp only
    cases found : ownActive tree.folders owner folderId with
    | none =>
      refine iff_of_true (respected_kept unique ?_) (fun _ _ _ there => ?_)
      · rintro (wrong | wrong | wrong) <;> cases wrong
      · rw [found] at there
        cases there
    | some row =>
      obtain ⟨_,owned,active⟩ := ownActive_row found
      have only : NamesAgree lower owner tree (.renameFolderInPlace folderId rawName) ↔ (row.name ≠ name →
          nameTaken tree.folders owner row.parentId name folderId = true →
          Namesake lower tree.folders owner row.parentId name folderId) := by
        refine ⟨fun all => all name row named found,fun one other sibling same there => ?_⟩
        rw [named] at same
        rw [found] at there
        cases same
        cases there
        exact one
      have about : wanted owner tree (.renameFolderInPlace folderId rawName) = some (folderId,row.parentId,name) := by
        rw [wanted,named,found]
        rfl
      rw [only]
      dsimp only
      split
      · rename_i same
        exact iff_of_true (respected_kept unique refusedForName_ok) (fun ne => absurd same ne)
      · rename_i ne
        split
        · rename_i refused refuses
          obtain ⟨rfl,sibling⟩ := ensureUnique_error refuses
          exact iff_of_true ((respected_taken unique (.inl rfl) about).mpr sibling) (fun _ _ => sibling)
        · rename_i passed
          have none := ensureUnique_ok.mp passed
          split
          · rename_i taken
            exact (respected_taken unique (.inr (.inl rfl)) about).trans ⟨fun sibling _ _ => sibling,fun agree => agree ne taken⟩
          · rename_i free
            refine iff_of_true ((respected_placed unique ?_).mpr ?_) (fun _ taken => absurd taken free)
            · exact active
            · rw [← owned] at none
              exact none

end

theorem moveFolder_respected {answered : Except AppError FolderRow × Tree} (unique : Unique lower tree.folders)
    (returned : moveFolderInPlace lower ⟨owner,policy,now⟩ folderId target tree = some answered) :
    Respected lower owner tree (.moveFolderInPlace policy now folderId target) (plain answered) ↔
    NamesAgree lower owner tree (.moveFolderInPlace policy now folderId target) := by
  unfold moveFolderInPlace at returned
  dsimp only at returned
  cases found : ownActive tree.folders owner folderId with
  | none =>
    rw [found] at returned
    cases returned
    refine iff_of_true (respected_kept unique ?_) (fun _ there => ?_)
    · rintro (wrong | wrong | wrong) <;> cases wrong
    · rw [found] at there
      cases there
  | some row =>
    rw [found] at returned
    obtain ⟨_,owned,active⟩ := ownActive_row found
    have only : NamesAgree lower owner tree (.moveFolderInPlace policy now folderId target) ↔ (row.parentId ≠ target →
        checkTarget ⟨owner,policy,now⟩ tree folderId target = some (.ok ()) →
        nameTaken tree.folders owner target row.name folderId = true → Namesake lower tree.folders owner target row.name folderId) := by
      refine ⟨fun all => all row found,fun one other there => ?_⟩
      rw [found] at there
      cases there
      exact one
    have about : wanted owner tree (.moveFolderInPlace policy now folderId target) = some (folderId,target,row.name) := by
      rw [wanted,found]
      rfl
    rw [only]
    dsimp only at returned
    split at returned
    · rename_i same
      cases returned
      refine iff_of_true (respected_kept unique ?_) (fun ne => absurd same ne)
      rintro (wrong | wrong | wrong) <;> cases wrong
    · rename_i ne
      obtain ⟨checked,passed,made⟩ := map_eq_some_iff.mp returned
      split at made
      · cases made
        refine iff_of_true (respected_kept unique (mt refusedForName_error.mp (checkTarget_refusal passed))) (fun _ ok => ?_)
        rw [passed] at ok
        cases ok
      · split at made
        · rename_i refused refuses
          cases made
          obtain ⟨rfl,sibling⟩ := ensureUnique_error refuses
          exact iff_of_true ((respected_taken unique (.inl rfl) about).mpr sibling) (fun _ _ _ => sibling)
        · rename_i alone
          have none := ensureUnique_ok.mp alone
          split at made
          · rename_i taken
            cases made
            exact (respected_taken unique (.inr (.inl rfl)) about).trans
              ⟨fun sibling _ _ _ => sibling,fun agree => agree ne passed taken⟩
          · rename_i free
            cases made
            refine iff_of_true ((respected_placed unique ?_).mpr ?_) (fun _ _ taken => absurd taken free)
            · exact active
            · rw [← owned] at none
              exact none

theorem softDelete_respected {answered : Except AppError String × Tree} (unique : Unique lower tree.folders)
    (returned : softDeleteOwnedFolder now owner folderId tree = some answered) :
    Respected lower owner tree (.softDeleteOwnedFolder now folderId) (plain answered) := by
  unfold softDeleteOwnedFolder at returned
  split at returned
  · cases returned
    refine respected_kept unique ?_
    rintro (wrong | wrong | wrong) <;> cases wrong
  · split at returned
    · cases returned
      exact respected_kept unique refusedForName_ok
    · obtain ⟨folderIds,_,rfl⟩ := map_eq_some_iff.mp returned
      refine ⟨(unique_marked (fun _ _ => trashFolder_same)).mpr ?_,fun names => absurd names refusedForName_ok⟩
      intro id other row sibling present there active alive near
      exact unique id other row sibling present there (trashFolder_active active) (trashFolder_active alive) near

theorem checkParent_refusal (refuses : checkParent tree.folders owner row = .error refused) (names : NameError refused)
    (present : tree.folders.get folderId = some row) (trashed : ¬row.Active) :
    Namesake lower tree.folders owner row.parentId row.name folderId := by
  unfold checkParent at refuses
  split at refuses
  · cases refuses
  · rename_i above linked
    split at refuses
    · cases refuses
      exact absurd names (by unfold NameError; decide)
    · split at refuses
      · rename_i conflicting
        obtain ⟨id,sibling,there,matches_⟩ := any_iff.mp conflicting
        obtain ⟨owned,inside,named,active⟩ := of_decide_eq_true matches_
        refine ⟨id,sibling,there,?_,owned,inside.trans linked.symm,active,by rw [named]⟩
        rintro rfl
        rw [present] at there
        cases there
        exact trashed active
      · cases refuses

theorem restoreFolder_respected {answered : Except AppError Bool × Tree} (unique : Unique lower tree.folders)
    (returned : restoreFolder owner folderId tree = some answered) :
    Respected lower owner tree (.restoreFolder folderId) (plain answered) ↔ NamesAgree lower owner tree (.restoreFolder folderId) := by
  unfold restoreFolder at returned
  split at returned
  · rename_i missing
    cases returned
    refine iff_of_true (respected_kept unique refusedForName_ok) (fun top present owned => ?_)
    rw [present,filter_some,if_pos (decide_eq_true owned)] at missing
    cases missing
  · rename_i row found
    obtain ⟨present,owned⟩ := filter_eq_some_iff.mp found
    have owned := of_decide_eq_true owned
    split at returned
    · rename_i active
      cases returned
      refine iff_of_true (respected_kept unique refusedForName_ok) (fun top there _ trashed => ?_)
      rw [present] at there
      cases there
      exact absurd active trashed
    · rename_i trashed
      split at returned
      · rename_i refused refuses
        cases returned
        refine iff_of_true ⟨unique,fun names => ?_⟩ (fun top there _ _ ok => ?_)
        · exact ⟨folderId,row.parentId,row.name,by rw [wanted,present]; rfl,
            checkParent_refusal refuses (refusedForName_error.mp names) present trashed⟩
        · rw [present] at there
          cases there
          rw [refuses] at ok
          cases ok
      · rename_i passed
        obtain ⟨folderIds,walked,rfl⟩ := map_eq_some_iff.mp returned
        have back : ∀ id row, (untrashFolder owner folderIds id row).Active ↔ ComesBack tree owner folderId id row := by
          intro id row
          rw [untrashFolder_active,subtreeWalk_mem walked]
          rfl
        have marked : Unique lower (tree.folders.mapEntries (untrashFolder owner folderIds)) ↔
            ∀ id other row sibling, tree.folders.get id = some row → tree.folders.get other = some sibling →
              ComesBack tree owner folderId id row → ComesBack tree owner folderId other sibling → Beside lower row sibling → id = other := by
          simp only [← back]
          exact unique_marked (fun _ _ => untrashFolder_same)
        constructor
        · intro respected top _ _ _ _
          exact marked.mp respected.unique
        · intro agree
          exact ⟨marked.mpr (agree row present owned trashed passed),fun names => absurd names refusedForName_ok⟩

theorem answer_respected (unique : Unique lower tree.folders) (answered : answer lower owner tree call = some result) :
    Respected lower owner tree call result ↔ NamesAgree lower owner tree call := by
  cases call with
  | createFolder policy now folderId parentId rawName =>
    unfold answer at answered
    dsimp only at answered
    split at answered
    · cases answered
    · rename_i fresh
      cases answered
      exact createFolder_respected unique (Bool.eq_false_iff.mpr fresh)
  | renameFolderInPlace folderId rawName =>
    cases answered
    exact renameFolder_respected unique
  | moveFolderInPlace policy now folderId target =>
    obtain ⟨moved,returned,rfl⟩ := map_eq_some_iff.mp answered
    exact moveFolder_respected unique returned
  | softDeleteOwnedFolder now folderId =>
    obtain ⟨deleted,returned,rfl⟩ := map_eq_some_iff.mp answered
    exact iff_of_true (softDelete_respected unique returned) trivial
  | restoreFolder folderId =>
    obtain ⟨restored,returned,rfl⟩ := map_eq_some_iff.mp answered
    exact restoreFolder_respected unique returned

-- All calls leave different names beside each other and refuse only a name in use, exactly
-- where constraint and folders in use agree on the names the calls bring along.
theorem sibling_names_unique (lower : String → String) (owner : String) (start final : Tree) (calls : List Call)
    (unique : Unique lower start.folders) (ran : Schedule.run (step lower owner) start calls = some final) :
    (∀ left call right before result, calls = left ++ call :: right → Schedule.run (step lower owner) start left = some before →
      answer lower owner before call = some result → Respected lower owner before call result) ↔
    Schedule.Along (step lower owner) (NamesAgree lower owner) start calls := by
  have events : Schedule.Along (step lower owner) (fun tree call => ∀ result, answer lower owner tree call = some result →
      Respected lower owner tree call result) start calls ↔ Schedule.Along (step lower owner) (NamesAgree lower owner) start calls := by
    refine Schedule.along_run_congr (motive := fun tree => Unique lower tree.folders) ?_ ?_ unique ran
    · intro tree call next held fired
      obtain ⟨result,answered,_⟩ := map_eq_some_iff.mp fired
      rw [← answer_respected held answered]
      constructor
      · exact fun all => all result answered
      · intro respected other same
        rw [answered] at same
        cases same
        exact respected
    · intro tree call next held agree fired
      obtain ⟨result,answered,rfl⟩ := map_eq_some_iff.mp fired
      exact ((answer_respected held answered).mpr agree).unique
  rw [← events,Schedule.along_iff]
  exact ⟨fun all left call right before split ran result answered => all left call right before result split ran answered,
    fun all left call right before result split ran answered => all left call right before split ran result answered⟩

end Calls

section Docs

def nobody : Policy := ⟨KeyMap.empty,KeyMap.empty,[],[],KeyMap.empty⟩

def noFolders : Tree := ⟨KeyMap.empty,KeyMap.empty⟩

theorem noFolders_unique {lower : String → String} : Unique lower noFolders.folders := fun _ _ _ _ present => by cases present

def docsCalls : List Call :=
  [.createFolder nobody 0 "a" none "docs",.createFolder nobody 0 "b" (some "a") "Docs",.renameFolderInPlace "b" "drafts",
   .moveFolderInPlace nobody 0 "b" none,.softDeleteOwnedFolder 1 "a",.restoreFolder "a"]

theorem sibling_names_unique_docs : ∃ final, Schedule.run (step String.toLower "ann") noFolders docsCalls = some final ∧
    ((∀ left call right before result, docsCalls = left ++ call :: right →
      Schedule.run (step String.toLower "ann") noFolders left = some before →
      answer String.toLower "ann" before call = some result → Respected String.toLower "ann" before call result) ↔
    Schedule.Along (step String.toLower "ann") (NamesAgree String.toLower "ann") noFolders docsCalls) := by
  have goes : (Schedule.run (step String.toLower "ann") noFolders docsCalls).isSome = true := by decide +kernel
  obtain ⟨final,ran⟩ := isSome_iff_exists.mp goes
  exact ⟨final,ran,sibling_names_unique String.toLower "ann" noFolders final docsCalls noFolders_unique ran⟩

def docsTwice : List Call := [.createFolder nobody 0 "a" none "docs",.createFolder nobody 0 "b" none "docs"]

def docsTrashed : List Call :=
  [.createFolder nobody 0 "a" none "top",.createFolder nobody 0 "b" (some "a") "docs",.softDeleteOwnedFolder 1 "b"]

theorem docs_not_unique : Unique String.toLower noFolders.folders ∧
    (∃ final, Schedule.run (step String.toLower "ann") noFolders docsTwice = some final ∧ ¬Unique String.toLower final.folders) ∧
    ∃ before result, Schedule.run (step String.toLower "ann") noFolders docsTrashed = some before ∧
      answer String.toLower "ann" before (.createFolder nobody 2 "c" (some "a") "docs") = some result ∧ refusedForName result.1 ∧
      ¬Namesake String.toLower before.folders "ann" (some "a") "docs" "c" := by
  refine ⟨noFolders_unique,?_,?_⟩
  · obtain ⟨final,ran,first,second⟩ : ∃ final, Schedule.run (step String.toLower "ann") noFolders docsTwice = some final ∧
        final.folders.get "a" = some ⟨"ann",none,"docs",none⟩ ∧ final.folders.get "b" = some ⟨"ann",none,"docs",none⟩ :=
      Schedule.reached_of_any (by decide +kernel)
    exact ⟨final,ran,fun unique => absurd (unique "a" "b" _ _ first second rfl rfl ⟨rfl,rfl,rfl⟩) (by decide)⟩
  · obtain ⟨before,ran,atRoot,answered⟩ : ∃ before, Schedule.run (step String.toLower "ann") noFolders docsTrashed = some before ∧
        (∀ entry ∈ before.folders.entries, entry.2.Active → entry.2.parentId = none) ∧
        (answer String.toLower "ann" before (.createFolder nobody 2 "c" (some "a") "docs")).map (·.1) = some (.error conflict) :=
      Schedule.reached_of_any (by decide +kernel)
    obtain ⟨result,answered,refused⟩ := map_eq_some_iff.mp answered
    refine ⟨before,result,ran,answered,.inl refused,?_⟩
    rintro ⟨id,row,present,_,_,inside,active,_⟩
    have root := atRoot _ (get_eq_some.mp present) active
    rw [inside] at root
    cases root

end Docs

end Ownly.Folders.Names
