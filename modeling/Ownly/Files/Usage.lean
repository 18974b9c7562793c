import Ownly.Files.Drive
import Ownly.Folders.RecycleBin
import Ownly.Uploads.Charges

-- The active bytes of a user against the quota, over the calls that let a library grow or
-- shrink, one after the other.
namespace Ownly.Files.Usage
open Storage (Bytes)
open Option KeyMap

-- The library and its folders; `places` has the folder_id of each file that is in one.
structure System where
  lib : Library
  places : KeyMap String String
  folders : KeyMap String Folders.FolderRow

def System.tree (sys : System) : Folders.Tree :=
  ⟨sys.folders,sys.lib.files.view (fun id row => ⟨row.userId,sys.places.get id,row.deletedAt⟩)⟩

def System.marked (sys : System) (tree : Folders.Tree) : System :=
  {sys with
    folders := tree.folders
    lib := {sys.lib with files := sys.lib.files.mapEntries (fun id row =>
      {row with deletedAt := (tree.files.get id).bind (·.deletedAt)})}}

def fileShare (userId : String) (row : FileRow) : Int := if row.userId = userId ∧ row.Active then row.sizeBytes else 0

-- The sum of `load_user_used_bytes`.
def activeBytes (files : KeyMap String FileRow) (userId : String) : Int := files.total (fun _ row => fileShare userId row)

-- `reserved` is what the sessions of the user reserve, `fault` an error of the database.
def ensureWithinQuota (quota : String → Int) (files : KeyMap String FileRow) (userId : String) (incoming reserved : Int)
    (fault : Option AppError) : Option AppError :=
  if incoming ≤ 0 then none
  else match fault with
    | some error => some error
    | none => match Uploads.Quota.bigint (activeBytes files userId) with
      | .error error => some error
      | .ok used => match Uploads.Quota.ensureWithinQuota (quota userId) used reserved incoming with
        | .error error => some error
        | .ok () => none

inductive Event where
  | upload (upload : Upload) (folderId : Option String) (bytes : Bytes) (faults : Faults) (tie : Nat) (reserved : Int)
  | receive (sessionId : String) (held : Drive.Resumable)
  | complete (sessionId : String) (session : Session) (folderId : Option String) (faults : Faults) (tie : Nat) (now reserved : Int)
  | copyFile (fileId newFileId userId : String) (folderId : Option String) (now reserved : Int) (fault insert : Option AppError)
  | putFileContent (fileId : String) (body : Bytes) (put updates : Option AppError)
  | softDeleteFile (fileId : String) (now : Int)
  | softDeleteOwnedFolder (now : Int) (userId folderId : String)
  | restoreFile (userId fileId : String)
  | restoreFolder (userId folderId : String)
  | encoded (fileId : String) (bundle : Bytes)

def checked (quota : String → Int) (lib : Library) (userId : String) (incoming reserved : Int) (faults : Faults) : Faults :=
  {faults with quota := ensureWithinQuota quota lib.files userId incoming reserved faults.quota}

def copyFile (quota : String → Int) (lib : Library) (fileId newFileId userId : String) (now reserved : Int) (fault insert : Option AppError) :
    Outcome :=
  match lib.files.get fileId with
  | none => (lib,.error .notFound)
  | some source =>
    if source.Active then
      guarded (ensureWithinQuota quota lib.files userId source.sizeBytes reserved fault) lib
        (Drive.copyFile lib fileId newFileId userId now insert)
    else (lib,.error .notFound)

def System.inserted (sys : System) (fileId : String) (folderId : Option String) (lib : Library) : System :=
  {sys with
    lib := lib
    places := if sys.lib.files.contains fileId then sys.places else match folderId with
      | none => sys.places.remove fileId
      | some inside => sys.places.set fileId inside}

def step (sha256 : Bytes → String) (quota : String → Int) (sys : System) : Event → Option System
  | .upload upload folderId bytes faults tie reserved =>
    if 0 ≤ reserved then
      let faults := checked quota sys.lib upload.userId bytes.length reserved faults
      let spooled := Drive.spool sys.lib upload.fileId bytes
      some (sys.inserted upload.fileId folderId (finalizeSpooledUpload sha256 faults tie spooled (Drive.Upload.sized upload bytes)).1)
    else none
  | .receive sessionId held => some {sys with lib := Drive.received sessionId held sys.lib}
  | .complete sessionId session folderId faults tie now reserved =>
    if 0 ≤ reserved ∧ 0 < session.totalSize then
      let faults := checked quota sys.lib session.fileOwnerId session.totalSize reserved faults
      some (sys.inserted session.fileId folderId (completeSession sha256 faults tie now sys.lib sessionId session).1)
    else none
  | .copyFile fileId newFileId userId folderId now reserved fault insert =>
    if 0 ≤ reserved then
      some (sys.inserted newFileId folderId (copyFile quota sys.lib fileId newFileId userId now reserved fault insert).1)
    else none
  | .putFileContent fileId body put updates => some {sys with lib := (Drive.putFileContent sys.lib fileId body put updates).1}
  | .softDeleteFile fileId now => some {sys with lib := Drive.updateRow sys.lib fileId (trashed now)}
  | .softDeleteOwnedFolder now userId folderId =>
    (Folders.softDeleteOwnedFolder now userId folderId sys.tree).map (fun answer => sys.marked answer.2)
  | .restoreFile userId fileId => some (sys.marked (Folders.restoreFile userId fileId sys.tree).2)
  | .restoreFolder userId folderId => (Folders.restoreFolder userId folderId sys.tree).map (fun answer => sys.marked answer.2)
  | .encoded fileId bundle => some {sys with lib := Drive.encoded sys.lib fileId bundle}

-- The bytes that a restore of a folder brings back.
open Classical in
noncomputable def bytesUnder (sys : System) (userId folderId : String) : Int :=
  sys.lib.files.total (fun id row => if row.userId = userId ∧ ¬row.Active ∧ ∃ inside, sys.places.get id = some inside ∧
    Folders.Subtree sys.folders (fun row => decide (row.userId = userId ∧ ¬row.Active)) folderId inside then row.sizeBytes else 0)

-- The comparison of ensure_within_quota saturates: at the greatest quota it refuses nothing,
-- and what a checked call brings has to fit by itself.
def Spared (quota : String → Int) (userId : String) (sys : System) (owner : String) (size : Int) : Prop :=
  Uploads.Quota.i64Max ≤ quota userId → owner = userId → activeBytes sys.lib.files userId + size ≤ quota userId

-- What put_file_content writes and what is restored fits beside the rest of the user's
-- active bytes.
def Fits (quota : String → Int) (userId : String) (sys : System) : Event → Prop
  | .upload upload _ bytes _ _ _ => Spared quota userId sys upload.userId bytes.length
  | .complete _ session _ _ _ _ _ => Spared quota userId sys session.fileOwnerId session.totalSize
  | .copyFile fileId _ owner _ _ _ _ _ => ∀ row, sys.lib.files.get fileId = some row → Spared quota userId sys owner row.sizeBytes
  | .putFileContent fileId body put updates => ∀ row, sys.lib.files.get fileId = some row → row.userId = userId → row.Active →
      body ≠ [] → put = none → updates = none → activeBytes sys.lib.files userId - row.sizeBytes + body.length ≤ quota userId
  | .restoreFile owner fileId => ∀ row, sys.lib.files.get fileId = some row → owner = userId → row.userId = userId → ¬row.Active →
      (∀ inside, sys.places.get fileId = some inside → (Folders.ownActive sys.folders userId inside).isSome = true) →
      activeBytes sys.lib.files userId + row.sizeBytes ≤ quota userId
  | .restoreFolder owner folderId => ∀ row, sys.folders.get folderId = some row → owner = userId → row.userId = userId → ¬row.Active →
      Folders.checkParent sys.folders userId row = .ok () → activeBytes sys.lib.files userId + bytesUnder sys userId folderId ≤ quota userId
  | _ => True

def Sized (files : KeyMap String FileRow) : Prop := ∀ id row, files.get id = some row → 0 ≤ row.sizeBytes

variable {quota : String → Int}

section Inserts
variable {files : KeyMap String FileRow} {upload : Upload} {lib lib' : Library} {row : FileRow} {outcome : Outcome} {faults : Faults}
  {fault : Option AppError} {next : Library → Outcome} {contentHash sessionId : String} {source : DedupSource} {bytes : Bytes} {tie : Nat}
  {sha256 : Bytes → String} {id owner : String} {size : Int} {session : Session} {now : Int}

inductive Charged (files : KeyMap String FileRow) (id owner : String) (size : Int) : KeyMap String FileRow → Prop
  | nothing : Charged files id owner size files
  | row (row : FileRow) (fresh : files.get id = none) (owned : row.userId = owner) (sized : row.sizeBytes = size) (active : row.Active) :
      Charged files id owner size (files.set id row)

theorem charged_guarded (before : Charged files id owner size lib.files) (rest : Charged files id owner size outcome.1.files) :
    Charged files id owner size (guarded fault lib outcome).1.files := by
  cases fault with
  | none => exact rest
  | some error => exact before

theorem guarded_files (same : outcome.1.files = lib.files) : (guarded fault lib outcome).1.files = lib.files := by
  cases fault with
  | none => exact same
  | some error => rfl

theorem andThen_charged (first : Charged files id owner size outcome.1.files) (rest : ∀ stored, (next stored).1.files = stored.files) :
    Charged files id owner size (andThen outcome next).1.files := by
  obtain ⟨stored,result⟩ := outcome
  cases result with
  | error error => exact first
  | ok _ =>
    change Charged files id owner size (next stored).1.files
    rw [rest stored]
    exact first

theorem insertRow_charged (owned : row.userId = owner) (sized : row.sizeBytes = size) (active : row.Active)
    (rest : ∀ stored, (next stored).1.files = stored.files) :
    Charged lib.files id owner size (insertRow fault id row lib next).1.files := by
  refine charged_guarded .nothing ?_
  cases found : lib.files.get id with
  | some _ => exact .nothing
  | none =>
    dsimp only
    rw [rest]
    exact .row row found owned sized active

theorem deduped_charged {isVideo : Bool} (same : lib'.files = lib.files)
    (found : findDedupSource lib.files tie upload.userId contentHash upload.sizeBytes isVideo = some source) :
    Charged lib.files upload.fileId upload.userId upload.sizeBytes (insertDedupedFile faults lib' upload contentHash source).1.files := by
  obtain ⟨_,like,_⟩ := findDedupSource_some found
  rw [← same]
  exact insertRow_charged rfl like.2.2.1 rfl (fun stored => guarded_files rfl)

theorem nonVideo_charged {spooled : Bool} (same : lib'.files = lib.files) :
    Charged lib.files upload.fileId upload.userId upload.sizeBytes (insertNonVideoFileAndJobs faults lib' upload contentHash spooled).1.files := by
  rw [← same]
  refine insertRow_charged rfl rfl rfl ?_
  intro stored
  split
  · exact guarded_files rfl
  · cases spooled <;> rfl

theorem newBlob_charged : Charged lib.files upload.fileId upload.userId upload.sizeBytes (finalizeNewBlobFromSpool faults lib upload contentHash bytes).1.files := by
  unfold finalizeNewBlobFromSpool
  split
  · refine charged_guarded .nothing (insertRow_charged rfl rfl rfl ?_)
    intro stored
    exact guarded_files (guarded_files (guarded_files (guarded_files rfl)))
  · split
    · exact .nothing
    · exact andThen_charged (nonVideo_charged rfl) (fun stored => guarded_files rfl)

def Charges (faults : Faults) (lib : Library) (upload : Upload) (outcome : Outcome) : Prop :=
  Charged lib.files upload.fileId upload.userId upload.sizeBytes outcome.1.files ∧ (faults.quota ≠ none → outcome.1.files = lib.files)

theorem charges_nothing (same : outcome.1.files = lib.files) : Charges faults lib upload outcome := by
  refine ⟨?_,fun _ => same⟩
  rw [same]
  exact .nothing

theorem charges_asked (rest : Charged lib.files upload.fileId upload.userId upload.sizeBytes outcome.1.files) :
    Charges faults lib upload (guarded faults.quota lib outcome) := by
  unfold Charges
  cases faults.quota with
  | some error => exact ⟨.nothing,fun _ => rfl⟩
  | none => exact ⟨rest,fun none => absurd rfl none⟩

theorem andThen_charges (first : Charges faults lib upload outcome) (rest : ∀ stored, (next stored).1.files = stored.files) :
    Charges faults lib upload (andThen outcome next) := by
  refine ⟨andThen_charged first.1 rest,fun exceeded => ?_⟩
  have same := first.2 exceeded
  obtain ⟨stored,result⟩ := outcome
  cases result with
  | error error => exact same
  | ok _ => exact (rest stored).trans same

theorem spooled_charges : Charges faults lib upload (finalizeSpooledUpload sha256 faults tie lib upload) := by
  unfold finalizeSpooledUpload
  split
  · exact charges_nothing rfl
  · refine charges_asked ?_
    split
    · exact .nothing
    · refine charged_guarded .nothing (charged_guarded .nothing ?_)
      split
      · rename_i found
        exact andThen_charged (deduped_charged rfl found) (fun _ => rfl)
      · exact newBlob_charged

theorem instant_charges : Charges faults lib upload (finalizeInstantDedupUpload faults tie lib upload contentHash) := by
  unfold finalizeInstantDedupUpload
  split
  · exact charges_nothing rfl
  · refine charges_asked (charged_guarded .nothing ?_)
    split
    · exact .nothing
    · rename_i found
      exact deduped_charged rfl found

theorem put_charged : Charged lib.files upload.fileId upload.userId upload.sizeBytes (putStagedUpload sha256 faults tie lib upload sessionId).1.files := by
  unfold putStagedUpload
  split
  · exact .nothing
  · refine charged_guarded .nothing (charged_guarded .nothing ?_)
    split
    · rename_i found
      refine andThen_charged ?_ (fun _ => rfl)
      split
      · exact deduped_charged rfl found
      · exact deduped_charged rfl found
    · exact andThen_charged (nonVideo_charged rfl) (fun stored => guarded_files rfl)

theorem staged_charges {known : Option String} :
    Charges faults lib upload (finalizeStagedUpload sha256 faults tie lib upload sessionId known) := by
  unfold finalizeStagedUpload
  split
  · exact charges_nothing rfl
  · refine charges_asked ?_
    split
    · exact .nothing
    · split
      · exact put_charged
      · refine charged_guarded .nothing ?_
        split
        · rename_i found
          exact andThen_charged (deduped_charged rfl found) (fun _ => rfl)
        · exact put_charged

theorem session_charges : Charges faults lib (session.upload session.totalSize now)
    (finalizeSession sha256 faults tie now lib sessionId session) := by
  unfold finalizeSession
  split
  · refine andThen_charges instant_charges ?_
    intro stored
    cases session.isVideo <;> rfl
  · split
    · split
      · exact charges_nothing rfl
      · rename_i resolved
        rw [(resolveSessionSource_ok resolved).2]
        exact spooled_charges
    · exact staged_charges

theorem complete_charges : Charges faults lib (session.upload session.totalSize now)
    ((completeSession sha256 faults tie now lib sessionId session).1,(completeSession sha256 faults tie now lib sessionId session).2.2) := by
  unfold completeSession
  split
  · exact charges_nothing rfl
  · split
    · exact charges_nothing rfl
    · split
      · exact charges_nothing rfl
      · have finalised : Charges faults lib (session.upload session.totalSize now)
            (finalizeSession sha256 faults tie now lib sessionId session) := session_charges
        split
        all_goals
          rename_i answered
          rw [answered] at finalised
          exact finalised

theorem copy_charged {fileId newFileId userId : String} {now reserved : Int} {insert : Option AppError}
    (present : lib.files.get fileId = some row) :
    Charged lib.files newFileId userId row.sizeBytes (copyFile quota lib fileId newFileId userId now reserved fault insert).1.files ∧
    (ensureWithinQuota quota lib.files userId row.sizeBytes reserved fault ≠ none →
      (copyFile quota lib fileId newFileId userId now reserved fault insert).1.files = lib.files) := by
  unfold copyFile
  rw [present]
  dsimp only
  split
  · rename_i active
    cases ensureWithinQuota quota lib.files userId row.sizeBytes reserved fault with
    | some error => exact ⟨.nothing,fun _ => rfl⟩
    | none =>
      refine ⟨?_,fun none => absurd rfl none⟩
      dsimp only [guarded]
      unfold Drive.copyFile
      rw [present]
      dsimp only
      rw [if_pos active]
      split
      · exact .nothing
      · have same : (Drive.copyStorageArtifacts row.storageKey (storageKey userId newFileId) lib).files = lib.files := rfl
        rw [← same]
        exact insertRow_charged rfl rfl rfl (fun _ => rfl)
  · exact ⟨.nothing,fun _ => rfl⟩

end Inserts

section Sums
variable {quota : String → Int} {files files' : KeyMap String FileRow} {userId owner id : String} {size incoming reserved : Int}
  {fault : Option AppError} {row row' : FileRow}

theorem ensureWithinQuota_room (bounded : quota userId < Uploads.Quota.i64Max) (credit : 0 ≤ reserved)
    (within : activeBytes files userId ≤ quota userId) (passed : ensureWithinQuota quota files userId incoming reserved fault = none) :
    activeBytes files userId + max incoming 0 ≤ quota userId := by
  unfold ensureWithinQuota at passed
  split at passed
  · omega
  · rename_i positive
    split at passed
    · cases passed
    · split at passed
      · cases passed
      · rename_i loaded
        split at passed
        · cases passed
        · rename_i ensured
          have used := Uploads.Quota.bigint_ok loaded
          have room := Uploads.Quota.ensureWithinQuota_ok (by omega) bounded ensured
          omega

theorem sized_set (sized : Sized files) (nonneg : 0 ≤ row.sizeBytes) : Sized (files.set id row) := by
  intro other found present
  rw [get_set] at present
  split at present
  · cases present
    exact nonneg
  · exact sized other found present

theorem sized_marked {f : String → FileRow → FileRow} (same : ∀ id row, (f id row).sizeBytes = row.sizeBytes) (sized : Sized files) :
    Sized (files.mapEntries f) := by
  intro id row present
  rw [get_mapEntries] at present
  obtain ⟨before,there,rfl⟩ := map_eq_some_iff.mp present
  rw [same]
  exact sized id before there

theorem charged_within (sized : Sized files) (credit : 0 ≤ reserved) (positive : 0 ≤ size)
    (within : activeBytes files userId ≤ quota userId) (charged : Charged files id owner size files')
    (asked : ensureWithinQuota quota files owner size reserved fault ≠ none → files' = files) :
    Sized files' ∧ ((Uploads.Quota.i64Max ≤ quota userId → owner = userId → activeBytes files userId + size ≤ quota userId) →
      activeBytes files' userId ≤ quota userId) := by
  cases charged with
  | nothing => exact ⟨sized,fun _ => within⟩
  | row row fresh owned large active =>
    refine ⟨sized_set sized (by rw [large]; exact positive),fun spared => ?_⟩
    have passed : ensureWithinQuota quota files owner size reserved fault = none := by
      by_contra exceeded
      have there : (files.set id row).get id = some row := get_set_self
      rw [asked exceeded,fresh] at there
      cases there
    have more : activeBytes (files.set id row) userId = fileShare userId row + activeBytes files userId := total_insert fresh
    rw [more]
    unfold fileShare
    split
    · rename_i counts
      have same : owner = userId := owned.symm.trans counts.1
      subst same
      by_cases bounded : quota owner < Uploads.Quota.i64Max
      · have room := ensureWithinQuota_room bounded credit within passed
        omega
      · have room := spared (not_lt.mp bounded) rfl
        omega
    · omega

theorem activeBytes_set (present : files.get id = some row) :
    activeBytes (files.set id row') userId = activeBytes files userId - fileShare userId row + fileShare userId row' :=
  total_set present

end Sums

section Marks
variable {sys : System} {tree : Folders.Tree} {userId owner fileId folderId : String} {now : Int} {folderIds : List String}
  {f : String → Folders.FileRow → Folders.FileRow} {file : Folders.FileRow} {row : FileRow}

def remarked (sys : System) (f : String → Folders.FileRow → Folders.FileRow) (id : String) (row : FileRow) : FileRow :=
  {row with deletedAt := (f id ⟨row.userId,sys.places.get id,row.deletedAt⟩).deletedAt}

section
variable (made : ∀ id, tree.files.get id = (sys.tree.files.get id).map (f id))
include made

theorem marked_files :
    ∀ id, (sys.marked tree).lib.files.get id = (sys.lib.files.mapEntries (remarked sys f)).get id := by
  intro id
  unfold System.marked
  dsimp only
  rw [get_mapEntries,get_mapEntries,made,System.tree,get_view]
  cases sys.lib.files.get id with
  | none => rfl
  | some row => rfl

theorem marked_bytes :
    activeBytes (sys.marked tree).lib.files userId = sys.lib.files.total (fun id row => fileShare userId (remarked sys f id row)) := by
  unfold activeBytes
  rw [total_alike (marked_files made),total_mapEntries]

end

theorem marked_sized (sized : Sized sys.lib.files) : Sized (sys.marked tree).lib.files := sized_marked (fun _ _ => rfl) sized

theorem marked_same : activeBytes (sys.marked sys.tree).lib.files userId = activeBytes sys.lib.files userId :=
  marked_bytes (f := fun _ row => row) (fun id => by cases sys.tree.files.get id <;> rfl)

theorem tree_file : sys.tree.files.get fileId = (sys.lib.files.get fileId).map (fun row => ⟨row.userId,sys.places.get fileId,row.deletedAt⟩) :=
  get_view

theorem remarked_less {id : String} (less : (remarked sys f id row).Active → row.Active) (nonneg : 0 ≤ row.sizeBytes) :
    fileShare userId (remarked sys f id row) ≤ fileShare userId row := by
  unfold fileShare
  split
  · rename_i counts
    rw [if_pos ⟨counts.1,less counts.2⟩]
    exact Int.le_refl _
  · split
    · exact nonneg
    · exact Int.le_refl _

theorem trashFile_active (active : (Folders.trashFile now owner folderIds file).Active) : file.Active := by
  unfold Folders.trashFile at active
  split at active
  · cases active
  · exact active

theorem softDeleteFolder_bytes {answer : Except AppError String × Folders.Tree} (sized : Sized sys.lib.files)
    (returned : Folders.softDeleteOwnedFolder now owner folderId sys.tree = some answer) :
    activeBytes (sys.marked answer.2).lib.files userId ≤ activeBytes sys.lib.files userId := by
  unfold Folders.softDeleteOwnedFolder at returned
  split at returned
  · cases returned
    exact marked_same.le
  · split at returned
    · cases returned
      exact marked_same.le
    · obtain ⟨folderIds,_,rfl⟩ := map_eq_some_iff.mp returned
      dsimp only
      rw [marked_bytes (f := fun _ => Folders.trashFile now owner folderIds) (fun id => Folders.trashAll_file)]
      refine total_mono ?_
      intro id row present
      exact remarked_less trashFile_active (sized id row present)

theorem restoreFile_bytes (present : sys.lib.files.get fileId = some row) (owned : row.userId = owner) (trashed : ¬row.Active)
    (placed : ∀ inside, sys.places.get fileId = some inside → (Folders.ownActive sys.folders owner inside).isSome = true) :
    activeBytes (sys.marked (Folders.restoreFile owner fileId sys.tree).2).lib.files userId =
      activeBytes sys.lib.files userId + if owner = userId then row.sizeBytes else 0 := by
  have there : sys.tree.files.get fileId = some ⟨row.userId,sys.places.get fileId,row.deletedAt⟩ := by
    rw [tree_file,present]
    rfl
  have open_ : (sys.places.get fileId).any (fun parentId => (Folders.ownActive sys.folders owner parentId).isNone) = false := by
    cases inside : sys.places.get fileId with
    | none => rfl
    | some folderId =>
      have active := placed folderId inside
      rw [any_some]
      simpa using active
  have restored : (Folders.restoreFile owner fileId sys.tree).2 =
      {sys.tree with files := sys.tree.files.set fileId ⟨row.userId,sys.places.get fileId,none⟩} := by
    unfold Folders.restoreFile
    have still : ¬(⟨row.userId,sys.places.get fileId,row.deletedAt⟩ : Folders.FileRow).Active := trashed
    rw [there,filter_some,if_pos (decide_eq_true owned)]
    dsimp only
    rw [if_neg still,if_neg (by rw [System.tree]; exact Bool.eq_false_iff.mp open_)]
  -- the mark is off this row and no other
  have marked : ∀ id, (sys.marked (Folders.restoreFile owner fileId sys.tree).2).lib.files.get id =
      (sys.lib.files.set fileId {row with deletedAt := none}).get id := by
    intro id
    rw [System.marked,restored]
    dsimp only
    rw [get_mapEntries,get_set,get_set]
    by_cases same : id = fileId
    · subst same
      rw [if_pos rfl,if_pos rfl,present]
      rfl
    · rw [if_neg same,if_neg same,tree_file]
      cases sys.lib.files.get id <;> rfl
  have before : fileShare userId row = 0 := if_neg (fun counts => trashed counts.2)
  have after : fileShare userId {row with deletedAt := none} = if owner = userId then row.sizeBytes else 0 := by
    unfold fileShare
    rw [← owned]
    exact if_congr (and_iff_left rfl) rfl rfl
  calc activeBytes (sys.marked (Folders.restoreFile owner fileId sys.tree).2).lib.files userId
      = activeBytes (sys.lib.files.set fileId {row with deletedAt := none}) userId := total_alike marked
    _ = activeBytes sys.lib.files userId - fileShare userId row + fileShare userId {row with deletedAt := none} := activeBytes_set present
    _ = activeBytes sys.lib.files userId + if owner = userId then row.sizeBytes else 0 := by rw [before,after,Int.sub_zero]

theorem restoreFile_iff (within : activeBytes sys.lib.files userId ≤ quota userId) :
    activeBytes (sys.marked (Folders.restoreFile owner fileId sys.tree).2).lib.files userId ≤ quota userId ↔
      Fits quota userId sys (.restoreFile owner fileId) := by
  by_cases restorable : ∃ row, sys.lib.files.get fileId = some row ∧ row.userId = owner ∧ ¬row.Active ∧
      ∀ inside, sys.places.get fileId = some inside → (Folders.ownActive sys.folders owner inside).isSome = true
  · obtain ⟨row,present,owned,trashed,placed⟩ := restorable
    rw [restoreFile_bytes present owned trashed placed]
    constructor
    · rintro fits other there rfl _ _ _
      rw [present] at there
      cases there
      rw [if_pos rfl] at fits
      exact fits
    · intro fits
      split
      · rename_i same
        subst same
        exact fits row present rfl owned trashed placed
      · omega
  · have kept : (Folders.restoreFile owner fileId sys.tree).2 = sys.tree := by
      unfold Folders.restoreFile
      rw [tree_file]
      cases present : sys.lib.files.get fileId with
      | none => rfl
      | some row =>
        rw [map_some,filter_some]
        by_cases owned : row.userId = owner
        · rw [if_pos (decide_eq_true owned)]
          dsimp only
          split
          · rfl
          · rename_i trashed
            split
            · rfl
            · rename_i open_
              refine absurd ⟨row,present,owned,trashed,?_⟩ restorable
              intro inside placed
              rw [placed,any_some] at open_
              rw [isSome_iff_ne_none]
              simpa [System.tree] using open_
        · rw [if_neg (fun same => owned (of_decide_eq_true same))]
    rw [kept,marked_same]
    refine iff_of_true within ?_
    rintro row present rfl owned trashed placed
    exact absurd ⟨row,present,owned,trashed,placed⟩ restorable

theorem untrashFile_marks : (Folders.untrashFile owner folderIds file).deletedAt =
    if file.userId = owner ∧ Folders.inFolders folderIds file ∧ ¬file.Active then none else file.deletedAt := by
  unfold Folders.untrashFile
  split <;> rfl

theorem restoreFolder_bytes (walked : Folders.subtreeWalk (Folders.trashedChildrenOf sys.folders owner) sys.folders folderId = some folderIds) :
    activeBytes (sys.marked (Folders.untrashAll owner folderIds sys.tree)).lib.files userId =
      activeBytes sys.lib.files userId + if owner = userId then bytesUnder sys userId folderId else 0 := by
  rw [marked_bytes (f := fun _ => Folders.untrashFile owner folderIds) (fun id => Folders.untrashAll_file)]
  by_cases same : owner = userId
  · subst same
    rw [if_pos rfl,activeBytes,bytesUnder,← total_add]
    refine total_congr ?_
    intro id row _
    have inside : Folders.inFolders folderIds ⟨row.userId,sys.places.get id,row.deletedAt⟩ ↔ ∃ inside, sys.places.get id = some inside ∧
        Folders.Subtree sys.folders (fun row => decide (row.userId = owner ∧ ¬row.Active)) folderId inside :=
      exists_congr (fun _ => and_congr_right (fun _ => Folders.subtreeWalk_mem walked))
    by_cases back : row.userId = owner ∧ ¬row.Active ∧ ∃ inside, sys.places.get id = some inside ∧
        Folders.Subtree sys.folders (fun row => decide (row.userId = owner ∧ ¬row.Active)) folderId inside
    · have revived : remarked sys (fun _ => Folders.untrashFile owner folderIds) id row = {row with deletedAt := none} := by
        unfold remarked
        rw [untrashFile_marks,if_pos ⟨back.1,inside.mpr back.2.2,back.2.1⟩]
      have before : fileShare owner row = 0 := if_neg (fun counts => back.2.1 counts.2)
      have after : fileShare owner {row with deletedAt := none} = row.sizeBytes := if_pos ⟨back.1,rfl⟩
      rw [revived,before,after,if_pos back,Int.zero_add]
    · have kept : remarked sys (fun _ => Folders.untrashFile owner folderIds) id row = row := by
        unfold remarked
        rw [untrashFile_marks,if_neg (fun all => back ⟨all.1,all.2.2,inside.mp all.2.1⟩)]
      rw [kept,if_neg back,Int.add_zero]
  · rw [if_neg same,Int.add_zero]
    refine total_congr ?_
    intro id row _
    by_cases owned : row.userId = userId
    · have kept : remarked sys (fun _ => Folders.untrashFile owner folderIds) id row = row := by
        unfold remarked
        rw [untrashFile_marks,if_neg (fun all => same (all.1.symm.trans owned))]
      rw [kept]
    · exact (if_neg (fun counts => owned counts.1)).trans (if_neg (fun counts => owned counts.1)).symm

theorem restoreFolder_iff {answer : Except AppError Bool × Folders.Tree}
    (within : activeBytes sys.lib.files userId ≤ quota userId) (returned : Folders.restoreFolder owner folderId sys.tree = some answer) :
    activeBytes (sys.marked answer.2).lib.files userId ≤ quota userId ↔ Fits quota userId sys (.restoreFolder owner folderId) := by
  unfold Folders.restoreFolder at returned
  split at returned
  · rename_i missing
    cases returned
    rw [marked_same]
    refine iff_of_true within ?_
    rintro row present rfl owned
    have none : (sys.folders.get folderId).filter (fun row => decide (row.userId = owner)) = none := missing
    rw [present,filter_some,if_pos (decide_eq_true owned)] at none
    cases none
  · rename_i row found
    obtain ⟨present,owned⟩ := filter_eq_some_iff.mp found
    have present : sys.folders.get folderId = some row := present
    have owned := of_decide_eq_true owned
    split at returned
    · rename_i active
      cases returned
      rw [marked_same]
      refine iff_of_true within ?_
      rintro other there _ _ trashed
      rw [present] at there
      cases there
      exact absurd active trashed
    · rename_i trashed
      split at returned
      · rename_i refuses
        cases returned
        rw [marked_same]
        refine iff_of_true within ?_
        rintro other there rfl _ _ passes
        rw [present] at there
        cases there
        have refused : Folders.checkParent sys.folders owner row = .error _ := refuses
        rw [passes] at refused
        cases refused
      · rename_i passed
        obtain ⟨folderIds,walked,rfl⟩ := map_eq_some_iff.mp returned
        dsimp only
        rw [restoreFolder_bytes walked]
        constructor
        · rintro fits other there rfl _ _ _
          rw [if_pos rfl] at fits
          exact fits
        · intro fits
          split
          · rename_i same
            subst same
            exact fits row present rfl owned trashed passed
          · omega

end Marks

section Runs
variable {sha256 : Bytes → String} {quota : String → Int} {sys next : System} {event : Event} {userId fileId : String} {now : Int} {body : Bytes}
  {put updates : Option AppError}

theorem putFileContent_sized (sized : Sized sys.lib.files) : Sized (Drive.putFileContent sys.lib fileId body put updates).1.files := by
  unfold Drive.putFileContent
  split
  · exact sized
  · split
    · exact sized
    · split
      · cases put with
        | some error => exact sized
        | none =>
          cases updates with
          | some error => exact sized
          | none => exact sized_set sized (Int.natCast_nonneg _)
      · exact sized

theorem putFileContent_iff (within : activeBytes sys.lib.files userId ≤ quota userId) :
    activeBytes (Drive.putFileContent sys.lib fileId body put updates).1.files userId ≤ quota userId ↔
      Fits quota userId sys (.putFileContent fileId body put updates) := by
  unfold Drive.putFileContent
  split
  · rename_i empty
    exact iff_of_true within (fun _ _ _ _ some => absurd empty some)
  · rename_i some_
    cases present : sys.lib.files.get fileId with
    | none =>
      refine iff_of_true within (fun row there => ?_)
      rw [present] at there
      cases there
    | some row =>
      have only : Fits quota userId sys (.putFileContent fileId body put updates) ↔ (row.userId = userId → row.Active → put = none →
          updates = none → activeBytes sys.lib.files userId - row.sizeBytes + body.length ≤ quota userId) := by
        constructor
        · exact fun all owned active stored updated => all row present owned active some_ stored updated
        · intro one other there owned active _ stored updated
          rw [present] at there
          cases there
          exact one owned active stored updated
      rw [only]
      dsimp only
      split
      · rename_i active
        cases put with
        | some error => exact iff_of_true within (fun _ _ stored => by cases stored)
        | none =>
          cases updates with
          | some error => exact iff_of_true within (fun _ _ _ updated => by cases updated)
          | none =>
            have written : activeBytes (sys.lib.files.set fileId {row with sizeBytes := body.length}) userId =
                activeBytes sys.lib.files userId - fileShare userId row + fileShare userId {row with sizeBytes := body.length} :=
              activeBytes_set present
            change activeBytes (sys.lib.files.set fileId {row with sizeBytes := body.length}) userId ≤ quota userId ↔ _
            rw [written]
            by_cases owned : row.userId = userId
            · have before : fileShare userId row = row.sizeBytes := if_pos ⟨owned,active⟩
              have after : fileShare userId {row with sizeBytes := body.length} = body.length := if_pos ⟨owned,active⟩
              rw [before,after]
              exact ⟨fun fits _ _ _ _ => fits,fun fits => fits owned active rfl rfl⟩
            · have before : fileShare userId row = 0 := if_neg (fun counts => owned counts.1)
              have after : fileShare userId {row with sizeBytes := body.length} = 0 := if_neg (fun counts => owned counts.1)
              rw [before,after]
              exact iff_of_true (by omega) (fun same => absurd same owned)
      · rename_i trashed
        exact iff_of_true within (fun _ active => absurd active trashed)

theorem updateRow_within {change : FileRow → Option FileRow} (sized : Sized sys.lib.files)
    (less : ∀ row row', change row = some row' → row'.sizeBytes = row.sizeBytes ∧ (0 ≤ row.sizeBytes → fileShare userId row' ≤ fileShare userId row)) :
    Sized (Drive.updateRow sys.lib fileId change).files ∧
      activeBytes (Drive.updateRow sys.lib fileId change).files userId ≤ activeBytes sys.lib.files userId := by
  unfold Drive.updateRow
  split
  · exact ⟨sized,Int.le_refl _⟩
  · rename_i row' found
    obtain ⟨row,present,changed⟩ := bind_eq_some_iff.mp found
    obtain ⟨same,smaller⟩ := less row row' changed
    have nonneg := sized fileId row present
    refine ⟨sized_set sized (by rw [same]; exact nonneg),?_⟩
    have written : activeBytes (sys.lib.files.set fileId row') userId =
        activeBytes sys.lib.files userId - fileShare userId row + fileShare userId row' := activeBytes_set present
    dsimp only
    rw [written]
    have share := smaller nonneg
    omega

theorem encoded_within {bundle : Bytes} (sized : Sized sys.lib.files) : Sized (Drive.encoded sys.lib fileId bundle).files ∧
    activeBytes (Drive.encoded sys.lib fileId bundle).files userId = activeBytes sys.lib.files userId := by
  unfold Drive.encoded
  split
  · exact ⟨sized,rfl⟩
  · rename_i row present
    split
    · refine ⟨sized_set sized (sized fileId row present),?_⟩
      have written : activeBytes (sys.lib.files.set fileId (Drive.readyRow row)) userId =
          activeBytes sys.lib.files userId - fileShare userId row + fileShare userId (Drive.readyRow row) := activeBytes_set present
      have same : fileShare userId (Drive.readyRow row) = fileShare userId row := rfl
      dsimp only
      rw [written,same]
      omega
    · exact ⟨sized,rfl⟩

theorem received_files {sessionId : String} {held : Drive.Resumable} : (Drive.received sessionId held sys.lib).files = sys.lib.files := by
  unfold Drive.received
  split <;> rfl

theorem spared_bounded {size : Int} (bounded : quota userId < Uploads.Quota.i64Max) : Spared quota userId sys owner size :=
  fun above => absurd above (not_le.mpr bounded)

structure Exact (quota : String → Int) (userId : String) (sys : System) (event : Event) (next : System) : Prop where
  sized : Sized next.lib.files
  enough : Fits quota userId sys event → activeBytes next.lib.files userId ≤ quota userId
  needed : quota userId < Uploads.Quota.i64Max → activeBytes next.lib.files userId ≤ quota userId → Fits quota userId sys event

theorem exact_of_iff (sized : Sized next.lib.files) (same : activeBytes next.lib.files userId ≤ quota userId ↔ Fits quota userId sys event) :
    Exact quota userId sys event next := ⟨sized,same.mpr,fun _ => same.mp⟩

theorem step_fits (sized : Sized sys.lib.files) (within : activeBytes sys.lib.files userId ≤ quota userId)
    (fired : step sha256 quota sys event = some next) : Exact quota userId sys event next := by
  cases event with
  | upload upload folderId bytes faults tie reserved =>
    change (if 0 ≤ reserved then some _ else none) = some next at fired
    split at fired
    · rename_i credit
      cases fired
      obtain ⟨charged,asked⟩ : Charges (checked quota sys.lib upload.userId bytes.length reserved faults)
          (Drive.spool sys.lib upload.fileId bytes) (Drive.Upload.sized upload bytes) _ := spooled_charges
      obtain ⟨still,kept⟩ := charged_within sized credit (Int.natCast_nonneg _) within charged asked
      exact ⟨still,kept,fun bounded _ => spared_bounded bounded⟩
    · cases fired
  | receive sessionId held =>
    cases fired
    have same : (Drive.received sessionId held sys.lib).files = sys.lib.files := received_files
    refine exact_of_iff ?_ (iff_of_true ?_ trivial)
    · exact same.symm ▸ sized
    · exact same.symm ▸ within
  | complete sessionId session folderId faults tie now reserved =>
    change (if 0 ≤ reserved ∧ 0 < session.totalSize then some _ else none) = some next at fired
    split at fired
    · rename_i guarded_
      cases fired
      obtain ⟨charged,asked⟩ : Charges (checked quota sys.lib session.fileOwnerId session.totalSize reserved faults) sys.lib
          (session.upload session.totalSize now) _ := complete_charges
      obtain ⟨still,kept⟩ := charged_within sized guarded_.1 guarded_.2.le within charged asked
      exact ⟨still,kept,fun bounded _ => spared_bounded bounded⟩
    · cases fired
  | copyFile fileId newFileId userId' folderId now reserved fault insert =>
    change (if 0 ≤ reserved then some _ else none) = some next at fired
    split at fired
    · rename_i credit
      cases fired
      cases present : sys.lib.files.get fileId with
      | none =>
        have same : (copyFile quota sys.lib fileId newFileId userId' now reserved fault insert).1 = sys.lib := by
          unfold copyFile
          rw [present]
        rw [same]
        exact exact_of_iff sized (iff_of_true within (fun row there => by rw [present] at there; cases there))
      | some row =>
        obtain ⟨charged,asked⟩ : Charged sys.lib.files newFileId userId' row.sizeBytes _ ∧
            (ensureWithinQuota quota sys.lib.files userId' row.sizeBytes reserved fault ≠ none → _ = sys.lib.files) := copy_charged present
        obtain ⟨still,kept⟩ := charged_within sized credit (sized fileId row present) within charged asked
        exact ⟨still,fun fits => kept (fits row present),fun bounded _ _ _ => spared_bounded bounded⟩
    · cases fired
  | putFileContent fileId body put updates =>
    cases fired
    exact exact_of_iff (putFileContent_sized sized) (putFileContent_iff within)
  | softDeleteFile fileId now =>
    cases fired
    obtain ⟨still,less⟩ : Sized (Drive.updateRow sys.lib fileId (trashed now)).files ∧
        activeBytes (Drive.updateRow sys.lib fileId (trashed now)).files userId ≤ activeBytes sys.lib.files userId := by
      refine updateRow_within sized (fun row row' made => ?_)
      obtain ⟨active,rfl⟩ := trashed_some made
      refine ⟨rfl,fun nonneg => ?_⟩
      have gone : fileShare userId {row with deletedAt := some now} = 0 := if_neg (fun counts => by cases counts.2)
      rw [gone]
      unfold fileShare
      split
      · exact nonneg
      · exact Int.le_refl _
    exact exact_of_iff still (iff_of_true (less.trans within) trivial)
  | softDeleteOwnedFolder now owner folderId =>
    obtain ⟨answer,returned,rfl⟩ := map_eq_some_iff.mp fired
    exact exact_of_iff (marked_sized sized) (iff_of_true ((softDeleteFolder_bytes sized returned).trans within) trivial)
  | restoreFile owner fileId =>
    cases fired
    exact exact_of_iff (marked_sized sized) (restoreFile_iff within)
  | restoreFolder owner folderId =>
    obtain ⟨answer,returned,rfl⟩ := map_eq_some_iff.mp fired
    exact exact_of_iff (marked_sized sized) (restoreFolder_iff within returned)
  | encoded fileId bundle =>
    cases fired
    obtain ⟨still,same⟩ : Sized (Drive.encoded sys.lib fileId bundle).files ∧
        activeBytes (Drive.encoded sys.lib fileId bundle).files userId = activeBytes sys.lib.files userId := encoded_within sized
    exact exact_of_iff still (iff_of_true (same.le.trans within) trivial)

theorem quota_respected (sha256 : Bytes → String) (quota : String → Int) (userId : String) (start final : System) (events : List Event)
    (sized : Sized start.lib.files) (within : activeBytes start.lib.files userId ≤ quota userId)
    (ran : Schedule.run (step sha256 quota) start events = some final) :
    (Schedule.Along (step sha256 quota) (Fits quota userId) start events →
      ∀ left right reached, events = left ++ right → Schedule.run (step sha256 quota) start left = some reached →
        activeBytes reached.lib.files userId ≤ quota userId) ∧
    (quota userId < Uploads.Quota.i64Max →
      (∀ left right reached, events = left ++ right → Schedule.run (step sha256 quota) start left = some reached →
        activeBytes reached.lib.files userId ≤ quota userId) →
      Schedule.Along (step sha256 quota) (Fits quota userId) start events) := by
  constructor
  · intro fits left right reached split ran
    have keep : ∀ sys event next, Sized sys.lib.files ∧ activeBytes sys.lib.files userId ≤ quota userId → Fits quota userId sys event →
        step sha256 quota sys event = some next → Sized next.lib.files ∧ activeBytes next.lib.files userId ≤ quota userId := by
      intro sys event next held fit fired
      have exact_ := step_fits held.1 held.2 fired
      exact ⟨exact_.sized,exact_.enough fit⟩
    exact (fits.reached keep ⟨sized,within⟩ split ran).2
  · intro bounded
    have exact_ : ∀ sys event next, Sized sys.lib.files → activeBytes sys.lib.files userId ≤ quota userId →
        step sha256 quota sys event = some next →
        Sized next.lib.files ∧ (activeBytes next.lib.files userId ≤ quota userId ↔ Fits quota userId sys event) := by
      intro sys event next sized within fired
      have exact_ := step_fits sized within fired
      exact ⟨exact_.sized,exact_.needed bounded,exact_.enough⟩
    exact (Schedule.reached_iff_along exact_ sized within ran).mp

end Runs

section Full

def oneGib : String → Int := fun _ => Uploads.Quota.gib

def film (sizeBytes : Int) : FileRow :=
  ⟨"u",storageKey "u" "film",some "application/zip",false,sizeBytes,none,0,none,false,none,false,none⟩

def withFilm (sizeBytes : Int) : System :=
  ⟨⟨KeyMap.empty.set "film" (film sizeBytes),KeyMap.empty,KeyMap.empty,KeyMap.empty,KeyMap.empty⟩,KeyMap.empty,KeyMap.empty⟩

theorem withFilm_sized {sizeBytes : Int} (nonneg : 0 ≤ sizeBytes) : Sized (withFilm sizeBytes).lib.files :=
  sized_set (fun _ _ none => by cases none) nonneg

def note : Upload := ⟨"note","u","text/plain",false,false,0,2⟩

def restoredBeside : List Event :=
  [.softDeleteFile "film" 1,.upload note none [116] noFaults 0 0,.restoreFile "u" "film"]

theorem quota_respected_note : ∃ final, Schedule.run (step (fun _ => "digest") oneGib) (withFilm 1024) restoredBeside = some final ∧
    (Schedule.Along (step (fun _ => "digest") oneGib) (Fits oneGib "u") (withFilm 1024) restoredBeside →
      ∀ left right reached, restoredBeside = left ++ right →
        Schedule.run (step (fun _ => "digest") oneGib) (withFilm 1024) left = some reached →
        activeBytes reached.lib.files "u" ≤ oneGib "u") ∧
    (oneGib "u" < Uploads.Quota.i64Max →
      (∀ left right reached, restoredBeside = left ++ right →
        Schedule.run (step (fun _ => "digest") oneGib) (withFilm 1024) left = some reached →
        activeBytes reached.lib.files "u" ≤ oneGib "u") →
      Schedule.Along (step (fun _ => "digest") oneGib) (Fits oneGib "u") (withFilm 1024) restoredBeside) := by
  have goes : (Schedule.run (step (fun _ => "digest") oneGib) (withFilm 1024) restoredBeside).isSome = true := by decide +kernel
  obtain ⟨final,ran⟩ := isSome_iff_exists.mp goes
  exact ⟨final,ran,quota_respected (fun _ => "digest") oneGib "u" (withFilm 1024) final restoredBeside
    (withFilm_sized (by decide)) (by decide +kernel) ran⟩

theorem quota_exceeded : Sized (withFilm Uploads.Quota.gib).lib.files ∧ activeBytes (withFilm Uploads.Quota.gib).lib.files "u" ≤ oneGib "u" ∧
    ∃ final, Schedule.run (step (fun _ => "digest") oneGib) (withFilm Uploads.Quota.gib) restoredBeside = some final ∧
      oneGib "u" < activeBytes final.lib.files "u" :=
  ⟨withFilm_sized (by decide),by decide +kernel,Schedule.reached_of_any (by decide +kernel)⟩

end Full

end Ownly.Files.Usage
