import Ownly.Storage.Placement

-- backend/src/files: the rows of the library, the object storage and the staged bytes
-- behind them, and what the queries on content_hash and storage_key answer.
namespace Ownly.Files
open Storage (Key Bytes)
open List

inductive EncodeStatus where
  | queued
  | processing
  | reprocessing
  | ready
  | failed
  | cancelled
  deriving DecidableEq, Repr

-- `isVideo` is what `upload_is_video` says of the row's name. Times are microseconds.
structure FileRow where
  userId : String
  storageKey : Key
  mimeType : Option String
  isVideo : Bool
  sizeBytes : Int
  contentHash : Option String
  createdAt : Int
  deletedAt : Option Int
  hlsReady : Bool
  hlsEncodeStatus : Option EncodeStatus
  audioWaveformReady : Bool
  audioEncodeStatus : Option EncodeStatus
  deriving DecidableEq, Repr

def FileRow.Active (row : FileRow) : Prop := row.deletedAt = none

instance (row : FileRow) : Decidable row.Active := inferInstanceAs (Decidable (_ = _))

def storageKey (ownerId fileId : String) : Key := ["users",ownerId,"files",fileId]

-- `str::starts_with`
def startsWith (lead text : String) : Bool := lead.toList.isPrefixOf text.toList

def mimeStartsWith (lead : String) (mimeType : Option String) : Bool := mimeType.any (startsWith lead)

def isVideoProcessing (row : FileRow) : Bool :=
  mimeStartsWith "video/" row.mimeType && !row.hlsReady && row.hlsEncodeStatus != some .failed &&
    row.hlsEncodeStatus != some .cancelled

def isAudioProcessing (row : FileRow) : Bool :=
  mimeStartsWith "audio/" row.mimeType && !row.audioWaveformReady && row.audioEncodeStatus != some .failed &&
    row.audioEncodeStatus != some .cancelled

def isFileProcessing (row : FileRow) : Bool := isVideoProcessing row || isAudioProcessing row

def ensureFileNotProcessing (row : FileRow) : Except AppError Unit :=
  if isFileProcessing row then .error (.conflict "this file is still processing and cannot be modified yet") else .ok ()

def isHlsStoredVideo (row : FileRow) : Bool := mimeStartsWith "video/" row.mimeType && row.hlsReady

structure DedupSource where
  id : String
  row : FileRow
  deriving DecidableEq, Repr

-- `WHERE user_id = $1 AND content_hash = $2 AND size_bytes = $3 AND deleted_at IS NULL`
def Matches (userId contentHash : String) (sizeBytes : Int) (row : FileRow) : Prop :=
  row.userId = userId ∧ row.contentHash = some contentHash ∧ row.sizeBytes = sizeBytes ∧ row.Active

instance (userId contentHash : String) (sizeBytes : Int) (row : FileRow) : Decidable (Matches userId contentHash sizeBytes row) :=
  inferInstanceAs (Decidable (_ ∧ _ ∧ _ ∧ _))

def dedupMatches (files : KeyMap String FileRow) (userId contentHash : String) (sizeBytes : Int) : List DedupSource :=
  (files.entries.filter (fun e => decide (Matches userId contentHash sizeBytes e.2))).map (fun e => ⟨e.1,e.2⟩)

-- `ORDER BY created_at ASC`: which of the rows of one instant comes first is up to the
-- database, here to `tie`.
def oldest (rows : List DedupSource) : List DedupSource :=
  rows.filter (fun source => rows.all (fun other => decide (source.row.createdAt ≤ other.row.createdAt)))

def findDedupSource (files : KeyMap String FileRow) (tie : Nat) (userId contentHash : String) (sizeBytes : Int) (isVideo : Bool) :
    Option DedupSource :=
  if contentHash = "" then none
  else
    let rows := oldest (dedupMatches files userId contentHash sizeBytes)
    match rows[tie % rows.length]? with
    | none => none
    | some source => if isVideo && !source.row.hlsReady then none else some source

def storageKeyStillReferenced (files : KeyMap String FileRow) (key : Key) : Bool :=
  files.any (fun _ row => decide (row.storageKey = key))

-- `load_owned_files_for_purge`, which fails when any id is missing.
def loadKeysForPurge (files : KeyMap String FileRow) : List String → Option (List Key)
  | [] => some []
  | id :: rest => match files.get id,loadKeysForPurge files rest with
    | some row,some keys => some (row.storageKey :: keys)
    | _,_ => none

-- What the UPDATEs of the recycle bin make of a row, or none where they meet none.
def trashed (now : Int) (row : FileRow) : Option FileRow := if row.Active then some {row with deletedAt := some now} else none

def restored (row : FileRow) : Option FileRow := if row.Active then none else some {row with deletedAt := none}

-- `blobs` has the object under each storage key, `bundles` what the encoder has put beside
-- it; `staged` the parts of each session under upload-staging/, `spools` the source in the
-- work directory of each file.
structure Library where
  files : KeyMap String FileRow
  blobs : KeyMap Key Bytes
  bundles : KeyMap Key Bytes
  staged : KeyMap String Bytes
  spools : KeyMap String Bytes

def Library.cleanWorkDir (fileId : String) (lib : Library) : Library := {lib with spools := lib.spools.remove fileId}

def Library.cleanStaging (sessionId : String) (lib : Library) : Library := {lib with staged := lib.staged.remove sessionId}

def purgeStorageKeys (key : Key) (lib : Library) : Library :=
  {lib with blobs := lib.blobs.remove key,bundles := lib.bundles.remove key}

-- What `download_file` reads for a row.
def served (lib : Library) (row : FileRow) : Option Bytes :=
  if isHlsStoredVideo row then lib.bundles.get row.storageKey else lib.blobs.get row.storageKey

-- Keys come from the file ids that were minted so far.
def Known (minted : List String) (key : Key) : Prop := ∃ ownerId fileId, key = storageKey ownerId fileId ∧ fileId ∈ minted

section Lookups
variable {files : KeyMap String FileRow} {userId contentHash : String} {sizeBytes : Int} {isVideo : Bool} {source : DedupSource}
  {tie : Nat} {key : Key} {keys : List Key} {id : String} {minted : List String} {row row' : FileRow}

theorem dedupMatches_mem (member : source ∈ dedupMatches files userId contentHash sizeBytes) :
    files.get source.id = some source.row ∧ Matches userId contentHash sizeBytes source.row := by
  obtain ⟨entry,kept,rfl⟩ := mem_map.mp member
  obtain ⟨present,passes⟩ := mem_filter.mp kept
  exact ⟨KeyMap.get_eq_some.mpr present,of_decide_eq_true passes⟩

theorem findDedupSource_some (found : findDedupSource files tie userId contentHash sizeBytes isVideo = some source) :
    files.get source.id = some source.row ∧ Matches userId contentHash sizeBytes source.row ∧
      (isVideo = true → source.row.hlsReady = true) := by
  unfold findDedupSource at found
  split at found
  · cases found
  · dsimp only at found
    split at found
    · cases found
    · rename_i first chosen
      have member := (mem_filter.mp (mem_of_getElem? chosen)).1
      split at found
      · cases found
      · rename_i ready
        cases found
        obtain ⟨present,passes⟩ := dedupMatches_mem member
        refine ⟨present,passes,?_⟩
        intro video
        rw [video] at ready
        simpa using ready

theorem storageKeyStillReferenced_iff :
    storageKeyStillReferenced files key = true ↔ ∃ id row, files.get id = some row ∧ row.storageKey = key := by
  unfold storageKeyStillReferenced
  rw [KeyMap.any_iff]
  simp only [decide_eq_true_eq]

theorem storageKey_inj {ownerId ownerId' fileId fileId' : String} (same : storageKey ownerId fileId = storageKey ownerId' fileId') :
    ownerId = ownerId' ∧ fileId = fileId' := by
  simpa [storageKey] using same

theorem known_more (known : Known minted key) : Known (id :: minted) key := by
  obtain ⟨ownerId,fileId,same,member⟩ := known
  exact ⟨ownerId,fileId,same,mem_cons_of_mem _ member⟩

theorem fresh_unknown {ownerId : String} (fresh : id ∉ minted) (known : Known minted key) : key ≠ storageKey ownerId id := by
  obtain ⟨owner,fileId,rfl,member⟩ := known
  intro same
  rw [(storageKey_inj same).2] at member
  exact fresh member

theorem loadKeysForPurge_mem {fileIds : List String} (loaded : loadKeysForPurge files fileIds = some keys) :
    ∀ key ∈ keys, ∃ id row, files.get id = some row ∧ row.storageKey = key := by
  induction fileIds generalizing keys with
  | nil =>
    cases loaded
    exact fun _ member => absurd member not_mem_nil
  | cons id rest ih =>
    unfold loadKeysForPurge at loaded
    split at loaded
    · rename_i row later found loadedRest
      cases loaded
      intro key member
      rcases mem_cons.mp member with rfl | member
      · exact ⟨id,row,found,rfl⟩
      · exact ih loadedRest key member
    · cases loaded

theorem unreferenced_iff : storageKeyStillReferenced files key = false ↔ ∀ id row, files.get id = some row → row.storageKey ≠ key := by
  constructor
  · intro free id row found on
    have referenced := storageKeyStillReferenced_iff.mpr ⟨id,row,found,on⟩
    rw [free] at referenced
    cases referenced
  · intro none
    cases answer : storageKeyStillReferenced files key with
    | false => rfl
    | true =>
      obtain ⟨id,row,found,on⟩ := storageKeyStillReferenced_iff.mp answer
      exact absurd on (none id row found)

theorem trashed_some {now : Int} (made : trashed now row = some row') : row.Active ∧ row' = {row with deletedAt := some now} := by
  unfold trashed at made
  split at made
  · rename_i active
    cases made
    exact ⟨active,rfl⟩
  · cases made

theorem restored_some (made : restored row = some row') : ¬row.Active ∧ row' = {row with deletedAt := none} := by
  unfold restored at made
  split at made
  · cases made
  · rename_i inactive
    cases made
    exact ⟨inactive,rfl⟩

theorem trashed_keyed {now : Int} (made : trashed now row = some row') : row'.storageKey = row.storageKey := by
  obtain ⟨_,rfl⟩ := trashed_some made
  rfl

theorem restored_keyed (made : restored row = some row') : row'.storageKey = row.storageKey := by
  obtain ⟨_,rfl⟩ := restored_some made
  rfl

end Lookups

end Ownly.Files
