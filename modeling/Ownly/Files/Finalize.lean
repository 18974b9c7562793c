import Ownly.Files.Store
import Ownly.Uploads.Store

-- backend/src/files/upload_finalize.rs: the finalisers, statement by statement, with the
-- answer of every statement that may fail; and complete_session of uploads/handlers.rs,
-- which chooses between them.
namespace Ownly.Files
open Storage (Key Bytes)

-- What the statements answer: `none` where a statement goes through. A failed delete of
-- an object is ignored.
structure Faults where
  instant : Option AppError
  quota : Option AppError
  hash : Option AppError
  find : Option AppError
  put : Option AppError
  findAgain : Option AppError
  reserve : Option AppError
  insert : Option AppError
  enqueue : Option AppError
  enqueueThumbnail : Option AppError
  select : Option AppError
  link : Option AppError
  deleteFails : Bool
  deriving DecidableEq, Repr

def noFaults : Faults := ⟨none,none,none,none,none,none,none,none,none,none,none,none,false⟩

-- What the finalisers are given of an upload. `isVideo` and `isDocument` are the answers
-- of `upload_is_video` and `qualifies_for_document_grid_thumbnail`.
structure Upload where
  fileId : String
  userId : String
  mime : String
  isVideo : Bool
  isDocument : Bool
  sizeBytes : Int
  now : Int
  deriving DecidableEq, Repr

def Upload.key (upload : Upload) : Key := storageKey upload.userId upload.fileId

abbrev Outcome := Library × Except AppError Unit

def guarded (fault : Option AppError) (lib : Library) (next : Outcome) : Outcome :=
  match fault with
  | some error => (lib,.error error)
  | none => next

-- What follows a call that ends in `?`.
def andThen (outcome : Outcome) (next : Library → Outcome) : Outcome :=
  match outcome with
  | (lib,.ok ()) => next lib
  | failed => failed

def duplicateKey : AppError := .database "duplicate key value violates unique constraint"

-- `INSERT INTO files`
def insertRow (fault : Option AppError) (id : String) (row : FileRow) (lib : Library) (next : Library → Outcome) : Outcome :=
  guarded fault lib (match lib.files.get id with
    | some _ => (lib,.error duplicateKey)
    | none => next {lib with files := lib.files.set id row})

def Upload.isAudio (upload : Upload) : Bool := startsWith "audio/" upload.mime

def Upload.isImage (upload : Upload) : Bool := startsWith "image/" upload.mime

-- The branches of `insert_non_video_file_and_jobs` that enqueue a job.
def Upload.derives (upload : Upload) : Bool := upload.isAudio || upload.isImage || upload.isDocument

def plainRow (upload : Upload) (contentHash : String) : FileRow :=
  ⟨upload.userId,upload.key,some upload.mime,upload.isVideo,upload.sizeBytes,some contentHash,upload.now,none,false,none,false,
    if upload.isAudio then some .queued else none⟩

def videoRow (upload : Upload) (contentHash : String) : FileRow :=
  ⟨upload.userId,upload.key,some upload.mime,upload.isVideo,upload.sizeBytes,some contentHash,upload.now,none,false,some .queued,
    false,none⟩

-- The new row shares the source's storage key and has its derivatives.
def dedupedRow (upload : Upload) (contentHash : String) (source : FileRow) : FileRow :=
  ⟨upload.userId,source.storageKey,some upload.mime,upload.isVideo,source.sizeBytes,some contentHash,upload.now,none,
    source.hlsReady,source.hlsEncodeStatus,source.audioWaveformReady,source.audioEncodeStatus⟩

def insertDedupedFile (faults : Faults) (lib : Library) (upload : Upload) (contentHash : String) (source : DedupSource) : Outcome :=
  insertRow faults.insert upload.fileId (dedupedRow upload contentHash source.row) lib (fun lib =>
    guarded faults.link lib (lib,.ok ()))

-- A row with derivative jobs keeps its spool for them.
def insertNonVideoFileAndJobs (faults : Faults) (lib : Library) (upload : Upload) (contentHash : String) (spooled : Bool) : Outcome :=
  insertRow faults.insert upload.fileId (plainRow upload contentHash) lib (fun lib =>
    if upload.derives then guarded faults.enqueue lib (lib,.ok ())
    else (if spooled then lib.cleanWorkDir upload.fileId else lib,.ok ()))

def finalizeNewBlobFromSpool (faults : Faults) (lib : Library) (upload : Upload) (contentHash : String) (bytes : Bytes) : Outcome :=
  if upload.isVideo then
    guarded faults.reserve lib
      (insertRow faults.insert upload.fileId (videoRow upload contentHash) lib (fun lib =>
        guarded faults.enqueue lib (guarded faults.enqueueThumbnail lib (guarded faults.select lib
          (guarded faults.link lib (lib,.ok ()))))))
  else
    match faults.put with
    | some error => (lib.cleanWorkDir upload.fileId,.error error)
    | none =>
      andThen (insertNonVideoFileAndJobs faults {lib with blobs := lib.blobs.set upload.key bytes} upload contentHash true)
        (fun lib => guarded faults.link lib (lib,.ok ()))

def fileRequired : AppError := .badRequest "file is required"

def finalizeSpooledUpload (sha256 : Bytes → String) (faults : Faults) (tie : Nat) (lib : Library) (upload : Upload) : Outcome :=
  if upload.sizeBytes = 0 then (lib.cleanWorkDir upload.fileId,.error fileRequired)
  else guarded faults.quota lib
    (match lib.spools.get upload.fileId with
    | none => (lib,.error (.internal "open upload spool for hashing"))
    | some bytes => guarded faults.hash lib (guarded faults.find lib
      (match findDedupSource lib.files tie upload.userId (sha256 bytes) upload.sizeBytes upload.isVideo with
      | some source =>
        andThen (insertDedupedFile faults lib upload (sha256 bytes) source) (fun lib => (lib.cleanWorkDir upload.fileId,.ok ()))
      | none => finalizeNewBlobFromSpool faults lib upload (sha256 bytes) bytes)))

def instantUnavailable : AppError := .conflict "instant dedup is not available — content is not already in your library"

def finalizeInstantDedupUpload (faults : Faults) (tie : Nat) (lib : Library) (upload : Upload) (contentHash : String) : Outcome :=
  if upload.sizeBytes = 0 then (lib,.error fileRequired)
  else guarded faults.quota lib (guarded faults.find lib
    (match findDedupSource lib.files tie upload.userId contentHash upload.sizeBytes upload.isVideo with
    | none => (lib,.error instantUnavailable)
    | some source => insertDedupedFile faults lib upload contentHash source))

-- From `hash_and_put_final_from_staged_parts` on.
def putStagedUpload (sha256 : Bytes → String) (faults : Faults) (tie : Nat) (lib : Library) (upload : Upload) (sessionId : String) :
    Outcome :=
  match lib.staged.get sessionId with
  | none => (lib,.error (.storage "read staged upload part"))
  | some bytes => guarded faults.put lib
    (let stored := {lib with blobs := lib.blobs.set upload.key bytes}
    guarded faults.findAgain stored
      (match findDedupSource lib.files tie upload.userId (sha256 bytes) upload.sizeBytes false with
      | some source =>
        let dropped := if faults.deleteFails then stored else {stored with blobs := stored.blobs.remove upload.key}
        andThen (insertDedupedFile faults dropped upload (sha256 bytes) source) (fun lib => (lib.cleanStaging sessionId,.ok ()))
      | none =>
        andThen (insertNonVideoFileAndJobs faults stored upload (sha256 bytes) false) (fun lib =>
          let cleaned := lib.cleanStaging sessionId
          guarded faults.link cleaned (cleaned,.ok ()))))

def finalizeStagedUpload (sha256 : Bytes → String) (faults : Faults) (tie : Nat) (lib : Library) (upload : Upload)
    (sessionId : String) (knownContentHash : Option String) : Outcome :=
  if upload.sizeBytes = 0 then (lib.cleanStaging sessionId,.error fileRequired)
  else guarded faults.quota lib
    (if upload.isVideo then
      (lib.cleanStaging sessionId,.error (.internal "staged finalize is not valid for video uploads"))
    else match knownContentHash with
      | none => putStagedUpload sha256 faults tie lib upload sessionId
      | some knownHash => guarded faults.find lib
        (match findDedupSource lib.files tie upload.userId knownHash upload.sizeBytes false with
        | some source =>
          andThen (insertDedupedFile faults lib upload knownHash source) (fun lib => (lib.cleanStaging sessionId,.ok ()))
        | none => putStagedUpload sha256 faults tie lib upload sessionId))

-- `received`: all parts are there and add up to the total size.
structure Session where
  fileOwnerId : String
  fileId : String
  mime : String
  isVideo : Bool
  isDocument : Bool
  totalSize : Int
  contentHash : Option String
  received : Bool
  status : Uploads.Status
  deriving DecidableEq, Repr

def Session.upload (session : Session) (sizeBytes now : Int) : Upload :=
  ⟨session.fileId,session.fileOwnerId,session.mime,session.isVideo,session.isDocument,sizeBytes,now⟩

def resolveSessionSource (lib : Library) (session : Session) : Except AppError Bytes :=
  match lib.spools.get session.fileId with
  | none => .error (.internal "open upload part")
  | some bytes =>
    if (bytes.length : Int) = session.totalSize then .ok bytes
    else .error (.badRequest s!"assembled size {bytes.length} does not match expected {session.totalSize}")

def instantSource (tie : Nat) (lib : Library) (session : Session) : Option DedupSource :=
  session.contentHash.bind (fun hash =>
    findDedupSource lib.files tie session.fileOwnerId hash session.totalSize session.isVideo)

-- The finaliser `complete_session` calls, and the clean-up after an instant one.
def finalizeSession (sha256 : Bytes → String) (faults : Faults) (tie : Nat) (now : Int) (lib : Library) (sessionId : String)
    (session : Session) : Outcome :=
  match instantSource tie lib session,session.contentHash with
  | some _,some hash =>
    andThen (finalizeInstantDedupUpload faults tie lib (session.upload session.totalSize now) hash) (fun lib =>
      (if session.isVideo then lib.cleanWorkDir session.fileId else lib.cleanStaging sessionId,.ok ()))
  | _,_ =>
    if session.isVideo then
      match resolveSessionSource lib session with
      | .error error => (lib,.error error)
      | .ok bytes => finalizeSpooledUpload sha256 faults tie lib (session.upload bytes.length now)
    else finalizeStagedUpload sha256 faults tie lib (session.upload session.totalSize now) sessionId session.contentHash

def completeSession (sha256 : Bytes → String) (faults : Faults) (tie : Nat) (now : Int) (lib : Library) (sessionId : String)
    (session : Session) : Library × Session × Except AppError Unit :=
  if session.status ≠ .active then (lib,session,.error (.conflict ("upload session is " ++ session.status.asStr)))
  else match session.contentHash.bind (fun _ => faults.instant) with
    | some error => (lib,session,.error error)
    | none =>
      if instantSource tie lib session = none ∧ session.received = false then
        (lib,session,.error (.conflict "upload incomplete"))
      else
        -- marked completing meanwhile
        match finalizeSession sha256 faults tie now lib sessionId session with
        | (lib,.ok ()) => (lib,{session with status := .complete},.ok ())
        | (lib,.error error) => (lib,{session with status := .active},.error error)

theorem resolveSessionSource_ok {lib : Library} {session : Session} {bytes : Bytes}
    (resolved : resolveSessionSource lib session = .ok bytes) :
    lib.spools.get session.fileId = some bytes ∧ (bytes.length : Int) = session.totalSize := by
  unfold resolveSessionSource at resolved
  cases found : lib.spools.get session.fileId with
  | none =>
    rw [found] at resolved
    cases resolved
  | some spooled =>
    rw [found] at resolved
    dsimp only at resolved
    split at resolved
    · rename_i whole
      cases resolved
      exact ⟨rfl,whole⟩
    · cases resolved

end Ownly.Files
