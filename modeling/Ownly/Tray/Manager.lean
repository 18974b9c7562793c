import Mathlib
import Ownly.Lib.Schedule

-- frontend/src/lib/upload-manager.ts: the rows of the transfer tray, the workers that upload
-- or poll for them, and what the page keeps of them over a reload. What a row only shows
-- (progress, phase, texts) is left out.
namespace Ownly.Tray

inductive UploadItemStatus where
  | queued
  | uploading
  | done
  | error
  | cancelled
deriving DecidableEq, Repr

structure LocalFile where
  name : String
  size : Nat
  type : String
deriving DecidableEq, Repr

structure UploadItem where
  id : Nat
  fileName : String
  fileSize : Nat
  localFile : Option LocalFile := none
  folderId : Option Nat := none
  status : UploadItemStatus
  uploadedFileId : Option Nat := none
  resumableServerSessionId : Option Nat := none
  needsFileReselect : Bool := false
  contentHash : Option String := none
  paused : Bool := false
  isReprocess : Bool := false
deriving DecidableEq, Repr

inductive BatchStatus where
  | uploading
  | complete
deriving DecidableEq, Repr

structure UploadBatch where
  status : BatchStatus
  folderId : Option Nat
  items : List UploadItem
deriving DecidableEq, Repr

-- What `uploadFileWithProgress` and the ingest polls read of a server file.
structure ServerFile where
  id : Nat
  name : String
  sizeBytes : Nat
  awaitingIngest : Bool
deriving DecidableEq, Repr

structure ApiError where
  code : String
  status : Nat
  retryAfterSeconds : Option Nat := none
deriving DecidableEq, Repr

-- Where a run of `uploadClaimedItem` awaits.
inductive WorkerPhase where
  -- before its call of `uploadFileWithProgress`
  | unpausing (wake : Nat)
  -- in the call, for the CSRF token: there is nothing to abort yet
  | preparing
  | sending
  -- after `onUploadBytesComplete`, for the server's answer
  | sent
  | registered (file : ServerFile)
  -- between a failed attempt and the next one
  | backoff (wake : Nat)
  | ended
deriving DecidableEq, Repr

structure Worker where
  claimed : UploadItem
  file : LocalFile
  retryAttempt : Nat
  phase : WorkerPhase
deriving DecidableEq, Repr

-- Where a run of `resumeUploadItemProcessing` awaits: its slot or the next poll, a poll, or
-- the display of a polled row (of one that is ready).
inductive ResumePhase where
  | waiting
  | fetching
  | emitting (ready : Bool)
  | ended
deriving DecidableEq, Repr

structure Resume where
  uploadId : Nat
  fileId : Nat
  phase : ResumePhase
deriving DecidableEq, Repr

structure PartSample where
  ok : Bool
  durationMs : Nat
deriving DecidableEq, Repr

-- The module's variables and the promises it waits for. `stored` is the localStorage entry;
-- `created` counts the ids of `createClientId`; `pumps` holds when each waiting run of the
-- pump wakes up, `settling` counts the workers whose `finally` is still to run.
structure Manager where
  now : Nat := 0
  uploadPumpPausedUntil : Nat := 0
  userUploadPaused : Bool := false
  samples : List PartSample := []
  batch : Option UploadBatch := none
  stored : Option UploadBatch := none
  restoreStarted : Bool := false
  jobsAwaited : Bool := false
  resumingItemIds : List Nat := []
  abortedUploadItemIds : List Nat := []
  created : Nat := 0
  pumps : List Nat := []
  workers : List Worker := []
  settling : Nat := 0
  resumes : List Resume := []
deriving DecidableEq, Repr

def rows (s : Manager) : List UploadItem := match s.batch with
  | none => []
  | some batch => batch.items

def row? (s : Manager) (id : Nat) : Option UploadItem := (rows s).find? (fun item => decide (item.id = id))

def uploading (s : Manager) : Prop := ∃ batch ∈ s.batch, batch.status = .uploading

instance (s : Manager) : Decidable (uploading s) := by unfold uploading; infer_instance

def setItems (items : List UploadItem) (s : Manager) : Manager :=
  { s with batch := s.batch.map (fun batch => { batch with items }) }

-- `toItemSnapshot`: what JSON keeps of a row.
def toItemSnapshot (item : UploadItem) : UploadItem := { item with localFile := none, folderId := none, contentHash := none }

-- `emitBatch`, as far as it persists the batch.
def emitBatch (s : Manager) : Manager :=
  { s with stored := s.batch.map (fun batch => { batch with items := batch.items.map toItemSnapshot }) }

def updateItems (f : UploadItem → UploadItem) (s : Manager) : Manager :=
  if s.batch.isSome then emitBatch (setItems ((rows s).map f) s) else s

def updateRow (id : Nat) (f : UploadItem → UploadItem) (s : Manager) : Manager :=
  updateItems (fun item => if item.id = id then f item else item) s

def insertId (id : Nat) (ids : List Nat) : List Nat := if id ∈ ids then ids else ids ++ [id]

def removeId (id : Nat) (ids : List Nat) : List Nat := ids.filter (fun other => decide (other ≠ id))

def isTerminalStatus : UploadItemStatus → Bool
  | .done => true
  | .error => true
  | .cancelled => true
  | _ => false

def maybeCompleteBatch (s : Manager) : Manager :=
  if uploading s ∧ ∀ item ∈ rows s, isTerminalStatus item.status then
    emitBatch { s with batch := s.batch.map (fun batch => { batch with status := .complete }) }
  else s

def maybeCompleteBatchWhenIdle (s : Manager) : Manager :=
  if (∃ item ∈ rows s, item.status = .queued) ∨ ∃ item ∈ rows s, item.status = .uploading then s else maybeCompleteBatch s

-- When a sleep up to the pause's end, begun now, is over.
def waitForUploadPumpUnpause (s : Manager) : Nat := max s.now s.uploadPumpPausedUntil

def pumpUploadQueue (s : Manager) : Manager :=
  if uploading s ∧ s.userUploadPaused = false then { s with pumps := s.pumps ++ [waitForUploadPumpUnpause s] } else s

def pipelineStageLimit : Nat := 2

def resumeUploadItemProcessing (item : UploadItem) (s : Manager) : Manager :=
  match item.uploadedFileId with
  | none => s
  | some fileId =>
    if item.id ∈ s.resumingItemIds then s
    else emitBatch { s with
      resumingItemIds := s.resumingItemIds ++ [item.id]
      resumes := s.resumes ++ [⟨item.id,fileId,.waiting⟩] }

def pumpProcessingRow (s : Manager) (item : UploadItem) : Manager :=
  if pipelineStageLimit ≤ s.resumingItemIds.length then s
  else if item.status = .uploading ∧ item.localFile = none then resumeUploadItemProcessing item s
  else s

def pumpProcessingQueue (s : Manager) : Manager := if uploading s then (rows s).foldl pumpProcessingRow s else s

def releaseUploadByteSlot (uploadId : Nat) (s : Manager) : Manager :=
  if ∃ item ∈ row? s uploadId, item.localFile ≠ none then
    pumpProcessingQueue (pumpUploadQueue (updateRow uploadId (fun item => { item with localFile := none }) s))
  else s

def registerUploadServerFile (sessionId : Nat) (file : ServerFile) (s : Manager) : Manager :=
  updateRow sessionId (fun item => { item with uploadedFileId := some file.id, fileName := file.name, fileSize := file.sizeBytes }) s

def removeItemFromActiveBatch (itemId : Nat) (s : Manager) : Manager :=
  match s.batch with
  | none => s
  | some batch =>
    let items := batch.items.filter (fun item => decide (item.id ≠ itemId))
    let s := { s with
      batch := if items = [] then none else some { batch with items }
      abortedUploadItemIds := removeId itemId s.abortedUploadItemIds }
    pumpUploadQueue (emitBatch (maybeCompleteBatch s))

-- `recordUploadPartSample`, with the window of the last twelve.
def recordUploadPartSample (sample : PartSample) (s : Manager) : Manager :=
  { s with samples := (s.samples ++ [sample]).drop (s.samples.length + 1 - 12) }

-- The quotients of upload-adaptive.ts, multiplied out.
def suggestedFileConcurrency (samples : List PartSample) : Nat :=
  let failures := (samples.filter (fun sample => !sample.ok)).length
  let ok := samples.filter (fun sample => sample.ok && decide (0 < sample.durationMs))
  let total := (ok.map PartSample.durationMs).sum
  if samples.length < 3 then 2
  else if 35 * samples.length ≤ 100 * failures then 1
  else if ok = [] then 2
  else if total < 1500 * ok.length ∧ 10 * failures < samples.length then 3
  else 2

def adaptiveFileSlotsCap : Nat := max 2 3

def fileSlots (s : Manager) : Nat := min adaptiveFileSlotsCap (suggestedFileConcurrency s.samples)

def inFlight (item : UploadItem) : Bool := decide (item.status = .uploading ∧ item.localFile ≠ none)

def countInFlightBrowserUploads (s : Manager) : Nat := ((rows s).filter inFlight).length

def claimable (item : UploadItem) : Bool := decide (item.status = .queued ∧ item.paused = false)

def claimNextQueued (s : Manager) : Option (UploadItem × Manager) :=
  (List.findIdx? claimable (rows s)).bind (fun index =>
    (rows s)[index]?.map (fun item =>
      let claimed := { item with status := .uploading }
      (claimed,emitBatch (setItems ((rows s).set index claimed) s))))

-- A first run of `uploadClaimedItem`, up to its first await.
def uploadClaimedItem (claimed : UploadItem) (s : Manager) : Manager :=
  match claimed.localFile with
  | none => { s with settling := s.settling + 1 }
  | some file => { s with workers := s.workers ++ [⟨claimed,file,0,.unpausing (waitForUploadPumpUnpause s)⟩] }

def claimLoop (slots : Nat) : Nat → Manager → Manager
  | 0,s => s
  | fuel + 1,s =>
    if countInFlightBrowserUploads s < slots then
      match claimNextQueued s with
      | none => s
      | some (claimed,s) => claimLoop slots fuel (uploadClaimedItem claimed s)
    else s

def pumpRun (s : Manager) : Manager :=
  if uploading s ∧ s.userUploadPaused = false then claimLoop (fileSlots s) (rows s).length s else s

def endWorker (i : Nat) (worker : Worker) (s : Manager) : Manager :=
  { s with workers := s.workers.set i { worker with phase := .ended }, settling := s.settling + 1 }

def setPhase (i : Nat) (worker : Worker) (phase : WorkerPhase) (s : Manager) : Manager :=
  { s with workers := s.workers.set i { worker with phase } }

-- The `finally` of a worker.
def settle (s : Manager) : Manager := maybeCompleteBatchWhenIdle (pumpProcessingQueue (pumpUploadQueue s))

def uploadMaxRetries : Nat := 6

def uploadRetryDelayMs (attempt : Nat) : Nat := min 30000 (1500 * 2 ^ (attempt - 1))

-- An error that is no `ApiError` is `none`.
def isRetryableUploadError : Option ApiError → Bool
  | none => false
  | some error => decide (error.code ≠ "upload_cancelled" ∧ (error.status = 429 ∨ error.code = "rate_limited" ∨
      error.code = "storage_error" ∨ error.code = "network_error"))

def retryAfterMs (error : Option ApiError) (nextAttempt : Nat) : Nat :=
  match error.bind ApiError.retryAfterSeconds with
  | some (n + 1) => (n + 1) * 1000
  | _ => uploadRetryDelayMs nextAttempt

def rateLimited (error : Option ApiError) : Bool := error.any (fun error => decide (error.status = 429))

def pauseUploadPumpFor (delayMs : Nat) (s : Manager) : Manager :=
  { s with uploadPumpPausedUntil := max s.uploadPumpPausedUntil (s.now + delayMs) }

def willRetry (worker : Worker) (error : Option ApiError) : Bool :=
  isRetryableUploadError error && decide (worker.retryAttempt < uploadMaxRetries)

-- The `catch` of `uploadClaimedItem`: up to the sleep before the next attempt, or to the end.
def failAttempt (i : Nat) (worker : Worker) (error : Option ApiError) (s : Manager) : Manager :=
  let uploadId := worker.claimed.id
  if willRetry worker error then
    let nextAttempt := worker.retryAttempt + 1
    let s := if rateLimited error then pauseUploadPumpFor (retryAfterMs error nextAttempt) s else s
    let s := updateRow uploadId (fun item => { item with status := .uploading }) s
    setPhase i { worker with retryAttempt := nextAttempt } (.backoff (waitForUploadPumpUnpause s)) s
  else
    let cancelled := error.any (fun error => decide (error.code = "upload_cancelled"))
    endWorker i worker (updateRow uploadId (fun item => { item with status := if cancelled then .cancelled else .error }) s)

def retryAttempt (i : Nat) (worker : Worker) (s : Manager) : Manager :=
  if s.batch = none ∨ (row? s worker.claimed.id).map UploadItem.status = some .cancelled then endWorker i worker s
  else setPhase i worker (.unpausing (waitForUploadPumpUnpause s)) s

def resumableThresholdBytes : Nat := 32 * 1024 * 1024

def resumableVideoThresholdBytes : Nat := 8 * 1024 * 1024

def shouldUseResumableUpload (file : LocalFile) : Bool :=
  if "video/".toList.isPrefixOf file.type.toList then decide (resumableVideoThresholdBytes < file.size)
  else decide (resumableThresholdBytes < file.size)

-- What `uploadClaimedItem` does with the result of the call.
def finishAttempt (i : Nat) (worker : Worker) (file : ServerFile) (s : Manager) : Manager :=
  let s := releaseUploadByteSlot worker.claimed.id s
  if file.awaitingIngest then endWorker i worker (pumpProcessingQueue s)
  else endWorker i worker (updateRow worker.claimed.id (fun item => { item with status := .done, uploadedFileId := some file.id }) s)

inductive WorkerEvent where
  | wake
  | csrfToken
  | sessionReady (session : Nat)
  | bytesComplete
  | serverFile (file : ServerFile)
  | result
  | failure (error : Option ApiError)
deriving DecidableEq, Repr

def workerStep (i : Nat) (worker : Worker) (s : Manager) : WorkerEvent → Option Manager
  | .wake => match worker.phase with
    | .unpausing wake =>
      if wake ≤ s.now then some (setPhase i worker (if shouldUseResumableUpload worker.file then .sending else .preparing) s)
      else none
    | .backoff wake => if wake ≤ s.now then some (retryAttempt i worker s) else none
    | _ => none
  | .csrfToken => if worker.phase = .preparing then some (setPhase i worker .sending s) else none
  | .sessionReady session =>
    if worker.phase = .sending ∧ shouldUseResumableUpload worker.file = true then
      some (updateRow worker.claimed.id (fun item => { item with resumableServerSessionId := some session }) s)
    else none
  | .bytesComplete =>
    if worker.phase = .sending ∧ shouldUseResumableUpload worker.file = false then
      some (releaseUploadByteSlot worker.claimed.id (setPhase i worker .sent s))
    else none
  -- A resumable upload has its bytes complete when the server answers with the file.
  | .serverFile file =>
    if worker.phase = (if shouldUseResumableUpload worker.file then .sending else .sent) then
      some (registerUploadServerFile worker.claimed.id file
        (releaseUploadByteSlot worker.claimed.id (setPhase i worker (.registered file) s)))
    else none
  | .result => match worker.phase with
    | .registered file => some (finishAttempt i worker file s)
    | _ => none
  | .failure error =>
    if worker.phase = .preparing ∨ worker.phase = .sending ∨ worker.phase = .sent then some (failAttempt i worker error s)
    else none

-- `isCancelled` of an ingest poll.
def pollCancelled (s : Manager) (uploadId : Nat) : Prop := uploadId ∈ s.abortedUploadItemIds ∨ row? s uploadId = none

instance (s : Manager) (uploadId : Nat) : Decidable (pollCancelled s uploadId) := by unfold pollCancelled; infer_instance

-- The end of `resumeUploadItemProcessing`, with its `finally`.
def finishResume (j : Nat) (resume : Resume) (status : UploadItemStatus) (s : Manager) : Manager :=
  let s := { s with resumes := s.resumes.set j { resume with phase := .ended } }
  let s := updateRow resume.uploadId (fun item =>
    { item with status, uploadedFileId := if status = .done then some resume.fileId else item.uploadedFileId }) s
  let s := emitBatch { s with resumingItemIds := removeId resume.uploadId s.resumingItemIds }
  maybeCompleteBatch (pumpProcessingQueue s)

def setResume (j : Nat) (resume : Resume) (phase : ResumePhase) (s : Manager) : Manager :=
  { s with resumes := s.resumes.set j { resume with phase } }

inductive Ingest where
  | failed
  | cancelled
  | running
  | ready
deriving DecidableEq, Repr

-- A poll that failed has no row.
inductive ResumeEvent where
  | poll
  | polled (answer : Option Ingest)
  | emitted
deriving DecidableEq, Repr

def resumeStep (j : Nat) (resume : Resume) (s : Manager) : ResumeEvent → Option Manager
  | .poll =>
    if resume.phase = .waiting then
      some (if pollCancelled s resume.uploadId then finishResume j resume .cancelled s else setResume j resume .fetching s)
    else none
  | .polled answer =>
    if resume.phase = .fetching then
      some (match answer with
        | none => finishResume j resume .error s
        | some ingest =>
          if pollCancelled s resume.uploadId then finishResume j resume .cancelled s
          else match ingest with
            | .failed => finishResume j resume .error s
            | .cancelled => finishResume j resume .cancelled s
            | .running => setResume j resume (.emitting false) s
            | .ready => setResume j resume (.emitting true) s)
    else none
  | .emitted => match resume.phase with
    | .emitting true => some (finishResume j resume .done s)
    | .emitting false => some (setResume j resume .waiting s)
    | _ => none

structure UploadBatchEntry where
  file : LocalFile
  folderId : Option Nat := none
  contentHash : Option String := none
deriving DecidableEq, Repr

def queuedItemsFromEntries (defaultFolderId : Option Nat) : Nat → List UploadBatchEntry → List UploadItem
  | _,[] => []
  | created,entry :: rest =>
    { id := created, fileName := entry.file.name, fileSize := entry.file.size, localFile := some entry.file,
      folderId := entry.folderId.orElse (fun _ => defaultFolderId), status := .queued, contentHash := entry.contentHash } ::
      queuedItemsFromEntries defaultFolderId (created + 1) rest

def startUploadBatch (entries : List UploadBatchEntry) (defaultFolderId : Option Nat) (s : Manager) : Manager :=
  if entries = [] then s
  else
    let newItems := queuedItemsFromEntries defaultFolderId s.created entries
    let s := { s with created := s.created + entries.length }
    if uploading s then pumpUploadQueue (emitBatch (setItems (rows s ++ newItems) s))
    else pumpUploadQueue (emitBatch { s with batch := some ⟨.uploading,defaultFolderId,newItems⟩ })

def setUploadBatchPaused (paused : Bool) (s : Manager) : Manager :=
  let s := { s with userUploadPaused := paused }
  emitBatch (if paused then s else pumpUploadQueue s)

def setUploadItemPaused (itemId : Nat) (paused : Bool) (s : Manager) : Manager :=
  let s := updateItems (fun item => if item.id = itemId ∧ item.status = .queued then { item with paused } else item) s
  if paused then s else pumpUploadQueue s

-- A session of `activeUploadSessions`.
def Worker.inSession (worker : Worker) : Bool := match worker.phase with
  | .sending => true
  | .sent => true
  | .registered _ => true
  | _ => false

def abortable (sessionId : Nat) (worker : Worker) : Bool := decide (worker.claimed.id = sessionId) && worker.inSession

-- The session's promise is rejected, and its worker, which finds its row gone, ends.
def abortUploadSession (sessionId : Nat) (s : Manager) : Manager :=
  { s with
    workers := s.workers.map (fun worker => if abortable sessionId worker then { worker with phase := .ended } else worker)
    settling := s.settling + (s.workers.filter (abortable sessionId)).length }

def cancelUploadItem (itemId : Nat) (s : Manager) : Manager :=
  match row? s itemId with
  | none => s
  | some item =>
    if ¬uploading s ∨ item.status = .done then s
    else
      let s := { s with abortedUploadItemIds := insertId itemId s.abortedUploadItemIds }
      if item.isReprocess then
        let s := updateRow itemId (fun item => { item with status := .cancelled }) s
        pumpProcessingQueue (maybeCompleteBatch { s with resumingItemIds := removeId itemId s.resumingItemIds })
      else removeItemFromActiveBatch itemId (if item.status = .uploading then abortUploadSession itemId s else s)

def pendingReprocess (item : UploadItem) : Bool :=
  item.isReprocess && decide (item.status = .uploading ∨ item.status = .queued)

-- The rest of `cancelAllPendingHlsReprocess` once the server has answered.
def cancelAllPendingHlsReprocess (s : Manager) : Manager :=
  let pending := ((rows s).filter pendingReprocess).map UploadItem.id
  let s := { s with
    abortedUploadItemIds := pending.foldl (fun ids id => insertId id ids) s.abortedUploadItemIds
    resumingItemIds := s.resumingItemIds.filter (fun id => decide (id ∉ pending)) }
  maybeCompleteBatch (updateItems (fun item => if pendingReprocess item then { item with status := .cancelled } else item) s)

def clearCancelledHlsReprocessItems (s : Manager) : Manager :=
  match s.batch with
  | none => s
  | some batch =>
    let items := batch.items.filter (fun item => !(item.isReprocess && decide (item.status = .cancelled)))
    emitBatch (maybeCompleteBatch { s with batch := if items = [] then none else some { batch with items } })

def removeUploadBatchItem (itemId : Nat) (s : Manager) : Manager :=
  if ∃ item ∈ row? s itemId, item.status = .error ∨ item.status = .cancelled then removeItemFromActiveBatch itemId s else s

def dismissUploadBatch (s : Manager) : Manager :=
  if s.batch = none ∨ uploading s then s else emitBatch { s with batch := none }

def reopen (s : Manager) : Manager :=
  if uploading s then s else emitBatch { s with batch := s.batch.map (fun batch => { batch with status := .uploading }) }

def canRetry (item : UploadItem) : Prop :=
  (item.status = .error ∨ item.status = .cancelled) ∧ item.localFile ≠ none ∧ item.needsFileReselect = false

instance (item : UploadItem) : Decidable (canRetry item) := by unfold canRetry; infer_instance

def retryUploadItem (itemId : Nat) (s : Manager) : Manager :=
  if ∃ item ∈ row? s itemId, canRetry item then
    let s := { s with abortedUploadItemIds := removeId itemId s.abortedUploadItemIds }
    pumpUploadQueue (reopen (updateRow itemId (fun item => { item with status := .queued, uploadedFileId := none }) s))
  else s

def canReattach (file : LocalFile) (item : UploadItem) : Prop :=
  item.needsFileReselect = true ∧ item.resumableServerSessionId ≠ none ∧ file.name = item.fileName ∧ file.size = item.fileSize

instance (file : LocalFile) (item : UploadItem) : Decidable (canReattach file item) := by unfold canReattach; infer_instance

def reattachUploadFile (uploadId : Nat) (file : LocalFile) (s : Manager) : Manager :=
  if ∃ item ∈ row? s uploadId, canReattach file item then
    pumpUploadQueue (reopen (updateRow uploadId (fun item =>
      { item with localFile := some file, status := .uploading, needsFileReselect := false }) s))
  else s

-- A row for a file that the server encodes: of `trackHlsReprocessFiles`, or of a job.
structure TrackedFile where
  fileId : Nat
  fileName : String
  fileSize : Nat
  isReprocess : Bool
deriving DecidableEq, Repr

def trackedItem (created : Nat) (file : TrackedFile) : UploadItem :=
  { id := created, fileName := file.fileName, fileSize := file.fileSize, status := .uploading,
    uploadedFileId := some file.fileId, isReprocess := file.isReprocess }

def trackFile (s : Manager) (file : TrackedFile) : Manager :=
  if ∃ item ∈ rows s, item.uploadedFileId = some file.fileId ∧ (item.status = .uploading ∨ item.status = .queued) then s
  else { setItems (rows s ++ [trackedItem s.created file]) s with created := s.created + 1 }

def ensureUploadingBatch (s : Manager) : Manager :=
  if uploading s then s else { s with batch := some ⟨.uploading,none,rows s⟩ }

-- `trackHlsReprocessFiles`, and `trackActiveHlsEncodeJobs` once the jobs are listed.
def trackFiles (files : List TrackedFile) (s : Manager) : Manager :=
  if files = [] then s
  else
    let active := ensureUploadingBatch s
    let tracked := files.foldl trackFile active
    if (rows tracked).length = (rows active).length then active else pumpProcessingQueue (emitBatch tracked)

def trackedItems : Nat → List TrackedFile → List UploadItem
  | _,[] => []
  | created,file :: rest => trackedItem created file :: trackedItems (created + 1) rest

-- `restoreFromActiveBackgroundJobs` once the jobs are listed.
def restoreFromActiveBackgroundJobs (active : List TrackedFile) (s : Manager) : Manager :=
  let s := { s with jobsAwaited := false }
  if active = [] then s
  else
    let batch := ⟨.uploading,none,trackedItems s.created active⟩
    pumpProcessingQueue (emitBatch { s with batch := some batch, created := s.created + active.length })

def internalFromPersisted (item : UploadItem) : UploadItem :=
  { item with localFile := none, folderId := none, contentHash := none, isReprocess := false }

def reconcileRestoredItem (item : UploadItem) : UploadItem :=
  if item.status = .queued then { internalFromPersisted item with status := .cancelled }
  else if item.status = .uploading ∧ item.uploadedFileId = none then
    if item.resumableServerSessionId ≠ none then { internalFromPersisted item with status := .error, needsFileReselect := true }
    else { internalFromPersisted item with status := .error }
  else internalFromPersisted item

def restoreUploadBatchFromStorage (s : Manager) : Manager :=
  if s.batch ≠ none ∨ s.restoreStarted = true then s
  else
    let s := { s with restoreStarted := true }
    match s.stored with
    | none => { s with jobsAwaited := true }
    | some persisted =>
      if persisted.items = [] then { s with stored := none }
      else match persisted.status with
        | .complete => emitBatch { s with batch := some { persisted with items := persisted.items.map internalFromPersisted } }
        | .uploading =>
          let batch := { persisted with items := persisted.items.map reconcileRestoredItem }
          maybeCompleteBatch (pumpProcessingQueue (emitBatch { s with batch := some batch }))

-- A new page has what localStorage holds, and no id comes up again.
def reload (s : Manager) : Manager := { now := s.now, stored := s.stored, created := s.created }

inductive Event where
  | tick (ms : Nat)
  | sample (sample : PartSample)
  | startUploadBatch (entries : List UploadBatchEntry) (defaultFolderId : Option Nat)
  | setUploadBatchPaused (paused : Bool)
  | setUploadItemPaused (itemId : Nat) (paused : Bool)
  | cancelUploadItem (itemId : Nat)
  | reprocessCancelled
  | clearCancelledHlsReprocessItems
  | removeUploadBatchItem (itemId : Nat)
  | dismissUploadBatch
  | retryUploadItem (itemId : Nat)
  | reattachUploadFile (uploadId : Nat) (file : LocalFile)
  | trackFiles (files : List TrackedFile)
  | reload
  | restoreUploadBatchFromStorage
  | jobsListed (active : List TrackedFile)
  | pump (k : Nat)
  | settled
  | worker (i : Nat) (event : WorkerEvent)
  | resume (j : Nat) (event : ResumeEvent)
deriving DecidableEq, Repr

def step (s : Manager) : Event → Option Manager
  | .tick ms => some { s with now := s.now + ms }
  | .sample sample => some (recordUploadPartSample sample s)
  | .startUploadBatch entries defaultFolderId => some (startUploadBatch entries defaultFolderId s)
  | .setUploadBatchPaused paused => some (setUploadBatchPaused paused s)
  | .setUploadItemPaused itemId paused => some (setUploadItemPaused itemId paused s)
  | .cancelUploadItem itemId => some (cancelUploadItem itemId s)
  | .reprocessCancelled => some (cancelAllPendingHlsReprocess s)
  | .clearCancelledHlsReprocessItems => some (clearCancelledHlsReprocessItems s)
  | .removeUploadBatchItem itemId => some (removeUploadBatchItem itemId s)
  | .dismissUploadBatch => some (dismissUploadBatch s)
  | .retryUploadItem itemId => some (retryUploadItem itemId s)
  | .reattachUploadFile uploadId file => some (reattachUploadFile uploadId file s)
  | .trackFiles files => some (trackFiles files s)
  | .reload => some (reload s)
  | .restoreUploadBatchFromStorage => some (restoreUploadBatchFromStorage s)
  | .jobsListed active => if s.jobsAwaited = true then some (restoreFromActiveBackgroundJobs active s) else none
  | .pump k => match s.pumps[k]? with
    | some wake => if wake ≤ s.now then some (pumpRun { s with pumps := s.pumps.eraseIdx k }) else none
    | none => none
  | .settled => if 0 < s.settling then some (settle { s with settling := s.settling - 1 }) else none
  | .worker i event => s.workers[i]?.bind (fun worker => workerStep i worker s event)
  | .resume j event => s.resumes[j]?.bind (fun resume => resumeStep j resume s event)

def start : Manager := {}

end Ownly.Tray
