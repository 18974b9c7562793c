import Ownly.Tray.Stranded

namespace Ownly.Tray
open List Option

-- The manager, and the rows that a call of `cancelUploadItem` has taken out of the tray.
structure Watched where
  manager : Manager
  cancelled : List Nat

-- The row that `cancelUploadItem` takes out.
def cancels (s : Manager) (itemId : Nat) : Prop :=
  ∃ item ∈ row? s itemId, uploading s ∧ item.status ≠ .done ∧ item.isReprocess = false

instance (s : Manager) (itemId : Nat) : Decidable (cancels s itemId) := by unfold cancels; infer_instance

def nextCancelled (w : Watched) : Event → List Nat
  | .cancelUploadItem itemId => if cancels w.manager itemId then itemId :: w.cancelled else w.cancelled
  | _ => w.cancelled

def watchedStep (w : Watched) (e : Event) : Option Watched := (step w.manager e).map (fun next => ⟨next,nextCancelled w e⟩)

def watchedStart : Watched := ⟨start,[]⟩

-- The row for which the event calls `uploadFileWithProgress`.
def calls (s : Manager) : Event → Option Nat
  | .worker i .wake => match s.workers[i]? with
    | none => none
    | some worker => match worker.phase with
      | .unpausing wake => if wake ≤ s.now then some worker.claimed.id else none
      | _ => none
  | _ => none

def settled : UploadItemStatus → Bool
  | .done => true
  | .cancelled => true
  | _ => false

def resumes (id : Nat) : Event → Bool
  | .retryUploadItem itemId => decide (itemId = id)
  | .reattachUploadFile uploadId _ => decide (uploadId = id)
  | _ => false

-- No call for a cancelled row, and no change in the status of a row that is done or
-- cancelled (unless it leaves the tray).
structure Stopped (w : Watched) (e : Event) : Prop where
  calls : ∀ id ∈ calls w.manager e, id ∉ w.cancelled
  status : ∀ next, step w.manager e = some next → ∀ item ∈ rows w.manager, settled item.status = true →
    resumes item.id e = false → ∀ new ∈ rows next, new.id = item.id → new.status = item.status

def waits (worker : Worker) : Bool := match worker.phase with
  | .unpausing _ => true
  | _ => false

def backsOff (worker : Worker) : Bool := match worker.phase with
  | .backoff _ => true
  | _ => false

def pledges (worker : Worker) : Bool := match worker.phase with
  | .registered file => !file.awaitingIngest
  | _ => false

def pledged (workers : List Worker) (id : Nat) : Prop := ∃ worker ∈ workers, worker.claimed.id = id ∧ pledges worker = true

instance (workers : List Worker) (id : Nat) : Decidable (pledged workers id) := by unfold pledged; infer_instance

instance (polls : List Resume) (id : Nat) : Decidable (polling polls id) := by unfold polling; infer_instance

def drops (s : Manager) (resume : Resume) : ResumeEvent → Bool
  | .poll => decide (pollCancelled s resume.uploadId)
  | .polled (some ingest) => decide (pollCancelled s resume.uploadId ∨ ingest = .cancelled)
  | _ => false

-- ... and one that ends it without a look at whether its row was cancelled.
def blind (resume : Resume) : ResumeEvent → Bool
  | .polled none => true
  | .emitted => decide (resume.phase = .emitting true)
  | _ => false

-- No run of a cancelled row is about to call, or comes back from its backoff to a batch; and
-- a row gets its last status from the run that uploads it or from the one that polls for it,
-- not from both.
def Orderly (w : Watched) : Event → Prop
  | .cancelUploadItem itemId => cancels w.manager itemId → ∀ worker ∈ w.manager.workers, worker.claimed.id = itemId → waits worker = false
  | .worker i event => ∀ worker ∈ w.manager.workers[i]?,
      (event = .wake → backsOff worker = true → worker.claimed.id ∈ w.cancelled → w.manager.batch = none) ∧
      (event = .result → pledges worker = true → ¬polling w.manager.resumes worker.claimed.id)
  | .resume j event => ∀ resume ∈ w.manager.resumes[j]?,
      (drops w.manager resume event = true → ¬pledged w.manager.workers resume.uploadId) ∧
      (blind resume event = true → ∀ item ∈ row? w.manager resume.uploadId, item.status ≠ .cancelled)
  | _ => True

instance (w : Watched) : (e : Event) → Decidable (Orderly w e) := by
  intro e
  cases e with
  | cancelUploadItem itemId => unfold Orderly; infer_instance
  | worker i event => unfold Orderly; infer_instance
  | resume j event => unfold Orderly; infer_instance
  | _ => exact instDecidableTrue

variable {s t u next : Manager} {batch : UploadBatch} {item : UploadItem} {items : List UploadItem} {f : UploadItem → UploadItem}
  {worker : Worker} {resume : Resume} {id i j k : Nat} {settling : Nat} {ids : List Nat} {e : Event}

def known (s : Manager) (id : Nat) : Prop :=
  (∃ item ∈ rows s, item.id = id) ∨ ∃ batch ∈ s.stored, ∃ item ∈ batch.items, item.id = id

structure Traced (s t : Manager) : Prop where
  created : s.created ≤ t.created
  known : ∀ id, known t id → known s id ∨ s.created ≤ id
  workers : ∀ worker ∈ t.workers, waits worker = true →
    (∃ old ∈ s.workers, old.claimed.id = worker.claimed.id ∧ waits old = true) ∨ Tray.known s worker.claimed.id ∨
      s.created ≤ worker.claimed.id

theorem Traced.refl (s : Manager) : Traced s s :=
  ⟨Nat.le_refl _,fun _ known => .inl known,fun worker member wait => .inl ⟨worker,member,rfl,wait⟩⟩

theorem Traced.trans (first : Traced s t) (second : Traced t u) : Traced s u where
  created := Nat.le_trans first.created second.created
  known id known := by
    rcases second.known id known with before | fresh
    · exact first.known id before
    · exact .inr (Nat.le_trans first.created fresh)
  workers worker member wait := by
    rcases second.workers worker member wait with ⟨old,before,same,waited⟩ | known | fresh
    · rw [← same]
      exact first.workers old before waited
    · exact .inr (first.known _ known)
    · exact .inr (.inr (Nat.le_trans first.created fresh))

theorem Traced.of (created : s.created ≤ t.created)
    (ids : ∀ item ∈ rows t, (∃ old ∈ rows s, old.id = item.id) ∨ s.created ≤ item.id)
    (stored : t.stored = s.stored ∨ t.stored = (emitBatch t).stored) (workers : t.workers = s.workers) : Traced s t where
  created := created
  known id known := by
    have row : ∀ item ∈ rows t, Tray.known s item.id ∨ s.created ≤ item.id :=
      fun item member => (ids item member).imp .inl (fun fresh => fresh)
    rcases known with ⟨item,member,rfl⟩ | ⟨batch,kept,item,member,rfl⟩
    · exact row item member
    · rcases stored with same | same
      · exact .inl (.inr ⟨batch,same ▸ kept,item,member,rfl⟩)
      · rw [same] at kept
        obtain ⟨shown,some_,rfl⟩ := map_eq_some_iff.mp (mem_def.mp kept)
        obtain ⟨original,inside,rfl⟩ := mem_map.mp member
        exact row original (by rw [mem_rows some_]; exact inside)
  workers worker member wait := .inl ⟨worker,workers ▸ member,rfl,wait⟩

theorem Traced.same (created : t.created = s.created) (batch : t.batch = s.batch) (stored : t.stored = s.stored)
    (workers : t.workers = s.workers) : Traced s t :=
  .of (Nat.le_of_eq created.symm) (fun item member => .inl ⟨item,by rwa [rows,batch] at member,rfl⟩) (.inl stored) workers

theorem traced_emit : Traced s (emitBatch s) := .of (Nat.le_refl _) (fun item member => .inl ⟨item,member,rfl⟩) (.inr rfl) rfl

theorem traced_update (same : ∀ item, (f item).id = item.id) : Traced s (updateItems f s) := by
  cases present : s.batch with
  | none => rw [updateItems_none present]; exact .refl s
  | some batch =>
    rw [updateItems_some present]
    refine .of (Nat.le_refl _) (fun item member => ?_) (.inr rfl) rfl
    obtain ⟨old,inside,rfl⟩ := mem_map.mp (show item ∈ batch.items.map f from member)
    exact .inl ⟨old,by rw [mem_rows present]; exact inside,(same old).symm⟩

theorem traced_row (same : ∀ item, (f item).id = item.id) : Traced s (updateRow id f s) := by
  refine traced_update (fun item => ?_)
  split
  · exact same item
  · rfl

theorem traced_complete : Traced s (maybeCompleteBatch s) := by
  have rows_ := rows_complete (s := s)
  unfold maybeCompleteBatch at rows_ ⊢
  split
  · next ended =>
    rw [if_pos ended] at rows_
    exact .of (Nat.le_refl _) (fun item member => .inl ⟨item,rows_ ▸ member,rfl⟩) (.inr rfl) rfl
  · exact .refl s

theorem traced_idle : Traced s (maybeCompleteBatchWhenIdle s) := by
  unfold maybeCompleteBatchWhenIdle
  split
  · exact .refl s
  · exact traced_complete

theorem traced_pump : Traced s (pumpUploadQueue s) := by
  unfold pumpUploadQueue
  split
  · exact .same rfl rfl rfl rfl
  · exact .refl s

theorem traced_processing : Traced s (pumpProcessingQueue s) := by
  have row : ∀ (s : Manager) (item : UploadItem), Traced s (pumpProcessingRow s item) := by
    intro s item
    unfold pumpProcessingRow
    split
    · exact .refl s
    · split
      · unfold resumeUploadItemProcessing
        split
        · exact .refl s
        · split
          · exact .refl s
          · refine Traced.trans ?_ traced_emit
            exact .same rfl rfl rfl rfl
      · exact .refl s
  have fold : ∀ (items : List UploadItem) (s : Manager), Traced s (items.foldl pumpProcessingRow s) := by
    intro items
    induction items with
    | nil => exact .refl
    | cons item rest ih => exact fun s => (row s item).trans (ih _)
  unfold pumpProcessingQueue
  split
  · exact fold _ s
  · exact .refl s

theorem traced_release : Traced s (releaseUploadByteSlot id s) := by
  unfold releaseUploadByteSlot
  split
  · refine Traced.trans (Traced.trans ?_ traced_pump) traced_processing
    exact traced_row (fun _ => rfl)
  · exact .refl s

theorem traced_filter (some_ : s.batch = some batch) (p : UploadItem → Bool)
    (kept : t.batch = if batch.items.filter p = [] then none else some { batch with items := batch.items.filter p })
    (created : t.created = s.created) (stored : t.stored = s.stored) (workers : t.workers = s.workers) : Traced s t := by
  have rows_ : rows t = (rows s).filter p := by
    rw [← keep_rows some_ p,rows,rows,kept]
  refine .of (Nat.le_of_eq created.symm) (fun item member => .inl ⟨item,?_,rfl⟩) (.inl stored) workers
  rw [rows_] at member
  exact (mem_filter.mp member).1

theorem traced_remove : Traced s (removeItemFromActiveBatch id s) := by
  unfold removeItemFromActiveBatch
  split
  · exact .refl s
  · next some_ =>
    refine Traced.trans ?_ (traced_complete.trans (traced_emit.trans traced_pump))
    exact traced_filter some_ _ rfl rfl rfl rfl

theorem traced_reopen : Traced s (reopen s) := by
  have rows_ := (reopen_keeps (s := s)).1
  unfold reopen at rows_ ⊢
  split
  · exact .refl s
  · next closed =>
    rw [if_neg closed] at rows_
    exact .of (Nat.le_refl _) (fun item member => .inl ⟨item,rows_ ▸ member,rfl⟩) (.inr rfl) rfl

theorem traced_workers {ws : List Worker}
    (old : ∀ worker ∈ ws, waits worker = true → ∃ old ∈ s.workers, old.claimed.id = worker.claimed.id ∧ waits old = true) :
    Traced s { s with workers := ws, settling := settling } :=
  ⟨Nat.le_refl _,fun _ known => .inl known,fun worker member wait => .inl (old worker member wait)⟩

section
variable (found : s.workers[i]? = some worker)
include found

theorem traced_set (other : Worker) (same : other.claimed.id = worker.claimed.id)
    (wait : waits other = true → waits worker = true) : Traced s { s with workers := s.workers.set i other, settling := settling } := by
  refine traced_workers (fun new member waited => ?_)
  obtain ⟨k,present⟩ := mem_iff_getElem?.mp member
  rcases Slots.set_cases present with ⟨rfl,rfl⟩ | ⟨_,before⟩
  · exact ⟨worker,mem_of_getElem? found,same.symm,wait waited⟩
  · exact ⟨new,mem_of_getElem? before,rfl,waited⟩

theorem traced_phase (phase : WorkerPhase) (other : ∀ wake, phase ≠ .unpausing wake) :
    Traced s (setPhase i worker phase s) := by
  refine traced_set found { worker with phase } rfl (fun wait => ?_)
  unfold waits at wait
  split at wait
  · next same => exact absurd same (other _)
  · cases wait

theorem traced_end : Traced s (endWorker i worker s) :=
  traced_set found { worker with phase := .ended } rfl (fun wait => nomatch wait)

theorem traced_last (same : ∀ item, (f item).id = item.id) :
    Traced s (endWorker i worker (updateRow id f s)) := by
  refine (traced_row same).trans (traced_end ?_)
  rw [updateRow,update_workers]
  exact found

end

theorem traced_abort : Traced s (abortUploadSession id s) := by
  refine traced_workers (fun new member waited => ?_)
  obtain ⟨old,before,rfl⟩ := mem_map.mp member
  split at waited
  · cases waited
  · next kept => exact ⟨old,before,by rw [if_neg kept],waited⟩

section
variable (found : s.workers[i]? = some worker)
include found

theorem traced_fail (error : Option ApiError) : Traced s (failAttempt i worker error s) := by
  unfold failAttempt
  dsimp only
  split
  · have paused : Traced s (if rateLimited error then pauseUploadPumpFor (retryAfterMs error (worker.retryAttempt + 1)) s else s) := by
      split
      · exact .same rfl rfl rfl rfl
      · exact .refl s
    have same : (if rateLimited error then pauseUploadPumpFor (retryAfterMs error (worker.retryAttempt + 1)) s else s).workers =
        s.workers := by split <;> rfl
    generalize (if rateLimited error then pauseUploadPumpFor (retryAfterMs error (worker.retryAttempt + 1)) s else s) = p at paused same ⊢
    have written : Traced p (updateRow worker.claimed.id claim p) := traced_row (fun _ => rfl)
    have kept : (updateRow worker.claimed.id claim p).workers[i]? = some worker := by
      rw [updateRow,update_workers,same]
      exact found
    exact paused.trans (written.trans (traced_set kept _ rfl (fun wait => by cases wait)))
  · exact traced_last found (fun _ => rfl)

theorem traced_finish (file : ServerFile) : Traced s (finishAttempt i worker file s) := by
  unfold finishAttempt
  split
  · refine traced_release.trans (traced_processing.trans (traced_end ?_))
    rw [processing_workers,release_workers]
    exact found
  · refine traced_release.trans (traced_last ?_ (fun _ => rfl))
    rw [release_workers]
    exact found

theorem worker_traced {event : WorkerEvent} (awake : backsOff worker = false)
    (worked : Worked i worker s event next) : Traced s next := by
  cases worked with
  | started =>
    refine traced_phase found _ (fun wake => ?_)
    split <;> exact (nomatch ·)
  | retried phase => rw [backsOff,phase] at awake; cases awake
  | token => exact traced_phase found .sending (fun _ => (nomatch ·))
  | session => exact traced_row (fun _ => rfl)
  | sent => exact (traced_phase found .sent (fun _ => (nomatch ·))).trans traced_release
  | answered _ file =>
    have released : Traced s (releaseUploadByteSlot worker.claimed.id (setPhase i worker (.registered file) s)) :=
      (traced_phase found (.registered file) (fun _ => (nomatch ·))).trans traced_release
    exact released.trans (traced_row (fun _ => rfl))
  | finished => exact traced_finish found _
  | failed _ error => exact traced_fail found error

end

theorem resume_traced {event : ResumeEvent} (resumed : Resumed j resume s event next) : Traced s next := by
  rcases resumed.ends with ⟨phase,rfl⟩ | ⟨status,_,rfl⟩
  · exact .same rfl rfl rfl rfl
  · have set_ : Traced s (setResume j resume .ended s) := .same rfl rfl rfl rfl
    have written : Traced s (updateRow resume.uploadId (fun item =>
        { item with status, uploadedFileId := if status = .done then some resume.fileId else item.uploadedFileId })
        (setResume j resume .ended s)) := set_.trans (traced_row (fun _ => rfl))
    refine written.trans (Traced.trans (Traced.trans (Traced.trans ?_ traced_emit) traced_processing) traced_complete)
    exact .same rfl rfl rfl rfl

theorem upload_traced (member : item ∈ rows s) : Traced s (uploadClaimedItem item s) := by
  unfold uploadClaimedItem
  split
  · exact .same rfl rfl rfl rfl
  · refine ⟨Nat.le_refl _,fun _ known => .inl known,fun worker present wait => ?_⟩
    rcases mem_append.mp present with old | new
    · exact .inl ⟨worker,old,rfl,wait⟩
    · cases mem_singleton.mp new
      exact .inr (.inl (.inl ⟨item,member,rfl⟩))

theorem claimLoop_traced (slots fuel : Nat) : ∀ s, Sound s → Traced s (claimLoop slots fuel s) := by
  induction fuel with
  | zero => exact fun s _ => .refl s
  | succ fuel ih =>
    intro s sound
    unfold claimLoop
    split
    · split
      · exact .refl s
      · next item t taken =>
        obtain ⟨_,sound',inside,_⟩ := turn_sound sound taken
        have claimed : Traced s t := by
          obtain ⟨queued,_,_,_,rfl⟩ := claim_some sound.once taken
          exact traced_row (fun _ => rfl)
        exact claimed.trans ((upload_traced inside).trans (ih _ sound'))
    · exact .refl s

theorem pumpRun_traced (sound : Sound s) : Traced s (pumpRun s) := by
  unfold pumpRun
  split
  · exact claimLoop_traced _ _ s sound
  · exact .refl s

theorem cancel_traced : Traced s (cancelUploadItem id s) := by
  unfold cancelUploadItem
  split
  · exact .refl s
  · split
    · exact .refl s
    · dsimp only
      have marked : Traced s { s with abortedUploadItemIds := insertId id s.abortedUploadItemIds } := .same rfl rfl rfl rfl
      split
      · have written : Traced s (updateRow id (fun item => { item with status := .cancelled })
            { s with abortedUploadItemIds := insertId id s.abortedUploadItemIds }) := marked.trans (traced_row (fun _ => rfl))
        refine written.trans (Traced.trans (Traced.trans ?_ traced_complete) traced_processing)
        exact .same rfl rfl rfl rfl
      · refine marked.trans (Traced.trans ?_ traced_remove)
        split
        · exact traced_abort
        · exact .refl _

theorem cancelAll_traced : Traced s (cancelAllPendingHlsReprocess s) := by
  unfold cancelAllPendingHlsReprocess
  refine Traced.trans (Traced.trans ?_ (traced_update (fun item => ?_))) traced_complete
  · exact .same rfl rfl rfl rfl
  · split <;> rfl

theorem clear_traced : Traced s (clearCancelledHlsReprocessItems s) := by
  unfold clearCancelledHlsReprocessItems
  split
  · exact .refl s
  · next some_ =>
    refine Traced.trans (Traced.trans ?_ traced_complete) traced_emit
    exact traced_filter some_ _ rfl rfl rfl rfl

theorem itemPaused_traced (paused : Bool) : Traced s (setUploadItemPaused id paused s) := by
  have written : Traced s (updateItems (fun item => if item.id = id ∧ item.status = .queued then { item with paused } else item) s) := by
    refine traced_update (fun item => ?_)
    split <;> rfl
  unfold setUploadItemPaused
  dsimp only
  split
  · exact written
  · exact written.trans traced_pump

theorem batchPaused_traced (paused : Bool) : Traced s (setUploadBatchPaused paused s) := by
  have set_ : Traced s { s with userUploadPaused := paused } := .same rfl rfl rfl rfl
  unfold setUploadBatchPaused
  refine Traced.trans ?_ traced_emit
  split
  · exact set_
  · exact set_.trans traced_pump

theorem dismiss_traced : Traced s (dismissUploadBatch s) := by
  unfold dismissUploadBatch
  split
  · exact .refl s
  · exact .of (Nat.le_refl _) (fun item member => nomatch member) (.inr rfl) rfl

theorem startBatch_traced (sound : Sound s) (entries : List UploadBatchEntry) (folder : Option Nat) :
    Traced s (startUploadBatch entries folder s) := by
  by_cases none_ : entries = []
  · rw [startUploadBatch,if_pos none_]
    exact .refl s
  · obtain ⟨t,same,_,workers,_,created,saved,from_,_⟩ := startBatch_queued sound none_ folder
    rw [same]
    refine Traced.trans (.of (by omega) (fun item member => ?_) (.inr (by rw [saved])) workers) traced_pump
    rcases from_ item member with old | new
    · exact .inl ⟨item,old,rfl⟩
    · exact .inr ((ids_once (queued_ids folder entries s.created)).2 item new).1

theorem retry_traced : Traced s (retryUploadItem id s) := by
  unfold retryUploadItem
  split
  · have dropped : Traced s { s with abortedUploadItemIds := removeId id s.abortedUploadItemIds } := .same rfl rfl rfl rfl
    refine dropped.trans (Traced.trans (Traced.trans ?_ traced_reopen) traced_pump)
    exact traced_row (fun _ => rfl)
  · exact .refl s

theorem reattach_traced (file : LocalFile) : Traced s (reattachUploadFile id file s) := by
  unfold reattachUploadFile
  split
  · refine Traced.trans (Traced.trans ?_ traced_reopen) traced_pump
    exact traced_row (fun _ => rfl)
  · exact .refl s

theorem trackFile_rows {file : TrackedFile} (member : item ∈ rows (trackFile s file)) :
    item ∈ rows s ∨ item.id = s.created ∧ item.status = .uploading := by
  unfold trackFile at member
  split at member
  · exact .inl member
  · obtain ⟨batch,some_,inside⟩ := rows_some member
    obtain ⟨old,_,rfl⟩ := map_eq_some_iff.mp some_
    rcases mem_append.mp inside with before | new
    · exact .inl before
    · cases mem_singleton.mp new
      exact .inr ⟨rfl,rfl⟩

theorem track_traced (files : List TrackedFile) : Traced s (trackFiles files s) := by
  have file_ : ∀ (s : Manager) (file : TrackedFile), Traced s (trackFile s file) := by
    intro s file
    have rows_ : ∀ item ∈ rows (trackFile s file), item ∈ rows s ∨ item.id = s.created ∧ item.status = .uploading :=
      fun _ => trackFile_rows
    unfold trackFile at rows_ ⊢
    split
    · exact .refl s
    · next other =>
      rw [if_neg other] at rows_
      refine .of (Nat.le_succ _) (fun item member => ?_) (.inl rfl) rfl
      exact (rows_ item member).imp (fun old => ⟨item,old,rfl⟩) (fun new => Nat.le_of_eq new.1.symm)
  have fold : ∀ (files : List TrackedFile) (s : Manager), Traced s (files.foldl trackFile s) := by
    intro files
    induction files with
    | nil => exact .refl
    | cons file rest ih => exact fun s => (file_ s file).trans (ih _)
  have active : Traced s (ensureUploadingBatch s) := by
    unfold ensureUploadingBatch
    split
    · exact .refl s
    · exact .of (Nat.le_refl _) (fun item member => .inl ⟨item,member,rfl⟩) (.inl rfl) rfl
  unfold trackFiles
  split
  · exact .refl s
  · dsimp only
    split
    · exact active
    · exact active.trans ((fold files _).trans (traced_emit.trans traced_processing))

theorem jobs_traced (active : List TrackedFile) : Traced s (restoreFromActiveBackgroundJobs active s) := by
  unfold restoreFromActiveBackgroundJobs
  dsimp only
  split
  · exact .same rfl rfl rfl rfl
  · refine Traced.trans (Traced.trans ?_ traced_emit) traced_processing
    refine .of (Nat.le_add_right _ active.length) (fun item member => ?_) (.inl rfl) rfl
    exact .inr ((ids_once (tracked_ids active s.created)).2 item member).1

theorem traced_restored {status : BatchStatus} (kept : s.stored = some batch) (same : ∀ item, (f item).id = item.id) :
    Traced s (emitBatch { s with restoreStarted := true, batch := some ⟨status,batch.folderId,batch.items.map f⟩ }) := by
  have row : ∀ item ∈ batch.items.map f, known s item.id := by
    intro item member
    obtain ⟨old,inside,rfl⟩ := mem_map.mp member
    exact .inr ⟨batch,kept,old,inside,(same old).symm⟩
  refine ⟨Nat.le_refl _,?_,fun worker member wait => .inl ⟨worker,member,rfl,wait⟩⟩
  rintro id (⟨item,member,rfl⟩ | ⟨shown,saved,item,member,rfl⟩)
  · exact .inl (row item member)
  · cases saved
    obtain ⟨original,inside,rfl⟩ := mem_map.mp member
    exact .inl (row original inside)

theorem restore_traced : Traced s (restoreUploadBatchFromStorage s) := by
  unfold restoreUploadBatchFromStorage
  split
  · exact .refl s
  · dsimp only
    split
    · exact .same rfl rfl rfl rfl
    · next persisted kept =>
      split
      · refine ⟨Nat.le_refl _,?_,fun worker member wait => .inl ⟨worker,member,rfl,wait⟩⟩
        rintro id (row | ⟨_,saved,_⟩)
        · exact .inl (.inl row)
        · cases saved
      · split
        · exact traced_restored kept (fun _ => rfl)
        · exact (traced_restored kept (fun _ => reconcile_id)).trans (traced_processing.trans traced_complete)

theorem reload_traced : Traced s (reload s) where
  created := Nat.le_refl _
  known id known := by
    rcases known with ⟨_,member,_⟩ | saved
    · cases member
    · exact .inl (.inr saved)
  workers _ member := nomatch member

theorem removeItem_traced : Traced s (removeUploadBatchItem id s) := by
  unfold removeUploadBatchItem
  split
  · exact traced_remove
  · exact .refl s

theorem settle_traced : Traced s (settle s) := traced_pump.trans (traced_processing.trans traced_idle)

def returns (s : Manager) : Event → Prop
  | .worker i .wake => ∃ worker ∈ s.workers[i]?, backsOff worker = true
  | _ => False

theorem step_traced (sound : Sound s) (fired : step s e = some next) (other : ¬returns s e) : Traced s next := by
  cases e with
  | tick ms => cases fired; exact .same rfl rfl rfl rfl
  | sample sample => cases fired; exact .same rfl rfl rfl rfl
  | startUploadBatch entries folder => cases fired; exact startBatch_traced sound entries folder
  | setUploadBatchPaused paused => cases fired; exact batchPaused_traced paused
  | setUploadItemPaused itemId paused => cases fired; exact itemPaused_traced paused
  | cancelUploadItem itemId => cases fired; exact cancel_traced
  | reprocessCancelled => cases fired; exact cancelAll_traced
  | clearCancelledHlsReprocessItems => cases fired; exact clear_traced
  | removeUploadBatchItem itemId => cases fired; exact removeItem_traced
  | dismissUploadBatch => cases fired; exact dismiss_traced
  | retryUploadItem itemId => cases fired; exact retry_traced
  | reattachUploadFile uploadId file => cases fired; exact reattach_traced file
  | trackFiles files => cases fired; exact track_traced files
  | reload => cases fired; exact reload_traced
  | restoreUploadBatchFromStorage => cases fired; exact restore_traced
  | jobsListed active =>
    obtain ⟨_,same⟩ := ite_none_right_eq_some.mp fired
    cases same
    exact jobs_traced active
  | pump k =>
    simp only [step] at fired
    split at fired
    · obtain ⟨_,same⟩ := ite_none_right_eq_some.mp fired
      cases same
      have woken : Traced s { s with pumps := s.pumps.eraseIdx k } := .same rfl rfl rfl rfl
      exact woken.trans (pumpRun_traced (sound.congr rfl rfl rfl rfl rfl))
    · cases fired
  | settled =>
    obtain ⟨_,same⟩ := ite_none_right_eq_some.mp fired
    cases same
    have taken : Traced s { s with settling := s.settling - 1 } := .same rfl rfl rfl rfl
    exact taken.trans settle_traced
  | worker i event =>
    obtain ⟨worker,found,fired⟩ := bind_eq_some_iff.mp fired
    have worked := workerStep_worked fired
    refine worker_traced found (Bool.eq_false_iff.mpr (fun backs => ?_)) worked
    cases worked with
    | started phase => rw [backsOff,phase] at backs; cases backs
    | retried => exact other ⟨worker,found,backs⟩
    | token phase => rw [backsOff,phase] at backs; cases backs
    | session phase => rw [backsOff,phase] at backs; cases backs
    | sent phase => rw [backsOff,phase] at backs; cases backs
    | answered phase => rcases phase with phase | phase <;> rw [backsOff,phase] at backs <;> cases backs
    | finished phase => rw [backsOff,phase] at backs; cases backs
    | failed phase => rcases phase with phase | phase | phase <;> rw [backsOff,phase] at backs <;> cases backs
  | resume j event =>
    obtain ⟨resume,found,fired⟩ := bind_eq_some_iff.mp fired
    exact resume_traced (resumeStep_resumed fired)

-- The cancelled rows do not come back, and no run of theirs is about to call.
structure Gone (w : Watched) : Prop where
  known : ∀ id ∈ w.cancelled, id < w.manager.created ∧ ¬known w.manager id
  awake : ∀ worker ∈ w.manager.workers, worker.claimed.id ∈ w.cancelled → waits worker = false

theorem Gone.traced (gone : Gone ⟨s,ids⟩) (traced : Traced s t) : Gone ⟨t,ids⟩ where
  known id member := by
    obtain ⟨old,unknown⟩ := gone.known id member
    refine ⟨Nat.lt_of_lt_of_le old traced.created,fun known => ?_⟩
    rcases traced.known id known with known | fresh
    · exact unknown known
    · exact absurd old (Nat.not_lt.mpr fresh)
  awake worker inside member := by
    obtain ⟨old,unknown⟩ := gone.known _ member
    refine Bool.eq_false_iff.mpr (fun wait => ?_)
    rcases traced.workers worker inside wait with ⟨before,here,same,waited⟩ | known | fresh
    · exact absurd ((gone.awake before here (same ▸ member)).symm.trans waited) (by decide)
    · exact unknown known
    · exact absurd old (Nat.not_lt.mpr fresh)

theorem pump_snapshot : (pumpUploadQueue (emitBatch s)).stored = (emitBatch (pumpUploadQueue (emitBatch s))).stored := by
  unfold pumpUploadQueue
  split <;> rfl

theorem remove_unknown (some_ : s.batch = some batch) : ¬known (removeItemFromActiveBatch id s) id := by
  rintro (⟨item,member,named⟩ | ⟨shown,saved,item,member,named⟩)
  · exact (remove_rows member).2 named
  · have snapshot : (removeItemFromActiveBatch id s).stored = (emitBatch (removeItemFromActiveBatch id s)).stored := by
      unfold removeItemFromActiveBatch
      rw [some_]
      exact pump_snapshot
    rw [snapshot] at saved
    obtain ⟨left,kept,rfl⟩ := map_eq_some_iff.mp (mem_def.mp saved)
    obtain ⟨original,inside,rfl⟩ := mem_map.mp member
    exact (remove_rows (show original ∈ rows _ by rw [mem_rows kept]; exact inside)).2 named

theorem cancel_gone (sound : Sound s) (gone : Gone ⟨s,ids⟩) (taken : cancels s id)
    (awake : ∀ worker ∈ s.workers, worker.claimed.id = id → waits worker = false) : Gone ⟨cancelUploadItem id s,id :: ids⟩ := by
  have later : Gone ⟨cancelUploadItem id s,ids⟩ := gone.traced cancel_traced
  obtain ⟨item,found,open_,status,first⟩ := taken
  obtain ⟨member,named⟩ := row_some found
  obtain ⟨batch,some_,_⟩ := rows_some member
  have same : cancelUploadItem id s = removeItemFromActiveBatch id
      (if item.status = .uploading then abortUploadSession id { s with abortedUploadItemIds := insertId id s.abortedUploadItemIds }
        else { s with abortedUploadItemIds := insertId id s.abortedUploadItemIds }) := by
    have kept : ¬(¬uploading s ∨ item.status = .done) := by
      rintro (closed | done)
      · exact closed open_
      · exact status done
    rw [cancelUploadItem,show row? s id = some item from found]
    dsimp only
    rw [if_neg kept,first,if_neg Bool.false_ne_true]
  refine ⟨fun other inside => ?_,fun worker inside cancelled => ?_⟩
  · rcases mem_cons.mp inside with rfl | old
    · refine ⟨Nat.lt_of_lt_of_le (named ▸ sound.fresh member) cancel_traced.created,?_⟩
      dsimp only
      rw [same]
      split <;> exact remove_unknown some_
    · exact later.known other old
  · rcases mem_cons.mp cancelled with mine | old
    · dsimp only at inside
      rw [same,remove_workers] at inside
      split at inside
      · obtain ⟨before,here,rfl⟩ := mem_map.mp inside
        split
        · rfl
        · next kept => rw [if_neg kept] at mine; exact awake before here mine
      · exact awake worker inside mine
    · exact later.awake worker inside old

theorem watched_gone {w after : Watched} (sound : Sound w.manager) (gone : Gone w) (orderly : Orderly w e)
    (fired : watchedStep w e = some after) : Gone after := by
  obtain ⟨s,ids⟩ := w
  obtain ⟨next,went,rfl⟩ := map_eq_some_iff.mp fired
  by_cases back : returns s e
  · cases e with
    | worker i event =>
      cases event with
      | wake =>
        obtain ⟨worker,found,backs⟩ := back
        obtain ⟨_,present,stepped⟩ := bind_eq_some_iff.mp went
        cases present.symm.trans found
        have worked := workerStep_worked stepped
        cases worked with
        | started phase => rw [backsOff,phase] at backs; cases backs
        | retried phase =>
          show Gone ⟨retryAttempt i worker s,ids⟩
          unfold retryAttempt
          split
          · exact gone.traced (traced_end found)
          · next stays =>
            refine ⟨gone.known,fun new inside cancelled => ?_⟩
            obtain ⟨k,present⟩ := mem_iff_getElem?.mp inside
            rcases Slots.set_cases present with ⟨rfl,rfl⟩ | ⟨_,before⟩
            · exact absurd (.inl ((orderly worker found).1 rfl backs cancelled)) stays
            · exact gone.awake new (mem_of_getElem? before) cancelled
      | _ => exact back.elim
    | _ => exact back.elim
  · have traced := step_traced sound went back
    cases e with
    | cancelUploadItem itemId =>
      cases went
      show Gone ⟨cancelUploadItem itemId s,if cancels s itemId then itemId :: ids else ids⟩
      split
      · next taken => exact cancel_gone sound gone taken (orderly taken)
      · exact gone.traced traced
    | _ => exact gone.traced traced

end Ownly.Tray
