import Mathlib.Data.List.Perm.Subperm
import Ownly.Tray.Stranded

namespace Ownly.Tray
open List Option Function

def bytePhase (worker : Worker) : Bool := match worker.phase with
  | .unpausing _ => true
  | .preparing => true
  | .sending => true
  | .backoff _ => true
  | _ => false

-- Its call of `uploadFileWithProgress` is sending bytes, or about to.
def sendsBytes (worker : Worker) : Bool := match worker.phase with
  | .preparing => true
  | .sending => true
  | _ => false

-- It has bytes to send and nothing that `abortUploadSession` could abort.
def unabortable (worker : Worker) : Bool := bytePhase worker && !worker.inSession

def senders (s : Manager) : Nat := (s.workers.filter sendsBytes).length

def givenDelay (error : Option ApiError) : Bool := (error.bind ApiError.retryAfterSeconds).any (fun n => decide (n ≠ 0))

structure Timed where
  manager : Manager
  due : Nat → Nat

def nextDue (w : Timed) : Event → Nat → Nat
  | .worker i (.failure error) => match w.manager.workers[i]? with
    | none => w.due
    | some worker =>
      Function.update w.due i (if givenDelay error then 0 else w.manager.now + uploadRetryDelayMs (worker.retryAttempt + 1))
  | .reload => fun _ => 0
  | _ => w.due

def timedStep (w : Timed) (e : Event) : Option Timed := (step w.manager e).map (fun next => ⟨next,nextDue w e⟩)

def timedStart : Timed := ⟨start,fun _ => 0⟩

def attempt (s : Manager) : Event → Option Nat
  | .worker i .wake => match s.workers[i]?.map Worker.phase with
    | some (.unpausing _) => some i
    | _ => none
  | _ => none

-- No attempt starts in a pause, and no retry before it is due.
def Punctual (w : Timed) (e : Event) : Prop := (timedStep w e).isSome → ∀ i ∈ attempt w.manager e,
  w.manager.uploadPumpPausedUntil ≤ w.manager.now ∧ w.due i ≤ w.manager.now

instance (w : Timed) (e : Event) : Decidable (Punctual w e) := by unfold Punctual; infer_instance

def unpausing (worker : Worker) : Option Nat := match worker.phase with
  | .unpausing wake => some wake
  | _ => none

def Spaced (s : Manager) (worker : Worker) (error : Option ApiError) : Prop :=
  worker.phase ≠ .sent ∧
  (rateLimited error = true → ∀ other ∈ s.workers, ∀ wake ∈ unpausing other,
    s.now + retryAfterMs error (worker.retryAttempt + 1) ≤ wake) ∧
  (givenDelay error = false → rateLimited error = true ∨
    s.now + uploadRetryDelayMs (worker.retryAttempt + 1) ≤ s.uploadPumpPausedUntil)

instance (s : Manager) (worker : Worker) (error : Option ApiError) : Decidable (Spaced s worker error) := by
  unfold Spaced; infer_instance

-- No worker loses its row while it goes on, and no pause or delay comes too late for one.
def Gentle (w : Timed) : Event → Prop
  | .cancelUploadItem itemId => ∀ worker ∈ w.manager.workers, worker.claimed.id = itemId → unabortable worker = false
  | .jobsListed active => active = [] ∨ ∀ worker ∈ w.manager.workers, bytePhase worker = false
  | .worker i (.failure error) => ∀ worker ∈ w.manager.workers[i]?, willRetry worker error = true → Spaced w.manager worker error
  | _ => True

instance (w : Timed) : (e : Event) → Decidable (Gentle w e)
  | .cancelUploadItem itemId => by unfold Gentle; infer_instance
  | .jobsListed active => by unfold Gentle; infer_instance
  | .worker i (.failure error) => by unfold Gentle; infer_instance
  | .worker _ .wake | .worker _ .csrfToken | .worker _ (.sessionReady _) | .worker _ .bytesComplete
  | .worker _ (.serverFile _) | .worker _ .result => .isTrue trivial
  | .tick _ | .sample _ | .startUploadBatch _ _ | .setUploadBatchPaused _ | .setUploadItemPaused _ _
  | .reprocessCancelled | .clearCancelledHlsReprocessItems | .removeUploadBatchItem _ | .dismissUploadBatch
  | .retryUploadItem _ | .reattachUploadFile _ _ | .trackFiles _ | .reload | .restoreUploadBatchFromStorage
  | .pump _ | .settled | .resume _ _ => .isTrue trivial

structure Backed (s : Manager) : Prop where
  row : ∀ worker ∈ s.workers, bytePhase worker = true → ∃ item ∈ rows s, item.id = worker.claimed.id ∧ inFlight item = true
  opened : ∀ worker ∈ s.workers, bytePhase worker = true → uploading s
  few : s.workers.countP bytePhase ≤ adaptiveFileSlotsCap
  calm : ∀ worker ∈ s.workers, ∀ wake, worker.phase = .unpausing wake → s.uploadPumpPausedUntil ≤ wake

structure Carries (s t : Manager) : Prop where
  workers : t.workers = s.workers
  paused : t.uploadPumpPausedUntil = s.uploadPumpPausedUntil
  flights : uploading s → ∀ item ∈ rows s, inFlight item = true → ∃ new ∈ rows t, new.id = item.id ∧ inFlight new = true
  opened : uploading s → (∃ item ∈ rows s, inFlight item = true) → uploading t

variable {s t u next : Manager} {batch : UploadBatch} {item : UploadItem} {items : List UploadItem} {f : UploadItem → UploadItem}
  {worker : Worker} {resume : Resume} {id i j k : Nat} {error : Option ApiError} {due : Nat → Nat} {e : Event}
  {event : WorkerEvent} {w : Timed}

theorem Carries.refl (s : Manager) : Carries s s :=
  ⟨rfl,rfl,fun _ item member flying => ⟨item,member,rfl,flying⟩,fun open_ _ => open_⟩

theorem Carries.trans (first : Carries s t) (second : Carries t u) : Carries s u where
  workers := second.workers.trans first.workers
  paused := second.paused.trans first.paused
  flights open_ item member flying := by
    obtain ⟨new,inside,same,flies⟩ := first.flights open_ item member flying
    obtain ⟨newer,there,same',flies'⟩ := second.flights (first.opened open_ ⟨item,member,flying⟩) new inside flies
    exact ⟨newer,there,same'.trans same,flies'⟩
  opened open_ some_ := by
    obtain ⟨item,member,flying⟩ := some_
    obtain ⟨new,inside,_,flies⟩ := first.flights open_ item member flying
    exact second.opened (first.opened open_ ⟨item,member,flying⟩) ⟨new,inside,flies⟩

theorem Backed.carry (backed : Backed s) (carries : Carries s t) : Backed t where
  row worker member bytes := by
    rw [carries.workers] at member
    obtain ⟨item,inside,named,flying⟩ := backed.row worker member bytes
    obtain ⟨new,there,same,flies⟩ := carries.flights (backed.opened worker member bytes) item inside flying
    exact ⟨new,there,same.trans named,flies⟩
  opened worker member bytes := by
    rw [carries.workers] at member
    obtain ⟨item,inside,_,flying⟩ := backed.row worker member bytes
    exact carries.opened (backed.opened worker member bytes) ⟨item,inside,flying⟩
  few := by rw [carries.workers]; exact backed.few
  calm := by rw [carries.workers,carries.paused]; exact backed.calm

theorem Carries.same (batch : t.batch = s.batch) (workers : t.workers = s.workers)
    (paused : t.uploadPumpPausedUntil = s.uploadPumpPausedUntil) : Carries s t where
  workers := workers
  paused := paused
  flights _ item member flying := ⟨item,by rw [rows,batch]; exact member,rfl,flying⟩
  opened open_ _ := by rw [uploading,batch]; exact open_

theorem Carries.closed (closed : ¬uploading s) (workers : t.workers = s.workers)
    (paused : t.uploadPumpPausedUntil = s.uploadPumpPausedUntil) : Carries s t :=
  ⟨workers,paused,fun open_ => absurd open_ closed,fun open_ => absurd open_ closed⟩

theorem carries_update (same : ∀ item, (f item).id = item.id)
    (more : ∀ item ∈ rows s, inFlight item = true → inFlight (f item) = true) : Carries s (updateItems f s) where
  workers := update_workers
  paused := by unfold updateItems; split <;> rfl
  flights _ item member flying := by
    rw [rows_update]
    exact ⟨f item,mem_map_of_mem member,same item,more item member flying⟩
  opened open_ _ := uploading_update.mpr open_

theorem carries_emit : Carries s (emitBatch s) := .same rfl rfl rfl

theorem carries_complete : Carries s (maybeCompleteBatch s) := by
  unfold maybeCompleteBatch
  split
  · next ended =>
    refine ⟨rfl,rfl,fun _ item member flying => ?_,fun _ some_ => ?_⟩
    · have terminal := ended.2 item member
      rw [(flying_iff.mp flying).1] at terminal
      cases terminal
    · obtain ⟨item,member,flying⟩ := some_
      have terminal := ended.2 item member
      rw [(flying_iff.mp flying).1] at terminal
      cases terminal
  · exact .refl s

theorem carries_idle : Carries s (maybeCompleteBatchWhenIdle s) := by
  unfold maybeCompleteBatchWhenIdle
  split
  · exact .refl s
  · exact carries_complete

theorem carries_pump : Carries s (pumpUploadQueue s) := by
  unfold pumpUploadQueue
  split
  · exact .same rfl rfl rfl
  · exact .refl s

theorem processing_batch : (pumpProcessingQueue s).batch = s.batch ∧
    (pumpProcessingQueue s).uploadPumpPausedUntil = s.uploadPumpPausedUntil := by
  have row : ∀ (s : Manager) (item : UploadItem), (pumpProcessingRow s item).uploadPumpPausedUntil = s.uploadPumpPausedUntil := by
    intro s item
    unfold pumpProcessingRow
    split
    · rfl
    · split
      · unfold resumeUploadItemProcessing
        split
        · rfl
        · split <;> rfl
      · rfl
  have fold : ∀ (items : List UploadItem) (s : Manager), (items.foldl pumpProcessingRow s).batch = s.batch ∧
      (items.foldl pumpProcessingRow s).uploadPumpPausedUntil = s.uploadPumpPausedUntil := by
    intro items
    induction items with
    | nil => exact fun _ => ⟨rfl,rfl⟩
    | cons item rest ih => exact fun s => ⟨(ih _).1.trans processingRow_batch,(ih _).2.trans (row s item)⟩
  unfold pumpProcessingQueue
  split
  · exact fold _ s
  · exact ⟨rfl,rfl⟩

theorem carries_processing : Carries s (pumpProcessingQueue s) := .same processing_batch.1 processing_workers processing_batch.2

theorem carries_reopen : Carries s (reopen s) := by
  unfold reopen
  split
  · exact .refl s
  · next closed => exact .closed closed rfl rfl

theorem Backed.move (backed : Backed s) (old : ∀ new ∈ t.workers, bytePhase new = true → ∃ worker ∈ s.workers,
      bytePhase worker = true ∧ worker.claimed.id = new.claimed.id ∧ ∀ item ∈ rows s, item.id = worker.claimed.id →
        inFlight item = true → ∃ row ∈ rows t, row.id = item.id ∧ inFlight row = true)
    (opened : uploading s → (∃ item ∈ rows t, inFlight item = true) → uploading t)
    (few : t.workers.countP bytePhase ≤ s.workers.countP bytePhase)
    (calm : ∀ worker ∈ t.workers, ∀ wake, worker.phase = .unpausing wake → t.uploadPumpPausedUntil ≤ wake) : Backed t where
  row new member bytes := by
    obtain ⟨worker,before,went,named,flights⟩ := old new member bytes
    obtain ⟨item,inside,same,flying⟩ := backed.row worker before went
    obtain ⟨row,there,same',flies⟩ := flights item inside same flying
    exact ⟨row,there,same'.trans (same.trans named),flies⟩
  opened new member bytes := by
    obtain ⟨worker,before,went,named,flights⟩ := old new member bytes
    obtain ⟨item,inside,same,flying⟩ := backed.row worker before went
    obtain ⟨row,there,_,flies⟩ := flights item inside same flying
    exact opened (backed.opened worker before went) ⟨row,there,flies⟩
  few := Nat.le_trans few backed.few
  calm := calm

theorem countP_set {other : Worker} (found : s.workers[i]? = some worker) (less : bytePhase other = true → bytePhase worker = true) :
    (s.workers.set i other).countP bytePhase ≤ s.workers.countP bytePhase := by
  obtain ⟨inside,here⟩ := List.getElem?_eq_some_iff.mp found
  rw [List.countP_set inside,here]
  cases bytes : bytePhase worker with
  | true =>
    have some_ : 0 < s.workers.countP bytePhase := countP_pos_iff.mpr ⟨worker,mem_of_getElem? found,bytes⟩
    rw [if_pos rfl]
    split <;> omega
  | false =>
    have none_ : bytePhase other = false := Bool.eq_false_iff.mpr (fun bytes' => absurd ((less bytes').symm.trans bytes) (by decide))
    rw [none_]
    exact Nat.le_of_eq rfl

theorem backed_set (backed : Backed s) (found : s.workers[i]? = some worker) (other : Worker)
    (same : other.claimed.id = worker.claimed.id) (less : bytePhase other = true → bytePhase worker = true)
    (calm : ∀ wake, other.phase = .unpausing wake → s.uploadPumpPausedUntil ≤ wake) :
    Backed { s with workers := s.workers.set i other } := by
  refine backed.move (fun new member bytes => ?_) (fun open_ _ => open_) (countP_set found less) (fun new member wake phase => ?_)
  · obtain ⟨j,present⟩ := mem_iff_getElem?.mp member
    rcases Slots.set_cases present with ⟨rfl,rfl⟩ | ⟨_,before⟩
    · exact ⟨worker,mem_of_getElem? found,less bytes,same.symm,fun item inside _ flying => ⟨item,inside,rfl,flying⟩⟩
    · exact ⟨new,mem_of_getElem? before,bytes,rfl,fun item inside _ flying => ⟨item,inside,rfl,flying⟩⟩
  · obtain ⟨j,present⟩ := mem_iff_getElem?.mp member
    rcases Slots.set_cases present with ⟨rfl,rfl⟩ | ⟨_,before⟩
    · exact calm wake phase
    · exact backed.calm new (mem_of_getElem? before) wake phase

theorem backed_end (backed : Backed s) (found : s.workers[i]? = some worker) : Backed (endWorker i worker s) :=
  (backed_set backed found { worker with phase := .ended } rfl (nomatch ·) (fun _ phase => nomatch phase)).carry
    (.same rfl rfl rfl)

def byteless (s : Manager) (id : Nat) : Prop := ∀ worker ∈ s.workers, bytePhase worker = true → worker.claimed.id ≠ id

theorem going_of_bytes (bytes : bytePhase worker = true) : worker.phase ≠ .ended := by
  intro ended
  rw [bytePhase,ended] at bytes
  cases bytes

section
variable (sound : Sound s) (found : s.workers[i]? = some worker) (going : worker.phase ≠ .ended)
include sound found going

theorem sent_byteless (sent : bytePhase worker = false) : byteless s worker.claimed.id := by
  intro other member bytes same
  obtain ⟨j,present⟩ := mem_iff_getElem?.mp member
  cases sound.workers.single j i other worker present found (going_of_bytes bytes) going same
  rw [found] at present
  cases present
  exact absurd (sent.symm.trans bytes) (by decide)

theorem set_byteless {phase : WorkerPhase}
    (sent : bytePhase { worker with phase } = false) (still : phase ≠ .ended) : byteless (setPhase i worker phase s) worker.claimed.id := by
  obtain ⟨inside,_⟩ := List.getElem?_eq_some_iff.mp found
  have here : (setPhase i worker phase s).workers[i]? = some { worker with phase } := getElem?_set_self inside
  have idle := sent_byteless (setPhase_sound sound found going phase) here still sent
  exact idle

theorem ended_byteless :
    byteless (endWorker i worker s) worker.claimed.id := by
  intro other member bytes same
  exact ended_idle sound found going ⟨other,member,going_of_bytes bytes,same⟩

end

theorem backed_row (backed : Backed s) (idle : byteless s id) : Backed (updateRow id f s) := by
  refine backed.move (fun new member bytes => ?_) (fun open_ _ => uploading_update.mpr open_) ?_ ?_
  · rw [updateRow,update_workers] at member
    refine ⟨new,member,bytes,rfl,fun item inside named flying => ⟨item,?_,rfl,flying⟩⟩
    rw [updateRow,rows_update]
    exact mem_map.mpr ⟨item,inside,if_neg (fun same => idle new member bytes (named.symm.trans same))⟩
  · exact Nat.le_of_eq (by rw [updateRow,update_workers])
  · intro other member wake phase
    rw [updateRow,update_workers] at member
    have paused : (updateRow id f s).uploadPumpPausedUntil = s.uploadPumpPausedUntil := by unfold updateRow updateItems; split <;> rfl
    rw [paused]
    exact backed.calm other member wake phase

theorem backed_release (backed : Backed s) (idle : byteless s id) : Backed (releaseUploadByteSlot id s) := by
  unfold releaseUploadByteSlot
  split
  · exact ((backed_row backed idle).carry carries_pump).carry carries_processing
  · exact backed

theorem byteless_congr (idle : byteless s id) (same : t.workers = s.workers) : byteless t id := by rw [byteless,same]; exact idle

theorem backed_finish (sound : Sound s) (backed : Backed s) (found : s.workers[i]? = some worker) {file : ServerFile}
    (phase : worker.phase = .registered file) : Backed (finishAttempt i worker file s) := by
  have going : worker.phase ≠ .ended := by rw [phase]; exact (nomatch ·)
  have idle := sent_byteless sound found going (by rw [bytePhase,phase])
  have released := backed_release backed idle
  have idle' := byteless_congr idle (t := releaseUploadByteSlot worker.claimed.id s) release_workers
  unfold finishAttempt
  dsimp only
  split
  · exact backed_end (released.carry carries_processing) (by rw [processing_workers,release_workers]; exact found)
  · exact backed_end (backed_row released idle') (by rw [updateRow,update_workers,release_workers]; exact found)

theorem backed_fail (sound : Sound s) (backed : Backed s) (found : s.workers[i]? = some worker)
    (phase : worker.phase = .preparing ∨ worker.phase = .sending ∨ worker.phase = .sent)
    (spaced : willRetry worker error = true → Spaced s worker error) : Backed (failAttempt i worker error s) := by
  have going : worker.phase ≠ .ended := by rcases phase with phase | phase | phase <;> rw [phase] <;> exact fun now => by cases now
  unfold failAttempt
  dsimp only
  split
  · next again =>
    obtain ⟨unsent,pause,_⟩ := spaced again
    have bytes : bytePhase worker = true := by
      rcases phase with phase | phase | phase
      · rw [bytePhase,phase]
      · rw [bytePhase,phase]
      · exact absurd phase unsent
    have paused : Backed (if rateLimited error then pauseUploadPumpFor (retryAfterMs error (worker.retryAttempt + 1)) s else s) := by
      split
      · next limited =>
        refine ⟨backed.row,backed.opened,backed.few,fun other member wake phase => ?_⟩
        exact Nat.max_le.mpr ⟨backed.calm other member wake phase,pause limited other member wake (by rw [unpausing,phase]; rfl)⟩
      · exact backed
    have workers : (if rateLimited error then pauseUploadPumpFor (retryAfterMs error (worker.retryAttempt + 1)) s else s).workers =
        s.workers := by split <;> rfl
    generalize (if rateLimited error then pauseUploadPumpFor (retryAfterMs error (worker.retryAttempt + 1)) s else s) = p
      at paused workers ⊢
    have claimed : Backed (updateRow worker.claimed.id claim p) := by
      refine paused.carry (carries_update (fun item => ?_) (fun item _ flying => ?_))
      · split <;> rfl
      · split
        · exact flying_iff.mpr ⟨rfl,(flying_iff.mp flying).2⟩
        · exact flying
    have still : (updateRow worker.claimed.id claim p).workers[i]? = some worker := by
      rw [updateRow,update_workers,workers]
      exact found
    exact backed_set claimed still _ rfl (fun _ => bytes) (fun _ phase => by cases phase)
  · rw [updateRow,endWorker_update]
    exact backed_row (backed_end backed found) (ended_byteless sound found going)

theorem backed_retry (backed : Backed s) (found : s.workers[i]? = some worker) {wake : Nat} (phase : worker.phase = .backoff wake) :
    Backed (retryAttempt i worker s) := by
  unfold retryAttempt
  split
  · exact backed_end backed found
  · refine backed_set backed found _ rfl (fun _ => by rw [bytePhase,phase]) (fun wake phase => ?_)
    cases phase
    exact Nat.le_max_right _ _

section
variable (sound : Sound s) (backed : Backed s)
include sound backed

theorem worker_backed (found : s.workers[i]? = some worker)
    (spaced : ∀ error, event = .failure error → willRetry worker error = true → Spaced s worker error)
    (worked : Worked i worker s event next) : Backed next := by
  have going := worked.going
  cases worked with
  | started phase =>
    refine backed_set backed found _ rfl (fun _ => by rw [bytePhase,phase]) (fun wake phase' => ?_)
    dsimp only at phase'
    split at phase' <;> cases phase'
  | retried phase => exact backed_retry backed found phase
  | token phase => exact backed_set backed found _ rfl (fun _ => by rw [bytePhase,phase]) (fun _ phase => nomatch phase)
  | session =>
    refine backed.carry (carries_update (fun item => ?_) (fun item _ flying => ?_))
    · split <;> rfl
    · split <;> exact flying
  | sent phase =>
    have set_ : Backed (setPhase i worker .sent s) := backed_set backed found _ rfl (nomatch ·) (fun _ phase => nomatch phase)
    exact backed_release set_ (set_byteless sound found going (show bytePhase { worker with phase := .sent } = false from rfl) (nomatch ·))
  | answered phase file =>
    have set_ : Backed (setPhase i worker (.registered file) s) := backed_set backed found _ rfl (nomatch ·) (fun _ phase => nomatch phase)
    refine (backed_release set_ (set_byteless sound found going (show bytePhase { worker with phase := .registered file } = false from rfl) (nomatch ·))).carry
      (carries_update (fun item => ?_) (fun item _ flying => ?_))
    · split <;> rfl
    · split <;> exact flying
  | finished phase => exact backed_finish sound backed found phase
  | failed phase error => exact backed_fail sound backed found phase (spaced error rfl)

theorem bytes_le : s.workers.countP bytePhase ≤ countInFlightBrowserUploads s := by
  have apart : (s.workers.filter bytePhase).Pairwise (fun one two => one.claimed.id ≠ two.claimed.id) := by
    have all : s.workers.Pairwise (fun one two => bytePhase one = true → bytePhase two = true → one.claimed.id ≠ two.claimed.id) := by
      refine pairwise_iff_getElem.mpr (fun i j inside there less one two same => ?_)
      have eq := sound.workers.single i j _ _ (getElem?_eq_getElem inside) (getElem?_eq_getElem there)
        (going_of_bytes one) (going_of_bytes two) same
      omega
    exact (all.filter bytePhase).imp_of_mem (fun one two apart => apart (mem_filter.mp one).2 (mem_filter.mp two).2)
  have once : ((s.workers.filter bytePhase).map (fun worker => worker.claimed.id)).Nodup := pairwise_map.mpr apart
  have into : (s.workers.filter bytePhase).map (fun worker => worker.claimed.id) ⊆ ((rows s).filter inFlight).map UploadItem.id := by
    intro id member
    obtain ⟨worker,inside,rfl⟩ := mem_map.mp member
    obtain ⟨present,bytes⟩ := mem_filter.mp inside
    obtain ⟨item,there,same,flying⟩ := backed.row worker present bytes
    exact mem_map.mpr ⟨item,mem_filter.mpr ⟨there,flying⟩,same⟩
  have less := (once.subperm into).length_le
  rw [length_map,length_map] at less
  rw [countP_eq_length_filter]
  exact less

theorem turn_backed (taken : claimNextQueued s = some (item,t))
    (free : countInFlightBrowserUploads s < adaptiveFileSlotsCap) : Backed (uploadClaimedItem item t) := by
  obtain ⟨_,_,inside,status,file⟩ := turn_sound sound taken
  obtain ⟨queued,member,holds,rfl,rfl⟩ := claim_some sound.once taken
  have few := bytes_le sound backed
  have open_ : uploading s := by
    by_contra closed
    exact sound.unqueued closed member (claimable_iff.mp holds).1
  have claimed : Backed (updateRow queued.id claim s) := by
    refine backed.carry (carries_update (fun item => ?_) (fun item _ flying => ?_))
    · split <;> rfl
    · split
      · exact flying_iff.mpr ⟨rfl,(flying_iff.mp flying).2⟩
      · exact flying
  unfold uploadClaimedItem
  split
  · exact claimed.carry (.same rfl rfl rfl)
  · refine ⟨fun worker member bytes => ?_,fun _ _ _ => uploading_update.mpr open_,?_,fun worker member wake phase => ?_⟩
    · rcases mem_append.mp member with old | new
      · exact claimed.row worker old bytes
      · cases mem_singleton.mp new
        exact ⟨claim queued,inside,rfl,flying_iff.mpr ⟨status,file⟩⟩
    · dsimp only
      rw [countP_append,updateRow,update_workers]
      exact Nat.lt_of_le_of_lt few free
    · rcases mem_append.mp member with old | new
      · exact claimed.calm worker old wake phase
      · cases mem_singleton.mp new
        cases phase
        exact Nat.le_max_right _ _

end

theorem claimLoop_backed {slots : Nat} (bound : slots ≤ adaptiveFileSlotsCap) (fuel : Nat) : ∀ s, Sound s → Backed s →
    Backed (claimLoop slots fuel s) := by
  induction fuel with
  | zero => exact fun _ _ backed => backed
  | succ fuel ih =>
    intro s sound backed
    unfold claimLoop
    split
    · next free =>
      split
      · exact backed
      · next taken => exact ih _ (turn_sound sound taken).2.1 (turn_backed sound backed taken (Nat.lt_of_lt_of_le free bound))
    · exact backed

theorem pumpRun_backed (sound : Sound s) (backed : Backed s) : Backed (pumpRun s) := by
  unfold pumpRun
  split
  · exact claimLoop_backed (Nat.min_le_left _ _) _ s sound backed
  · exact backed

theorem resume_backed {event : ResumeEvent} (sound : Sound s) (backed : Backed s) (found : s.resumes[j]? = some resume)
    (resumed : Resumed j resume s event next) : Backed next := by
  have busy : polling s.resumes resume.uploadId := ⟨resume,mem_of_getElem? found,resumed.going,rfl⟩
  rcases resumed.ends with ⟨phase,rfl⟩ | ⟨status,terminal,rfl⟩
  · exact backed.carry (.same rfl rfl rfl)
  · have set_ : Backed (setResume j resume .ended s) := backed.carry (.same rfl rfl rfl)
    have written : Backed (updateRow resume.uploadId (fun item =>
        { item with status, uploadedFileId := if status = .done then some resume.fileId else item.uploadedFileId })
        (setResume j resume .ended s)) := by
      refine set_.carry (carries_update (fun item => ?_) (fun item member flying => ?_))
      · split <;> rfl
      · split
        · next named => exact absurd ((sound.rowOk (show item ∈ rows s from member)).polled (named ▸ busy)) (flying_iff.mp flying).2
        · exact flying
    unfold finishResume
    refine Backed.carry (Backed.carry ?_ carries_processing) carries_complete
    exact written.carry (.same rfl rfl rfl)

theorem keep_opened (some_ : s.batch = some batch) (p : UploadItem → Bool) (open_ : uploading s)
    (nonempty : ∃ item ∈ rows s, p item = true) :
    uploading { s with batch := if batch.items.filter p = [] then none else some { batch with items := batch.items.filter p } } := by
  obtain ⟨item,member,holds⟩ := nonempty
  rw [mem_rows some_] at member
  rw [if_neg (ne_nil_of_mem (mem_filter.mpr ⟨member,holds⟩))]
  exact ⟨_,rfl,(uploading_iff some_).mp open_⟩

theorem remove_backed (backed : Backed s) (idle : byteless s id) : Backed (removeItemFromActiveBatch id s) := by
  unfold removeItemFromActiveBatch
  split
  · exact backed
  · next batch some_ =>
    have same := keep_rows some_ (fun item => decide (item.id ≠ id))
    refine Backed.carry (Backed.carry (Backed.carry (s := { s with batch := _, abortedUploadItemIds := _ }) ?_ carries_complete) carries_emit) carries_pump
    refine backed.move (fun new member bytes => ⟨new,member,bytes,rfl,fun item inside named flying => ⟨item,?_,rfl,flying⟩⟩) ?_
      (Nat.le_refl _) backed.calm
    · exact Eq.mpr (congrArg (item ∈ ·) same)
        (mem_filter.mpr ⟨inside,decide_eq_true (fun same => idle new member bytes (named.symm.trans same))⟩)
    · rintro open_ ⟨item,member,_⟩
      obtain ⟨inside,holds⟩ := mem_filter.mp (Eq.mp (congrArg (item ∈ ·) same) member)
      exact keep_opened some_ (fun item => decide (item.id ≠ id)) open_ ⟨item,inside,holds⟩

theorem abort_backed (backed : Backed s) : Backed (abortUploadSession id s) := by
  have old : ∀ new ∈ (abortUploadSession id s).workers, bytePhase new = true → new ∈ s.workers := by
    intro new member bytes
    obtain ⟨worker,before,rfl⟩ := mem_map.mp member
    split at bytes
    · cases bytes
    · next unaborted => rw [if_neg unaborted]; exact before
  refine backed.move (fun new member bytes => ⟨new,old new member bytes,bytes,rfl,fun item inside _ flying => ⟨item,inside,rfl,flying⟩⟩)
    (fun open_ _ => open_) ?_ (fun new member wake phase => ?_)
  · rw [abortUploadSession]
    dsimp only
    rw [countP_map]
    refine countP_mono_left (fun worker _ bytes => ?_)
    rw [comp_apply] at bytes
    split at bytes
    · cases bytes
    · exact bytes
  · exact backed.calm new (old new member (by rw [bytePhase,phase])) wake phase

theorem cancel_backed (sound : Sound s) (backed : Backed s)
    (gentle : ∀ worker ∈ s.workers, worker.claimed.id = id → unabortable worker = false) : Backed (cancelUploadItem id s) := by
  unfold cancelUploadItem
  split
  · exact backed
  · next item found =>
    split
    · exact backed
    · obtain ⟨member,named⟩ := row_some found
      have marked : Backed { s with abortedUploadItemIds := insertId id s.abortedUploadItemIds } := backed.carry (.same rfl rfl rfl)
      dsimp only
      split
      · next reprocess =>
        refine Backed.carry (Backed.carry (s := { updateRow id (fun item => { item with status := .cancelled })
            { s with abortedUploadItemIds := insertId id s.abortedUploadItemIds } with resumingItemIds := _ }) ?_ carries_complete)
          carries_processing
        refine Backed.carry (marked.carry (carries_update (fun item => ?_) (fun other inside flying => ?_))) (.same rfl rfl rfl)
        · split <;> rfl
        · split
          · next same =>
            cases inj_on_of_nodup_map sound.once inside member (same.trans named.symm)
            exact absurd ((sound.rowOk member).reprocess reprocess) (flying_iff.mp flying).2
          · exact flying
      · split
        · refine remove_backed (abort_backed marked) (fun new inside bytes same => ?_)
          obtain ⟨worker,before,rfl⟩ := mem_map.mp inside
          split at bytes
          · cases bytes
          · next unaborted =>
            rw [if_neg unaborted] at same
            have free := gentle worker before same
            rw [unabortable,bytes,Bool.true_and,Bool.not_eq_false'] at free
            exact unaborted (by rw [abortable,decide_eq_true same,free]; rfl)
        · next ended =>
          refine remove_backed marked (fun worker inside bytes same => ?_)
          obtain ⟨other,there,named',flying⟩ := backed.row worker inside bytes
          cases inj_on_of_nodup_map sound.once there member (named'.trans (same.trans named.symm))
          exact ended (flying_iff.mp flying).1

theorem clear_carries : Carries s (clearCancelledHlsReprocessItems s) := by
  unfold clearCancelledHlsReprocessItems
  split
  · exact .refl s
  · next batch some_ =>
    have keeps : ∀ item : UploadItem, inFlight item = true → (!(item.isReprocess && decide (item.status = .cancelled))) = true := by
      intro item flying
      rw [(flying_iff.mp flying).1,Bool.and_comm]
      rfl
    refine Carries.trans ?_ (carries_complete.trans carries_emit)
    refine ⟨rfl,rfl,fun _ item member flying => ⟨item,?_,rfl,flying⟩,fun open_ flying => ?_⟩
    · rw [keep_rows some_]
      exact mem_filter.mpr ⟨member,keeps item flying⟩
    · obtain ⟨item,member,flying⟩ := flying
      exact keep_opened some_ _ open_ ⟨item,member,keeps item flying⟩

theorem trackFile_carries (s : Manager) (file : TrackedFile) : Carries s (trackFile s file) := by
  unfold trackFile
  split
  · exact .refl s
  · refine ⟨rfl,rfl,fun open_ item member flying => ⟨item,?_,rfl,flying⟩,fun open_ _ => ?_⟩
    · obtain ⟨batch,some_,_⟩ := open_
      have same : rows { setItems (rows s ++ [trackedItem s.created file]) s with created := s.created + 1 } =
          rows s ++ [trackedItem s.created file] := mem_rows (setItems_some _ some_)
      rw [same]
      exact mem_append_left _ member
    · obtain ⟨batch,some_,status⟩ := open_
      exact ⟨_,setItems_some _ some_,status⟩

theorem track_carries (files : List TrackedFile) : Carries s (trackFiles files s) := by
  have tracked : ∀ (files : List TrackedFile) (s : Manager), Carries s (files.foldl trackFile s) := by
    intro files
    induction files with
    | nil => exact .refl
    | cons file rest ih => exact fun s => (trackFile_carries s file).trans (ih _)
  have active : Carries s (ensureUploadingBatch s) := by
    unfold ensureUploadingBatch
    split
    · exact .refl s
    · next closed => exact .closed closed rfl rfl
  unfold trackFiles
  split
  · exact .refl s
  · dsimp only
    split
    · exact active
    · exact active.trans ((tracked files _).trans (carries_emit.trans carries_processing))

theorem restore_carries : Carries s (restoreUploadBatchFromStorage s) := by
  unfold restoreUploadBatchFromStorage
  split
  · exact .refl s
  · next unopened =>
    have closed : ¬uploading s := by
      rintro ⟨batch,some_,_⟩
      exact unopened (.inl (by rw [some_]; exact (nomatch ·)))
    dsimp only
    split
    · exact .closed closed rfl rfl
    · split
      · exact .closed closed rfl rfl
      · split
        · exact .closed closed rfl rfl
        · refine Carries.trans (t := { s with restoreStarted := true, batch := _ }) (.closed closed rfl rfl)
            (carries_emit.trans (carries_processing.trans carries_complete))

theorem startBatch_carries (sound : Sound s) (entries : List UploadBatchEntry) (folder : Option Nat) :
    Carries s (startUploadBatch entries folder s) := by
  by_cases none_ : entries = []
  · rw [startUploadBatch,if_pos none_]
    exact .refl s
  · obtain ⟨t,same,_,workers,paused,_,_,_,kept⟩ := startBatch_queued sound none_ folder
    rw [same]
    refine Carries.trans ⟨workers,paused,fun open_ item member flying => ?_,fun open_ _ => (kept open_).1⟩ carries_pump
    exact ⟨item,(kept open_).2 item member,rfl,flying⟩

theorem itemPaused_carries (paused : Bool) : Carries s (setUploadItemPaused id paused s) := by
  have written : Carries s (updateItems (fun item => if item.id = id ∧ item.status = .queued then { item with paused } else item) s) := by
    refine carries_update (fun item => ?_) (fun item _ flying => ?_)
    · split <;> rfl
    · split <;> exact flying
  unfold setUploadItemPaused
  dsimp only
  split
  · exact written
  · exact written.trans carries_pump

theorem batchPaused_carries (paused : Bool) : Carries s (setUploadBatchPaused paused s) := by
  have set_ : Carries s { s with userUploadPaused := paused } := .same rfl rfl rfl
  unfold setUploadBatchPaused
  dsimp only
  split
  · exact set_.trans carries_emit
  · exact set_.trans (carries_pump.trans carries_emit)

theorem cancelAll_carries (sound : Sound s) : Carries s (cancelAllPendingHlsReprocess s) := by
  unfold cancelAllPendingHlsReprocess
  refine Carries.trans ?_ carries_complete
  refine Carries.trans ?_ (carries_update (fun item => ?_) (fun item member flying => ?_))
  · exact .same rfl rfl rfl
  · split <;> rfl
  · split
    · next pending =>
      exact absurd ((sound.rowOk (show item ∈ rows s from member)).reprocess (Bool.and_eq_true_iff.mp pending).1) (flying_iff.mp flying).2
    · exact flying

theorem removeItem_backed (sound : Sound s) (backed : Backed s) : Backed (removeUploadBatchItem id s) := by
  unfold removeUploadBatchItem
  split
  · next wanted =>
    obtain ⟨item,found,ended⟩ := wanted
    obtain ⟨member,named⟩ := row_some found
    refine remove_backed backed (fun worker inside bytes same => ?_)
    obtain ⟨other,there,named',flying⟩ := backed.row worker inside bytes
    cases inj_on_of_nodup_map sound.once there member (named'.trans (same.trans named.symm))
    rcases ended with ended | ended <;> exact absurd ((flying_iff.mp flying).1.symm.trans ended) (nomatch ·)
  · exact backed

theorem dismiss_carries : Carries s (dismissUploadBatch s) := by
  unfold dismissUploadBatch
  split
  · exact .refl s
  · next closed => exact .closed (fun open_ => closed (.inr open_)) rfl rfl

theorem retryItem_carries (sound : Sound s) : Carries s (retryUploadItem id s) := by
  unfold retryUploadItem
  split
  · next wanted =>
    obtain ⟨item,found,ended,_⟩ := wanted
    obtain ⟨member,named⟩ := row_some found
    refine Carries.trans (Carries.trans (t := { s with abortedUploadItemIds := removeId id s.abortedUploadItemIds }) (.same rfl rfl rfl)
      (carries_update (fun item => ?_) (fun other inside flying => ?_))) (carries_reopen.trans carries_pump)
    · split <;> rfl
    · split
      · next same =>
        cases inj_on_of_nodup_map sound.once inside member (same.trans named.symm)
        rcases ended with ended | ended <;> exact absurd ((flying_iff.mp flying).1.symm.trans ended) (nomatch ·)
      · exact flying
  · exact .refl s

theorem reattach_carries (file : LocalFile) : Carries s (reattachUploadFile id file s) := by
  unfold reattachUploadFile
  split
  · refine (carries_update (fun item => ?_) (fun item _ flying => ?_)).trans (carries_reopen.trans carries_pump)
    · split <;> rfl
    · split
      · exact flying_iff.mpr ⟨rfl,(nomatch ·)⟩
      · exact flying
  · exact .refl s

theorem jobs_backed (backed : Backed s) {active : List TrackedFile} (gentle : active = [] ∨ ∀ worker ∈ s.workers, bytePhase worker = false) :
    Backed (restoreFromActiveBackgroundJobs active s) := by
  unfold restoreFromActiveBackgroundJobs
  dsimp only
  split
  · exact backed.carry (.same rfl rfl rfl)
  · next some_ =>
    have none_ := gentle.resolve_left some_
    refine Backed.carry (Backed.carry (s := { s with jobsAwaited := false, batch := _, created := _ })
      (backed.move (fun new member bytes => ?_) ?_ (Nat.le_refl _) backed.calm) carries_emit) carries_processing
    · exact absurd ((none_ new member).symm.trans bytes) (by decide)
    · exact fun _ _ => ⟨_,rfl,rfl⟩

theorem step_backed (sound : Sound w.manager) (backed : Backed w.manager) (gentle : Gentle w e)
    (fired : step w.manager e = some next) : Backed next := by
  obtain ⟨s,due⟩ := w
  dsimp only at sound backed fired
  cases e with
  | tick ms => cases fired; exact backed.carry (.same rfl rfl rfl)
  | sample sample => cases fired; exact backed.carry (.same rfl rfl rfl)
  | startUploadBatch entries folder => cases fired; exact backed.carry (startBatch_carries sound entries folder)
  | setUploadBatchPaused paused => cases fired; exact backed.carry (batchPaused_carries paused)
  | setUploadItemPaused itemId paused => cases fired; exact backed.carry (itemPaused_carries paused)
  | cancelUploadItem itemId => cases fired; exact cancel_backed sound backed gentle
  | reprocessCancelled => cases fired; exact backed.carry (cancelAll_carries sound)
  | clearCancelledHlsReprocessItems => cases fired; exact backed.carry clear_carries
  | removeUploadBatchItem itemId => cases fired; exact removeItem_backed sound backed
  | dismissUploadBatch => cases fired; exact backed.carry dismiss_carries
  | retryUploadItem itemId => cases fired; exact backed.carry (retryItem_carries sound)
  | reattachUploadFile uploadId file => cases fired; exact backed.carry (reattach_carries file)
  | trackFiles files => cases fired; exact backed.carry (track_carries files)
  | reload =>
    cases fired
    exact ⟨fun _ member => (nomatch member),fun _ member => (nomatch member),Nat.zero_le _,fun _ member => (nomatch member)⟩
  | restoreUploadBatchFromStorage => cases fired; exact backed.carry restore_carries
  | jobsListed active =>
    obtain ⟨_,same⟩ := ite_none_right_eq_some.mp fired
    cases same
    exact jobs_backed backed gentle
  | pump k =>
    simp only [step] at fired
    split at fired
    · obtain ⟨_,same⟩ := ite_none_right_eq_some.mp fired
      cases same
      exact pumpRun_backed (sound.congr rfl rfl rfl rfl rfl) (backed.carry (.same rfl rfl rfl))
    · cases fired
  | settled =>
    obtain ⟨_,same⟩ := ite_none_right_eq_some.mp fired
    cases same
    exact backed.carry (Carries.trans (t := { s with settling := s.settling - 1 }) (.same rfl rfl rfl)
      (carries_pump.trans (carries_processing.trans carries_idle)))
  | worker i event =>
    obtain ⟨worker,found,fired⟩ := bind_eq_some_iff.mp fired
    refine worker_backed sound backed found ?_ (workerStep_worked fired)
    rintro error rfl
    exact gentle worker found
  | resume j event =>
    obtain ⟨resume,found,fired⟩ := bind_eq_some_iff.mp fired
    exact resume_backed sound backed found (resumeStep_resumed fired)

def sleeps (worker : Worker) (wake : Nat) : Prop := worker.phase = .unpausing wake ∨ worker.phase = .backoff wake

structure Ready (w : Timed) : Prop where
  sound : Sound w.manager
  backed : Backed w.manager
  due : ∀ (i : Nat) (worker : Worker) (wake : Nat), w.manager.workers[i]? = some worker → sleeps worker wake → w.due i ≤ wake
  future : ∀ i, w.manager.workers.length ≤ i → w.due i = 0

structure Paced (s t : Manager) : Prop where
  old : ∀ (i : Nat) (worker : Worker) (wake : Nat), t.workers[i]? = some worker → sleeps worker wake →
    s.workers.length ≤ i ∨ s.workers[i]? = some worker
  length : s.workers.length ≤ t.workers.length

theorem Paced.same (same : t.workers = s.workers) : Paced s t where
  old i worker wake present _ := .inr (same ▸ present)
  length := Nat.le_of_eq (by rw [same])

theorem Paced.trans (first : Paced s t) (second : Paced t u) : Paced s u where
  old i worker wake present sleeps := by
    rcases second.old i worker wake present sleeps with past | before
    · exact .inl (Nat.le_trans first.length past)
    · exact first.old i worker wake before sleeps
  length := Nat.le_trans first.length second.length

theorem Ready.paced (ready : Ready ⟨s,due⟩) (paced : Paced s t) (sound : Sound t) (backed : Backed t) : Ready ⟨t,due⟩ where
  sound := sound
  backed := backed
  due i worker wake present sleeps := by
    rcases paced.old i worker wake present sleeps with past | before
    · exact Nat.le_trans (Nat.le_of_eq (ready.future i past)) (Nat.zero_le _)
    · exact ready.due i worker wake before sleeps
  future i past := ready.future i (Nat.le_trans paced.length past)

theorem upload_paced : Paced s (uploadClaimedItem item s) := by
  unfold uploadClaimedItem
  split
  · exact .same rfl
  · refine ⟨fun i worker wake present _ => ?_,by dsimp only; rw [length_append]; exact Nat.le_add_right _ _⟩
    rcases Slots.append_cases present with ⟨rfl,_⟩ | before
    · exact .inl (Nat.le_refl _)
    · exact .inr before

theorem claimLoop_paced (slots fuel : Nat) : ∀ s, Sound s → Paced s (claimLoop slots fuel s) := by
  induction fuel with
  | zero => exact fun _ _ => .same rfl
  | succ fuel ih =>
    intro s sound
    unfold claimLoop
    split
    · split
      · exact .same rfl
      · next taken =>
        obtain ⟨queued,_,_,rfl,rfl⟩ := claim_some sound.once taken
        exact (Paced.same update_workers).trans (upload_paced.trans (ih _ (turn_sound sound taken).2.1))
    · exact .same rfl

theorem cancel_paced : Paced s (cancelUploadItem id s) := by
  unfold cancelUploadItem
  split
  · exact .same rfl
  · split
    · exact .same rfl
    · dsimp only
      split
      · refine .same ?_
        rw [processing_workers,complete_keeps.1]
        exact update_workers
      · split
        · refine ⟨fun i worker wake present asleep => ?_,?_⟩
          · rw [remove_workers] at present
            obtain ⟨old,before,rfl⟩ := map_eq_some_iff.mp ((getElem?_map ..).symm.trans present)
            split at asleep
            · rcases asleep with phase | phase <;> cases phase
            · next unaborted => rw [if_neg unaborted]; exact .inr before
          · exact Nat.le_of_eq (by rw [remove_workers,abortUploadSession,length_map])
        · exact .same remove_workers

theorem resume_workers {event : ResumeEvent} (resumed : Resumed j resume s event next) : next.workers = s.workers := by
  rcases resumed.ends with ⟨phase,rfl⟩ | ⟨status,_,rfl⟩
  · rfl
  · rw [finishResume,complete_keeps.1,processing_workers]
    exact update_workers

theorem Ready.set {due later : Nat → Nat} (ready : Ready ⟨s,due⟩) (found : s.workers[i]? = some worker) (other : Worker)
    (same : t.workers = s.workers.set i other) (sound : Sound t) (backed : Backed t) (rest : ∀ j, j ≠ i → later j = due j)
    (asleep : ∀ wake, sleeps other wake → later i ≤ wake) : Ready ⟨t,later⟩ where
  sound := sound
  backed := backed
  due j new wake present sleeps := by
    rw [show Manager.workers _ = _ from same] at present
    rcases Slots.set_cases present with ⟨rfl,rfl⟩ | ⟨ne,before⟩
    · exact asleep wake sleeps
    · dsimp only
      rw [rest j ne]
      exact ready.due j new wake before sleeps
  future j past := by
    obtain ⟨inside,_⟩ := List.getElem?_eq_some_iff.mp found
    rw [show Manager.workers _ = _ from same,length_set] at past
    dsimp only
    rw [rest j (by omega)]
    exact ready.future j past

def retryWake (s : Manager) (worker : Worker) (error : Option ApiError) : Nat :=
  max s.now (if rateLimited error then max s.uploadPumpPausedUntil (s.now + retryAfterMs error (worker.retryAttempt + 1))
    else s.uploadPumpPausedUntil)

theorem update_clock : (updateItems f s).now = s.now ∧ (updateItems f s).uploadPumpPausedUntil = s.uploadPumpPausedUntil := by
  unfold updateItems
  split <;> exact ⟨rfl,rfl⟩

theorem retry_workers (again : willRetry worker error = true) : (failAttempt i worker error s).workers =
    s.workers.set i { worker with retryAttempt := worker.retryAttempt + 1, phase := .backoff (retryWake s worker error) } := by
  unfold failAttempt
  rw [if_pos again]
  dsimp only [setPhase]
  rw [updateRow,update_workers,waitForUploadPumpUnpause,update_clock.1,update_clock.2,retryWake]
  split <;> rfl

theorem fail_ready (ready : Ready ⟨s,due⟩) (found : s.workers[i]? = some worker)
    (spaced : willRetry worker error = true → Spaced s worker error) (sound : Sound (failAttempt i worker error s))
    (backed : Backed (failAttempt i worker error s)) : Ready ⟨failAttempt i worker error s,Function.update due i
      (if givenDelay error then 0 else s.now + uploadRetryDelayMs (worker.retryAttempt + 1))⟩ := by
  have rest : ∀ j, j ≠ i → Function.update due i
      (if givenDelay error then 0 else s.now + uploadRetryDelayMs (worker.retryAttempt + 1)) j = due j :=
    fun j ne => update_of_ne ne _ _
  by_cases again : willRetry worker error = true
  · obtain ⟨_,_,covered⟩ := spaced again
    refine ready.set found _ (retry_workers again) sound backed rest (fun wake asleep => ?_)
    rcases asleep with phase | phase
    · cases phase
    cases phase
    rw [update_self,retryWake]
    split
    · exact Nat.zero_le _
    · next ungiven =>
      have none_ : givenDelay error = false := Bool.not_eq_true _ ▸ ungiven
      have delay : retryAfterMs error (worker.retryAttempt + 1) = uploadRetryDelayMs (worker.retryAttempt + 1) := by
        unfold retryAfterMs
        unfold givenDelay at none_
        split
        · next n given => rw [given] at none_; cases none_
        · rfl
      rw [delay]
      rcases covered none_ with limited | covered
      · rw [if_pos limited]
        exact Nat.le_trans (Nat.le_max_right _ _) (Nat.le_max_right _ _)
      · split
        · exact Nat.le_trans (Nat.le_max_right _ _) (Nat.le_max_right _ _)
        · exact Nat.le_trans covered (Nat.le_max_right _ _)
  · refine ready.set found { worker with phase := .ended } ?_ sound backed rest (fun wake asleep => ?_)
    · unfold failAttempt
      rw [if_neg again]
      dsimp only [endWorker]
      rw [updateRow,update_workers]
    · rcases asleep with phase | phase <;> cases phase

theorem worker_ready (ready : Ready ⟨s,due⟩) (found : s.workers[i]? = some worker)
    (spaced : ∀ error, event = .failure error → willRetry worker error = true → Spaced s worker error)
    (worked : Worked i worker s event next) (sound : Sound next) (backed : Backed next) :
    Ready ⟨next,nextDue ⟨s,due⟩ (.worker i event)⟩ := by
  cases worked with
  | started phase =>
    refine ready.set found _ rfl sound backed (fun _ _ => rfl) (fun wake asleep => ?_)
    dsimp only [sleeps] at asleep
    split at asleep <;> rcases asleep with phase | phase <;> cases phase
  | @retried before phase soon =>
    unfold retryAttempt at sound backed ⊢
    split at sound
    · next gone =>
      rw [if_pos gone] at backed ⊢
      refine ready.set found _ rfl sound backed (fun _ _ => rfl) (fun wake asleep => ?_)
      rcases asleep with phase | phase <;> cases phase
    · next alive =>
      rw [if_neg alive] at backed ⊢
      refine ready.set found _ rfl sound backed (fun _ _ => rfl) (fun wake asleep => ?_)
      have earlier := ready.due i worker before found (.inr phase)
      rcases asleep with phase | phase
      · cases phase
        exact Nat.le_trans earlier (Nat.le_trans soon (Nat.le_max_left _ _))
      · cases phase
  | token =>
    refine ready.set found _ rfl sound backed (fun _ _ => rfl) (fun wake asleep => ?_)
    rcases asleep with phase | phase <;> cases phase
  | session => exact ready.paced (.same update_workers) sound backed
  | sent =>
    refine ready.set found { worker with phase := .sent } release_workers sound backed (fun _ _ => rfl) (fun wake asleep => ?_)
    rcases asleep with phase | phase <;> cases phase
  | answered _ file =>
    refine ready.set found { worker with phase := .registered file } ?_ sound backed (fun _ _ => rfl) (fun wake asleep => ?_)
    · exact update_workers.trans release_workers
    · rcases asleep with phase | phase <;> cases phase
  | @finished file =>
    refine ready.set found { worker with phase := .ended } ?_ sound backed (fun _ _ => rfl) (fun wake asleep => ?_)
    · unfold finishAttempt
      dsimp only
      split
      · exact congrArg (fun workers => workers.set i { worker with phase := .ended }) (processing_workers.trans release_workers)
      · exact congrArg (fun workers => workers.set i { worker with phase := .ended }) (update_workers.trans release_workers)
    · rcases asleep with phase | phase <;> cases phase
  | failed _ error =>
    simp only [nextDue,found]
    exact fail_ready ready found (spaced error rfl) sound backed

theorem pumpRun_paced (sound : Sound s) : Paced s (pumpRun s) := by
  unfold pumpRun
  split
  · exact claimLoop_paced _ _ s sound
  · exact .same rfl

theorem timed_ready {w after : Timed} (ready : Ready w) (gentle : Gentle w e) (fired : timedStep w e = some after) :
    Ready after := by
  obtain ⟨s,due⟩ := w
  obtain ⟨next,stepped,rfl⟩ := map_eq_some_iff.mp fired
  have sound := step_sound ready.sound stepped
  have backed := step_backed ready.sound ready.backed gentle stepped
  cases e with
  | tick ms => cases stepped; exact ready.paced (.same rfl) sound backed
  | sample sample => cases stepped; exact ready.paced (.same rfl) sound backed
  | startUploadBatch entries folder =>
    cases stepped
    exact ready.paced (.same (startBatch_carries ready.sound entries folder).workers) sound backed
  | setUploadBatchPaused paused => cases stepped; exact ready.paced (.same (batchPaused_carries paused).workers) sound backed
  | setUploadItemPaused itemId paused => cases stepped; exact ready.paced (.same (itemPaused_carries paused).workers) sound backed
  | cancelUploadItem itemId => cases stepped; exact ready.paced cancel_paced sound backed
  | reprocessCancelled => cases stepped; exact ready.paced (.same (cancelAll_carries ready.sound).workers) sound backed
  | clearCancelledHlsReprocessItems => cases stepped; exact ready.paced (.same clear_carries.workers) sound backed
  | removeUploadBatchItem itemId =>
    cases stepped
    refine ready.paced (.same ?_) sound backed
    unfold removeUploadBatchItem
    split
    · exact remove_workers
    · rfl
  | dismissUploadBatch => cases stepped; exact ready.paced (.same dismiss_carries.workers) sound backed
  | retryUploadItem itemId => cases stepped; exact ready.paced (.same (retryItem_carries ready.sound).workers) sound backed
  | reattachUploadFile uploadId file => cases stepped; exact ready.paced (.same (reattach_carries file).workers) sound backed
  | trackFiles files => cases stepped; exact ready.paced (.same (track_carries files).workers) sound backed
  | reload =>
    cases stepped
    exact ⟨sound,backed,fun _ _ _ present => (nomatch present),fun _ _ => rfl⟩
  | restoreUploadBatchFromStorage => cases stepped; exact ready.paced (.same restore_carries.workers) sound backed
  | jobsListed active =>
    obtain ⟨_,same⟩ := ite_none_right_eq_some.mp stepped
    cases same
    refine ready.paced (.same ?_) sound backed
    unfold restoreFromActiveBackgroundJobs
    dsimp only
    split
    · rfl
    · exact processing_workers
  | pump k =>
    simp only [step] at stepped
    split at stepped
    · obtain ⟨_,same⟩ := ite_none_right_eq_some.mp stepped
      cases same
      exact ready.paced (Paced.trans (t := { s with pumps := s.pumps.eraseIdx k }) (.same rfl)
        (pumpRun_paced (ready.sound.congr rfl rfl rfl rfl rfl))) sound backed
    · cases stepped
  | settled =>
    obtain ⟨_,same⟩ := ite_none_right_eq_some.mp stepped
    cases same
    refine ready.paced (.same ?_) sound backed
    rw [settle,carries_idle.workers,processing_workers,pump_workers]
  | worker i event =>
    obtain ⟨worker,found,stepped⟩ := bind_eq_some_iff.mp stepped
    refine worker_ready ready found ?_ (workerStep_worked stepped) sound backed
    rintro error rfl
    exact gentle worker found
  | resume j event =>
    obtain ⟨resume,found,stepped⟩ := bind_eq_some_iff.mp stepped
    exact ready.paced (.same (resume_workers (resumeStep_resumed stepped))) sound backed

theorem ready_punctual (ready : Ready w) : Punctual w e := by
  intro fires i started
  obtain ⟨after,fired⟩ := isSome_iff_exists.mp fires
  obtain ⟨next,stepped,_⟩ := map_eq_some_iff.mp fired
  cases e with
  | worker k event =>
    cases event with
    | wake =>
      obtain ⟨worker,found,stepped⟩ := bind_eq_some_iff.mp stepped
      simp only [attempt,found,map_some] at started
      cases workerStep_worked stepped with
      | @started wake phase soon =>
        rw [phase] at started
        cases started
        exact ⟨Nat.le_trans (ready.backed.calm worker (mem_of_getElem? found) wake phase) soon,
          Nat.le_trans (ready.due i worker wake found (.inl phase)) soon⟩
      | @retried wake phase _ =>
        rw [phase] at started
        cases started
    | _ => cases started
  | _ => cases started

theorem timedStart_ready : Ready timedStart where
  sound := start_sound
  backed := ⟨fun _ member => (nomatch member),fun _ member => (nomatch member),Nat.zero_le _,fun _ member => (nomatch member)⟩
  due _ _ _ present := nomatch present
  future _ _ := rfl

theorem senders_le (backed : Backed s) : senders s ≤ 3 := by
  have less : s.workers.countP sendsBytes ≤ s.workers.countP bytePhase := by
    refine countP_mono_left (fun worker _ sends => ?_)
    unfold sendsBytes at sends
    unfold bytePhase
    split at sends
    · next phase => rw [phase]
    · next phase => rw [phase]
    · cases sends
  rw [senders,← countP_eq_length_filter]
  exact Nat.le_trans less backed.few

-- At most three calls send at once, none starts in a pause and no retry too early, in every
-- run whose events are gentle.
theorem pressure_bounded (events : List Event) (gentle : Schedule.Along timedStep Gentle timedStart events) :
    (∀ left right reached, events = left ++ right → Schedule.run timedStep timedStart left = some reached →
      senders reached.manager ≤ 3) ∧ Schedule.Along timedStep Punctual timedStart events := by
  constructor
  · intro left right reached split ran
    have ready : Ready reached := gentle.reached (fun w e after => timed_ready) timedStart_ready split ran
    exact senders_le ready.backed
  · exact Schedule.along_under (motive := Ready) (fun w e ready _ => ready_punctual ready) (fun w e after => timed_ready)
      timedStart_ready gentle

def throttledOnce : List Event := [.startUploadBatch [⟨note,none,none⟩] none,.pump 0,.worker 0 .wake,.worker 0 .csrfToken,
  .worker 0 (.failure (some ⟨"rate_limited",429,some 2⟩)),.tick 2000,.worker 0 .wake,.worker 0 .wake,.worker 0 .csrfToken,
  .worker 0 .bytesComplete,.worker 0 (.serverFile ⟨5,"note.txt",12,false⟩),.worker 0 .result,.settled]

theorem pressure_bounded_throttled : Schedule.Along timedStep Gentle timedStart throttledOnce ∧
    (∀ left right reached, throttledOnce = left ++ right → Schedule.run timedStep timedStart left = some reached →
      senders reached.manager ≤ 3) ∧ Schedule.Along timedStep Punctual timedStart throttledOnce := by
  have gentle : Schedule.Along timedStep Gentle timedStart throttledOnce := by decide +kernel
  exact ⟨gentle,pressure_bounded throttledOnce gentle⟩

def threeSenders (more : List UploadBatchEntry) : List Event :=
  [.startUploadBatch (⟨note,none,none⟩ :: ⟨note,none,none⟩ :: ⟨note,none,none⟩ :: more) none,.sample ⟨true,100⟩,.sample ⟨true,100⟩,
    .sample ⟨true,100⟩,.pump 0,.worker 0 .wake,.worker 1 .wake,.worker 2 .wake,.worker 0 .csrfToken,.worker 1 .csrfToken,
    .worker 2 .csrfToken]

def overrun : List Event := threeSenders [⟨note,none,none⟩] ++ [.worker 0 (.failure (some ⟨"rate_limited",429,some 2⟩)),
  .cancelUploadItem 0,.tick 2000,.pump 0,.worker 3 .wake,.worker 3 .csrfToken,.worker 0 .wake,.worker 0 .wake]

def outslept : List Event := threeSenders [] ++ [.worker 0 (.failure (some ⟨"rate_limited",429,some 2⟩)),.tick 1000,
  .worker 1 (.failure (some ⟨"rate_limited",429,some 3⟩)),.tick 1000,.worker 0 .wake,.tick 1000,
  .worker 2 (.failure (some ⟨"rate_limited",429,some 10⟩)),.tick 1000,.worker 0 .wake]

def dropped : ApiError := ⟨"network_error",0,none⟩

-- A dropped connection pauses nothing, and its retry begins at once.
def hasty : List Event := [.startUploadBatch [⟨note,none,none⟩] none,.pump 0,.worker 0 .wake,.worker 0 .csrfToken,
  .worker 0 (.failure (some dropped)),.worker 0 .wake,.worker 0 .wake]

theorem pressure_unbounded : (¬∀ events, (∀ left right reached, events = left ++ right →
        Schedule.run timedStep timedStart left = some reached → senders reached.manager ≤ 3) ∧
      Schedule.Along timedStep Punctual timedStart events) ∧
    (∃ reached, Schedule.run step start overrun = some reached ∧ senders reached = 4) ∧
    ¬Schedule.Along timedStep Punctual timedStart outslept ∧ ¬Schedule.Along timedStep Punctual timedStart hasty := by
  have early : ¬Schedule.Along timedStep Punctual timedStart hasty := by decide +kernel
  exact ⟨fun all => early (all hasty).2,Schedule.reached_of_any (by decide +kernel),by decide +kernel,early⟩

end Ownly.Tray
