import Ownly.Tray.Invariant

namespace Ownly.Tray
open List

-- Run `i` of `uploadClaimedItem` has the row and has not ended.
def runs (s : Manager) (i id : Nat) : Prop := ∃ worker, s.workers[i]? = some worker ∧ worker.phase ≠ .ended ∧ worker.claimed.id = id

-- A run of the pump sleeps, or the `finally` of a worker is about to start one.
def pumpPending (s : Manager) : Prop := s.pumps ≠ [] ∨ 0 < s.settling

def awaited (s : Manager) : Prop := ∃ item ∈ rows s, claimable item = true

-- Whatever the requests answer, the worker can go on until it ends, and its row holds no
-- byte slot then.
def Ends (s : Manager) (i : Nat) : Prop := ∃ events final worker, Schedule.run step s events = some final ∧
  final.workers[i]? = some worker ∧ worker.phase = .ended ∧ ∀ item ∈ rows final, item.id = worker.claimed.id → inFlight item = false

structure Unstranded (s : Manager) : Prop where
  attended : ∀ item ∈ rows s, inFlight item = true → ∃ i, runs s i item.id ∧ Ends s i ∧ ∀ j, runs s j item.id → j = i
  prompt : s.userUploadPaused = false → countInFlightBrowserUploads s < fileSlots s → awaited s → pumpPending s

-- No row gets its file back without a worker, and no slot opens unnoticed.
def Serves (s : Manager) : Event → Prop
  | .reattachUploadFile uploadId file => ∀ item ∈ row? s uploadId, ¬canReattach file item
  | .sample sample => s.userUploadPaused = false →
      countInFlightBrowserUploads s < fileSlots (recordUploadPartSample sample s) → awaited s → pumpPending s
  | _ => True

def Attended (s : Manager) : Prop := ∀ item ∈ rows s, inFlight item = true → running s.workers item.id

def Prompt (s : Manager) : Prop :=
  s.userUploadPaused = false → countInFlightBrowserUploads s < fileSlots s → awaited s → pumpPending s

-- The rows in flight were in flight before, and have their workers still.
structure Held (s t : Manager) : Prop where
  flights : ∀ item ∈ rows t, inFlight item = true → ∃ old ∈ rows s, old.id = item.id ∧ inFlight old = true
  workers : ∀ item ∈ rows t, inFlight item = true → running s.workers item.id → running t.workers item.id

structure Calm (s t : Manager) : Prop where
  paused : t.userUploadPaused = s.userUploadPaused
  slots : fileSlots t = fileSlots s
  count : countInFlightBrowserUploads s ≤ countInFlightBrowserUploads t
  queue : awaited t → awaited s
  pumps : pumpPending s → pumpPending t

variable {s t u next : Manager} {batch : UploadBatch} {item : UploadItem} {items : List UploadItem} {f : UploadItem → UploadItem}
  {worker : Worker} {resume : Resume} {id i j k : Nat} {e : Event} {phase : WorkerPhase} {event : WorkerEvent} {other : Worker}

theorem Attended.held (attended : Attended s) (held : Held s t) : Attended t := by
  intro item member flying
  obtain ⟨old,before,same,flew⟩ := held.flights item member flying
  exact held.workers item member flying (same ▸ attended old before flew)

theorem Prompt.calm (prompt : Prompt s) (calm : Calm s t) : Prompt t := by
  intro paused free queued
  rw [calm.paused] at paused
  rw [calm.slots] at free
  exact calm.pumps (prompt paused (Nat.lt_of_le_of_lt calm.count free) (calm.queue queued))

theorem Held.refl (s : Manager) : Held s s := ⟨fun item member flying => ⟨item,member,rfl,flying⟩,fun _ _ _ busy => busy⟩

theorem Held.trans (first : Held s t) (second : Held t u) : Held s u where
  flights item member flying := by
    obtain ⟨old,before,same,flew⟩ := second.flights item member flying
    obtain ⟨older,earlier,same',flown⟩ := first.flights old before flew
    exact ⟨older,earlier,same'.trans same,flown⟩
  workers item member flying busy := by
    obtain ⟨old,before,same,flew⟩ := second.flights item member flying
    exact second.workers item member flying (same ▸ first.workers old before flew (same ▸ busy))

theorem Calm.refl (s : Manager) : Calm s s := ⟨rfl,rfl,Nat.le_refl _,fun queued => queued,fun pending => pending⟩

theorem Calm.trans (first : Calm s t) (second : Calm t u) : Calm s u where
  paused := second.paused.trans first.paused
  slots := second.slots.trans first.slots
  count := Nat.le_trans first.count second.count
  queue queued := first.queue (second.queue queued)
  pumps pending := second.pumps (first.pumps pending)

theorem Held.same (same : rows t = rows s) (kept : t.workers = s.workers) : Held s t where
  flights item member flying := ⟨item,same ▸ member,rfl,flying⟩
  workers item _ _ busy := by rw [kept]; exact busy

theorem Calm.same (same : rows t = rows s) (paused : t.userUploadPaused = s.userUploadPaused) (slots : t.samples = s.samples)
    (pumps : pumpPending s → pumpPending t) : Calm s t where
  paused := paused
  slots := by rw [fileSlots,fileSlots,slots]
  count := Nat.le_of_eq (by rw [countInFlightBrowserUploads,countInFlightBrowserUploads,same])
  queue queued := by rw [awaited,← same]; exact queued
  pumps := pumps

theorem flying_iff : inFlight item = true ↔ item.status = .uploading ∧ item.localFile ≠ none := decide_eq_true_iff

theorem held_update (same : ∀ item, (f item).id = item.id)
    (fewer : ∀ item ∈ rows s, inFlight (f item) = true → inFlight item = true) : Held s (updateItems f s) where
  flights item member flying := by
    rw [rows_update] at member
    obtain ⟨old,inside,rfl⟩ := mem_map.mp member
    exact ⟨old,inside,(same old).symm,fewer old inside flying⟩
  workers item _ _ busy := by rw [update_workers]; exact busy

theorem update_paused : (updateItems f s).userUploadPaused = s.userUploadPaused := by
  unfold updateItems
  split <;> rfl

theorem update_samples : (updateItems f s).samples = s.samples := by
  unfold updateItems
  split <;> rfl

theorem update_pumps : (updateItems f s).pumps = s.pumps ∧ (updateItems f s).settling = s.settling := by
  unfold updateItems
  split <;> exact ⟨rfl,rfl⟩

theorem count_map (more : ∀ item ∈ items, inFlight item = true → inFlight (f item) = true) :
    (items.filter inFlight).length ≤ ((items.map f).filter inFlight).length := by
  rw [filter_map,length_map,← countP_eq_length_filter,← countP_eq_length_filter]
  exact countP_mono_left more

theorem calm_update (more : ∀ item ∈ rows s, inFlight item = true → inFlight (f item) = true)
    (unqueued : ∀ item ∈ rows s, claimable (f item) = true → claimable item = true) : Calm s (updateItems f s) where
  paused := update_paused
  slots := by rw [fileSlots,fileSlots,update_samples]
  count := by
    rw [countInFlightBrowserUploads,countInFlightBrowserUploads,rows_update]
    exact count_map more
  queue := by
    rintro ⟨item,member,queued⟩
    rw [rows_update] at member
    obtain ⟨old,inside,rfl⟩ := mem_map.mp member
    exact ⟨old,inside,unqueued old inside queued⟩
  pumps pending := by
    rw [pumpPending,update_pumps.1,update_pumps.2]
    exact pending

theorem held_emit : Held s (emitBatch s) := .same rfl rfl

theorem calm_emit : Calm s (emitBatch s) := .same rfl rfl rfl (fun pending => pending)

@[simp] theorem rows_complete : rows (maybeCompleteBatch s) = rows s := by
  unfold maybeCompleteBatch
  split
  · rw [rows_emit]
    unfold rows
    cases s.batch <;> rfl
  · rfl

theorem complete_keeps : (maybeCompleteBatch s).workers = s.workers ∧ (maybeCompleteBatch s).userUploadPaused = s.userUploadPaused ∧
    (maybeCompleteBatch s).samples = s.samples ∧ (pumpPending s → pumpPending (maybeCompleteBatch s)) := by
  unfold maybeCompleteBatch
  split <;> exact ⟨rfl,rfl,rfl,fun pending => pending⟩

theorem held_complete : Held s (maybeCompleteBatch s) := .same rows_complete complete_keeps.1

theorem calm_complete : Calm s (maybeCompleteBatch s) :=
  .same rows_complete complete_keeps.2.1 complete_keeps.2.2.1 complete_keeps.2.2.2

theorem held_idle : Held s (maybeCompleteBatchWhenIdle s) := by
  unfold maybeCompleteBatchWhenIdle
  split
  · exact .refl s
  · exact held_complete

theorem calm_idle : Calm s (maybeCompleteBatchWhenIdle s) := by
  unfold maybeCompleteBatchWhenIdle
  split
  · exact .refl s
  · exact calm_complete

@[simp] theorem rows_processing : rows (pumpProcessingQueue s) = rows s := by
  have fold : ∀ (items : List UploadItem) (s : Manager), rows (items.foldl pumpProcessingRow s) = rows s := by
    intro items
    induction items with
    | nil => exact fun _ => rfl
    | cons item rest ih => exact fun s => (ih _).trans (by rw [rows,rows,processingRow_batch])
  unfold pumpProcessingQueue
  split
  · exact fold _ s
  · rfl

theorem processingRow_keeps (s : Manager) (item : UploadItem) : (pumpProcessingRow s item).userUploadPaused = s.userUploadPaused ∧
    (pumpProcessingRow s item).samples = s.samples ∧ (pumpProcessingRow s item).pumps = s.pumps ∧
    (pumpProcessingRow s item).settling = s.settling := by
  unfold pumpProcessingRow
  split
  · exact ⟨rfl,rfl,rfl,rfl⟩
  · split
    · unfold resumeUploadItemProcessing
      split
      · exact ⟨rfl,rfl,rfl,rfl⟩
      · split <;> exact ⟨rfl,rfl,rfl,rfl⟩
    · exact ⟨rfl,rfl,rfl,rfl⟩

theorem processing_keeps : (pumpProcessingQueue s).userUploadPaused = s.userUploadPaused ∧
    (pumpProcessingQueue s).samples = s.samples ∧ (pumpProcessingQueue s).pumps = s.pumps ∧
    (pumpProcessingQueue s).settling = s.settling := by
  have fold : ∀ (items : List UploadItem) (s : Manager), (items.foldl pumpProcessingRow s).userUploadPaused = s.userUploadPaused ∧
      (items.foldl pumpProcessingRow s).samples = s.samples ∧ (items.foldl pumpProcessingRow s).pumps = s.pumps ∧
      (items.foldl pumpProcessingRow s).settling = s.settling := by
    intro items
    induction items with
    | nil => exact fun _ => ⟨rfl,rfl,rfl,rfl⟩
    | cons item rest ih =>
      intro s
      obtain ⟨paused,samples,pumps,settling⟩ := ih (pumpProcessingRow s item)
      obtain ⟨paused',samples',pumps',settling'⟩ := processingRow_keeps s item
      exact ⟨paused.trans paused',samples.trans samples',pumps.trans pumps',settling.trans settling'⟩
  unfold pumpProcessingQueue
  split
  · exact fold _ s
  · exact ⟨rfl,rfl,rfl,rfl⟩

theorem held_processing : Held s (pumpProcessingQueue s) := .same rows_processing processing_workers

theorem calm_processing : Calm s (pumpProcessingQueue s) := by
  obtain ⟨paused,samples,pumps,settling⟩ := processing_keeps (s := s)
  refine .same rows_processing paused samples (fun pending => ?_)
  rw [pumpPending,pumps,settling]
  exact pending

@[simp] theorem rows_pump : rows (pumpUploadQueue s) = rows s := by
  unfold pumpUploadQueue
  split <;> rfl

theorem held_pump : Held s (pumpUploadQueue s) := .same rows_pump pump_workers

theorem prompt_pump (live : Live s) : Prompt (pumpUploadQueue s) := by
  intro paused free queued
  rw [awaited,rows_pump] at queued
  obtain ⟨item,member,queued⟩ := queued
  have open_ : uploading s := by
    by_contra complete
    exact live.unqueued complete member (claimable_iff.mp queued).1
  unfold pumpUploadQueue at paused ⊢
  split
  · exact .inl (by dsimp only; exact append_ne_nil_of_right_ne_nil _ (cons_ne_nil _ _))
  · next closed =>
    rw [if_neg closed] at paused
    exact absurd ⟨open_,paused⟩ closed

structure Steady (s : Manager) : Prop where
  attended : Attended s
  prompt : Prompt s

section
variable (steady : Steady s)
include steady

theorem Steady.keep (held : Held s t) (calm : Calm s t) : Steady t :=
  ⟨steady.attended.held held,steady.prompt.calm calm⟩

theorem Steady.congr (same : rows t = rows s) (workers : t.workers = s.workers)
    (paused : t.userUploadPaused = s.userUploadPaused) (samples : t.samples = s.samples)
    (pumps : pumpPending s → pumpPending t) : Steady t :=
  steady.keep (.same same workers) (.same same paused samples pumps)

theorem Steady.emit : Steady (emitBatch s) := steady.keep held_emit calm_emit

theorem Steady.complete : Steady (maybeCompleteBatch s) := steady.keep held_complete calm_complete

theorem Steady.processing : Steady (pumpProcessingQueue s) := steady.keep held_processing calm_processing

end

theorem Steady.bare (bare : ∀ item ∈ rows s, item.localFile = none ∧ item.status ≠ .queued) : Steady s where
  attended item member flying := absurd (bare item member).1 (flying_iff.mp flying).2
  prompt _ _ queued := by
    obtain ⟨item,member,queued⟩ := queued
    exact absurd (claimable_iff.mp queued).1 (bare item member).2

section
variable (found : s.workers[i]? = some worker)
include found

theorem running_set (same : other.claimed.id = worker.claimed.id)
    (going : other.phase ≠ .ended) (busy : running s.workers id) : running (s.workers.set i other) id := by
  obtain ⟨old,member,went,named⟩ := busy
  obtain ⟨j,present⟩ := mem_iff_getElem?.mp member
  obtain ⟨inside,_⟩ := List.getElem?_eq_some_iff.mp found
  by_cases here : i = j
  · subst here
    rw [found] at present
    cases present
    exact ⟨other,mem_of_getElem? (getElem?_set_self inside),going,same.trans named⟩
  · exact ⟨old,mem_of_getElem? ((getElem?_set_ne here).trans present),went,named⟩

theorem running_other (busy : running s.workers id)
    (ne : id ≠ worker.claimed.id) : running (s.workers.set i other) id := by
  obtain ⟨old,member,went,named⟩ := busy
  obtain ⟨j,present⟩ := mem_iff_getElem?.mp member
  have apart : i ≠ j := by
    rintro rfl
    rw [found] at present
    cases present
    exact ne named.symm
  exact ⟨old,mem_of_getElem? ((getElem?_set_ne apart).trans present),went,named⟩

theorem held_phase (going : phase ≠ .ended) :
    Held s (setPhase i worker phase s) where
  flights item member flying := ⟨item,member,rfl,flying⟩
  workers _ _ _ busy := running_set found rfl going busy

end

theorem calm_phase : Calm s (setPhase i worker phase s) := .same rfl rfl rfl (fun pending => pending)

theorem held_end (found : s.workers[i]? = some worker) (gone : ∀ item ∈ rows s, item.id = worker.claimed.id → inFlight item = false) :
    Held s (endWorker i worker s) where
  flights item member flying := ⟨item,member,rfl,flying⟩
  workers item member flying busy := by
    refine running_other found busy (fun same => ?_)
    rw [gone item member same] at flying
    cases flying

theorem prompt_end : Prompt (endWorker i worker s) := fun _ _ _ => .inr (Nat.succ_pos _)

theorem held_release : Held s (releaseUploadByteSlot id s) := by
  unfold releaseUploadByteSlot
  split
  · refine (held_update (fun item => ?_) (fun item _ flying => ?_)).trans (held_pump.trans held_processing)
    · split <;> rfl
    · split at flying
      · exact absurd rfl (flying_iff.mp flying).2
      · exact flying
  · exact .refl s

theorem prompt_release (sound : Sound s) (busy : running s.workers id) (prompt : Prompt s) : Prompt (releaseUploadByteSlot id s) := by
  unfold releaseUploadByteSlot
  split
  · exact (prompt_pump (dropFile_sound sound busy).toLive).calm calm_processing
  · exact prompt

theorem release_steady (sound : Sound s) (steady : Steady s) (busy : running s.workers id) : Steady (releaseUploadByteSlot id s) :=
  ⟨steady.attended.held held_release,prompt_release sound busy steady.prompt⟩

theorem released_row (sound : Sound s) (member : item ∈ rows (releaseUploadByteSlot id s)) (named : item.id = id) :
    inFlight item = false := by
  refine Bool.eq_false_iff.mpr (fun flying => ?_)
  have file := (flying_iff.mp flying).2
  unfold releaseUploadByteSlot at member
  split at member
  · rw [rows_processing,rows_pump,updateRow,rows_update] at member
    obtain ⟨old,_,rfl⟩ := mem_map.mp member
    split at named
    · next same => rw [if_pos same] at file; exact file rfl
    · next other => exact other named
  · next held => exact held ⟨item,named ▸ once_row sound.once member,file⟩

theorem register_steady (steady : Steady s) (file : ServerFile) : Steady (registerUploadServerFile id file s) := by
  refine steady.keep (held_update (fun item => ?_) (fun item _ flying => ?_)) (calm_update (fun item _ flying => ?_) (fun item _ queued => ?_))
  · split <;> rfl
  · split at flying <;> exact flying
  · split <;> exact flying
  · split at queued <;> exact queued

theorem held_status (same : ∀ item, (f item).id = item.id) (written : ∀ item, (f item).status ≠ .uploading) :
    Held s (updateRow id f s) := by
  refine held_update (fun item => ?_) (fun item _ flying => ?_)
  · split
    · exact same item
    · rfl
  · split at flying
    · exact absurd (flying_iff.mp flying).1 (written item)
    · exact flying

theorem status_gone (written : ∀ item, (f item).status ≠ .uploading)
    (member : item ∈ rows (updateRow id f s)) (named : item.id = id) : inFlight item = false := by
  refine Bool.eq_false_iff.mpr (fun flying => ?_)
  rw [updateRow,rows_update] at member
  obtain ⟨old,_,rfl⟩ := mem_map.mp member
  split at named
  · next here =>
    rw [if_pos here] at flying
    exact written old (flying_iff.mp flying).1
  · next other => exact other named

theorem endRow_steady (attended : Attended s) (found : s.workers[i]? = some worker) (same : ∀ item, (f item).id = item.id)
    (written : ∀ item, (f item).status ≠ .uploading) : Steady (endWorker i worker (updateRow worker.claimed.id f s)) := by
  refine ⟨(attended.held (held_status same written)).held (held_end ?_ (fun item member named => ?_)),prompt_end⟩
  · rw [updateRow,update_workers]; exact found
  · exact status_gone written member named

section
variable (sound : Sound s)
include sound

theorem finish_steady (steady : Steady s) (found : s.workers[i]? = some worker) (going : worker.phase ≠ .ended)
    (file : ServerFile) : Steady (finishAttempt i worker file s) := by
  have busy : running s.workers worker.claimed.id := ⟨worker,mem_of_getElem? found,going,rfl⟩
  have released := (release_steady sound steady busy).attended
  unfold finishAttempt
  split
  · refine ⟨(released.held held_processing).held (held_end ?_ (fun item member named => ?_)),prompt_end⟩
    · rw [processing_workers,release_workers]; exact found
    · rw [rows_processing] at member
      exact released_row sound member named
  · exact endRow_steady released (by rw [release_workers]; exact found) (fun _ => rfl) (fun _ => (nomatch ·))

theorem fail_steady (steady : Steady s) (found : s.workers[i]? = some worker) (going : worker.phase ≠ .ended)
    (error : Option ApiError) : Steady (failAttempt i worker error s) := by
  have busy : running s.workers worker.claimed.id := ⟨worker,mem_of_getElem? found,going,rfl⟩
  unfold failAttempt
  dsimp only
  split
  · have held : Held s (if rateLimited error then pauseUploadPumpFor (retryAfterMs error (worker.retryAttempt + 1)) s else s) := by
      split
      · exact .same rfl rfl
      · exact .refl s
    have calm : Calm s (if rateLimited error then pauseUploadPumpFor (retryAfterMs error (worker.retryAttempt + 1)) s else s) := by
      split
      · exact .same rfl rfl rfl (fun pending => pending)
      · exact .refl s
    have workers : (if rateLimited error then pauseUploadPumpFor (retryAfterMs error (worker.retryAttempt + 1)) s else s).workers =
        s.workers := by split <;> rfl
    have same : rows (if rateLimited error then pauseUploadPumpFor (retryAfterMs error (worker.retryAttempt + 1)) s else s) =
        rows s := by split <;> rfl
    generalize (if rateLimited error then pauseUploadPumpFor (retryAfterMs error (worker.retryAttempt + 1)) s else s) = p
      at held calm workers same ⊢
    have written : Held p (updateRow worker.claimed.id claim p) := by
      refine held_update (fun item => ?_) (fun item member flying => ?_)
      · split <;> rfl
      · split at flying
        · next named =>
          rw [same] at member
          have file := (flying_iff.mp flying).2
          exact flying_iff.mpr ⟨(sound.rowOk member).held file (named ▸ busy),file⟩
        · exact flying
    have quiet : Calm p (updateRow worker.claimed.id claim p) := by
      refine calm_update (fun item _ flying => ?_) (fun item _ queued => ?_)
      · split
        · exact flying_iff.mpr ⟨rfl,(flying_iff.mp flying).2⟩
        · exact flying
      · split at queued
        · cases (claimable_iff.mp queued).1
        · exact queued
    have kept : (updateRow worker.claimed.id claim p).workers[i]? = some worker := by
      rw [updateRow,update_workers,workers]
      exact found
    refine steady.keep (held.trans (written.trans ⟨fun item member flying => ⟨item,member,rfl,flying⟩,fun _ _ _ busy => ?_⟩))
      (calm.trans (quiet.trans (.same rfl rfl rfl (fun pending => pending))))
    exact running_set kept rfl (fun now => by cases now) busy
  · refine endRow_steady steady.attended found (fun _ => rfl) (fun _ => ?_)
    dsimp only
    split <;> exact fun now => by cases now

theorem retry_gone (gone : s.batch = none ∨ (row? s id).map UploadItem.status = some .cancelled) :
    ∀ item ∈ rows s, item.id = id → inFlight item = false := by
  intro item member named
  refine Bool.eq_false_iff.mpr (fun flying => ?_)
  rcases gone with none_ | cancelled
  · rw [rows_none none_] at member
    cases member
  · rw [← named,once_row sound.once member] at cancelled
    exact absurd ((flying_iff.mp flying).1.symm.trans (Option.some.inj cancelled)) (nomatch ·)

theorem retryAttempt_steady (steady : Steady s) (found : s.workers[i]? = some worker) :
    Steady (retryAttempt i worker s) := by
  unfold retryAttempt
  split
  · next gone => exact ⟨steady.attended.held (held_end found (retry_gone sound gone)),prompt_end⟩
  · exact steady.keep (held_phase found (nomatch ·)) calm_phase

theorem worker_steady (steady : Steady s) (found : s.workers[i]? = some worker)
    (worked : Worked i worker s event next) : Steady next := by
  have going := worked.going
  cases worked with
  | started =>
    refine steady.keep (held_phase found ?_) calm_phase
    split <;> exact (nomatch ·)
  | retried => exact retryAttempt_steady sound steady found
  | token => exact steady.keep (held_phase found (nomatch ·)) calm_phase
  | session _ session =>
    refine steady.keep (held_update (fun item => ?_) (fun item _ flying => ?_)) (calm_update (fun item _ flying => ?_) (fun item _ queued => ?_))
    · split <;> rfl
    · split at flying <;> exact flying
    · split <;> exact flying
    · split at queued <;> exact queued
  | sent =>
    exact release_steady (setPhase_sound sound found going .sent) (steady.keep (held_phase found (nomatch ·)) calm_phase)
      (set_running found .sent (nomatch ·))
  | answered _ file =>
    exact register_steady (release_steady (setPhase_sound sound found going (.registered file))
      (steady.keep (held_phase found (nomatch ·)) calm_phase) (set_running found (.registered file) (nomatch ·))) file
  | finished => exact finish_steady sound steady found going _
  | failed _ error => exact fail_steady sound steady found going error

theorem resume_steady {event : ResumeEvent} (steady : Steady s) (found : s.resumes[j]? = some resume)
    (resumed : Resumed j resume s event next) : Steady next := by
  have busy : polling s.resumes resume.uploadId := ⟨resume,mem_of_getElem? found,resumed.going,rfl⟩
  rcases resumed.ends with ⟨phase,rfl⟩ | ⟨status,terminal,rfl⟩
  · exact steady.congr rfl rfl rfl rfl (fun pending => pending)
  · have set_ : Steady (setResume j resume .ended s) := steady.congr rfl rfl rfl rfl (fun pending => pending)
    have written : Steady (updateRow resume.uploadId (fun item =>
        { item with status, uploadedFileId := if status = .done then some resume.fileId else item.uploadedFileId })
        (setResume j resume .ended s)) := by
      refine set_.keep (held_status (fun _ => rfl) (fun _ => ?_)) (calm_update (fun item member flying => ?_) (fun item _ queued => ?_))
      · dsimp only
        rintro rfl
        cases terminal
      · split
        · next named => exact absurd ((sound.rowOk (show item ∈ rows s from member)).polled (named ▸ busy)) (flying_iff.mp flying).2
        · exact flying
      · split at queued
        · have status_ : status = .queued := (claimable_iff.mp queued).1
          subst status_
          cases terminal
        · exact queued
    unfold finishResume
    exact Steady.complete (Steady.processing (Steady.emit (written.congr rfl rfl rfl rfl (fun pending => pending))))

end

theorem keep_rows (some_ : s.batch = some batch) (p : UploadItem → Bool) :
    rows { s with batch := if batch.items.filter p = [] then none else some { batch with items := batch.items.filter p } } =
      (rows s).filter p := by
  rw [mem_rows some_]
  by_cases empty : batch.items.filter p = []
  · rw [if_pos empty,empty]; rfl
  · rw [if_neg empty]; rfl

theorem remove_rows (member : item ∈ rows (removeItemFromActiveBatch id s)) : item ∈ rows s ∧ item.id ≠ id := by
  unfold removeItemFromActiveBatch at member
  split at member
  · next none_ => rw [rows_none none_] at member; cases member
  · next batch some_ =>
    dsimp only at member
    rw [rows_pump,rows_emit,rows_complete] at member
    have kept : item ∈ (rows s).filter (fun item => decide (item.id ≠ id)) := keep_rows some_ _ ▸ member
    obtain ⟨inside,other⟩ := mem_filter.mp kept
    exact ⟨inside,of_decide_eq_true other⟩

theorem remove_workers : (removeItemFromActiveBatch id s).workers = s.workers := by
  unfold removeItemFromActiveBatch
  split
  · rfl
  · dsimp only
    rw [pump_workers,emit_workers,complete_keeps.1]

theorem remove_prompt (sound : Sound s) : Prompt (removeItemFromActiveBatch id s) := by
  unfold removeItemFromActiveBatch
  split
  · next none_ =>
    rintro _ _ ⟨item,member,_⟩
    rw [rows_none none_] at member
    cases member
  · next batch some_ =>
    have kept := keep_live sound.toLive some_ (fun item => decide (item.id ≠ id))
    refine prompt_pump (emit_sound (complete_live ?_)).toLive
    exact ⟨kept.batchOk,kept.workers,kept.resumes⟩

theorem remove_steady (sound : Sound s) (attended : Attended s) : Steady (removeItemFromActiveBatch id s) := by
  refine ⟨fun item member flying => ?_,remove_prompt sound⟩
  rw [remove_workers]
  exact attended item (remove_rows member).1 flying

theorem abort_running (busy : running s.workers k) (ne : k ≠ id) : running (abortUploadSession id s).workers k := by
  obtain ⟨worker,member,going,rfl⟩ := busy
  refine ⟨worker,mem_map.mpr ⟨worker,member,if_neg ?_⟩,going,rfl⟩
  intro aborted
  exact ne (of_decide_eq_true (Bool.and_eq_true_iff.mp aborted).1)

theorem cancel_steady (sound : Sound s) (steady : Steady s) : Steady (cancelUploadItem id s) := by
  unfold cancelUploadItem
  split
  · exact steady
  · next item found =>
    split
    · exact steady
    · dsimp only
      obtain ⟨member,named⟩ := row_some found
      have aborted : Sound { s with abortedUploadItemIds := insertId id s.abortedUploadItemIds } := sound.congr rfl rfl rfl rfl rfl
      have marked : Steady { s with abortedUploadItemIds := insertId id s.abortedUploadItemIds } :=
        steady.congr rfl rfl rfl rfl (fun pending => pending)
      split
      · next reprocess =>
        have written : Steady (updateRow id (fun item => { item with status := .cancelled })
            { s with abortedUploadItemIds := insertId id s.abortedUploadItemIds }) := by
          refine marked.keep (held_status (fun _ => rfl) (fun _ => (nomatch ·)))
            (calm_update (fun other inside flying => ?_) (fun other _ queued => ?_))
          · split
            · next same =>
              cases inj_on_of_nodup_map sound.once inside member (same.trans named.symm)
              exact absurd ((sound.rowOk member).reprocess reprocess) (flying_iff.mp flying).2
            · exact flying
          · split at queued
            · cases (claimable_iff.mp queued).1
            · exact queued
        exact Steady.processing (Steady.complete (written.congr rfl rfl rfl rfl (fun pending => pending)))
      · split
        · refine ⟨fun row inside flying => ?_,remove_prompt (abort_sound aborted)⟩
          obtain ⟨before,other⟩ := remove_rows inside
          rw [remove_workers]
          exact abort_running (marked.attended row before flying) other
        · exact remove_steady aborted marked.attended

theorem cancelAll_steady (sound : Sound s) (steady : Steady s) : Steady (cancelAllPendingHlsReprocess s) := by
  unfold cancelAllPendingHlsReprocess
  dsimp only
  refine Steady.complete (Steady.keep (s := { s with abortedUploadItemIds := _, resumingItemIds := _ }) ?_
    (held_update (fun item => ?_) (fun item _ flying => ?_)) (calm_update (fun item member flying => ?_) (fun item _ queued => ?_)))
  · exact steady.congr rfl rfl rfl rfl (fun pending => pending)
  · split <;> rfl
  · split at flying
    · cases (flying_iff.mp flying).1
    · exact flying
  · split
    · next pending =>
      exact absurd ((sound.rowOk (show item ∈ rows s from member)).reprocess (Bool.and_eq_true_iff.mp pending).1) (flying_iff.mp flying).2
    · exact flying
  · split at queued
    · cases (claimable_iff.mp queued).1
    · exact queued

theorem clear_steady (steady : Steady s) : Steady (clearCancelledHlsReprocessItems s) := by
  unfold clearCancelledHlsReprocessItems
  split
  · exact steady
  · next batch some_ =>
    have same := keep_rows some_ (fun item => !(item.isReprocess && decide (item.status = .cancelled)))
    refine Steady.emit (Steady.complete (steady.keep ⟨fun item member flying => ?_,fun _ _ _ busy => busy⟩
      ⟨rfl,rfl,?_,?_,fun pending => pending⟩))
    · rw [same] at member
      exact ⟨item,mem_of_mem_filter member,rfl,flying⟩
    · rw [countInFlightBrowserUploads,countInFlightBrowserUploads,same,filter_filter]
      refine Nat.le_of_eq (congrArg List.length (filter_congr (fun item _ => ?_)))
      cases flying : inFlight item with
      | false => rfl
      | true =>
        rw [Bool.true_and,(flying_iff.mp flying).1,Bool.and_comm]
        rfl
    · rintro ⟨item,member,queued⟩
      rw [same] at member
      exact ⟨item,mem_of_mem_filter member,queued⟩

theorem Attended.pump (attended : Attended s) (live : Live s) : Steady (pumpUploadQueue s) :=
  ⟨attended.held held_pump,prompt_pump live⟩

theorem itemPaused_steady (sound : Sound s) (steady : Steady s) (paused : Bool) : Steady (setUploadItemPaused id paused s) := by
  have written : Sound (updateItems (fun item => if item.id = id ∧ item.status = .queued then { item with paused } else item) s) := by
    refine update_sound sound (fun item => ?_) (fun item _ ok => ?_) (fun item _ => ?_)
    · split <;> rfl
    · split
      · exact ⟨ok.waiting,ok.reprocess,ok.polled,ok.reselect,ok.held⟩
      · exact ok
    · split <;> exact fun queued => queued
  have held : Held s (updateItems (fun item => if item.id = id ∧ item.status = .queued then { item with paused } else item) s) := by
    refine held_update (fun item => ?_) (fun item _ flying => ?_)
    · split <;> rfl
    · split at flying <;> exact flying
  unfold setUploadItemPaused
  dsimp only
  split
  · next on =>
    refine ⟨steady.attended.held held,steady.prompt.calm (calm_update (fun item _ flying => ?_) (fun item _ queued => ?_))⟩
    · split <;> exact flying
    · split at queued
      · exact absurd (on.symm.trans (claimable_iff.mp queued).2) (by decide)
      · exact queued
  · exact (steady.attended.held held).pump written.toLive

theorem batchPaused_steady (sound : Sound s) (steady : Steady s) (paused : Bool) : Steady (setUploadBatchPaused paused s) := by
  have attended : Attended { s with userUploadPaused := paused } := steady.attended.held (.same rfl rfl)
  unfold setUploadBatchPaused
  refine Steady.emit ?_
  split
  · next on => exact ⟨attended,fun off => absurd (on.symm.trans off) (by decide)⟩
  · exact attended.pump ⟨sound.batchOk,sound.workers,sound.resumes⟩

theorem dismiss_steady (steady : Steady s) : Steady (dismissUploadBatch s) := by
  unfold dismissUploadBatch
  split
  · exact steady
  · exact .bare (fun item member => nomatch member)

theorem startBatch_steady (sound : Sound s) (steady : Steady s) (entries : List UploadBatchEntry) (folder : Option Nat) :
    Steady (startUploadBatch entries folder s) := by
  by_cases none_ : entries = []
  · rw [startUploadBatch,if_pos none_]
    exact steady
  · obtain ⟨t,same,sound',workers,_,_,_,from_,_⟩ := startBatch_queued sound none_ folder
    rw [same]
    refine Attended.pump (fun item member flying => ?_) sound'.toLive
    rcases from_ item member with old | new
    · rw [workers]
      exact steady.attended item old flying
    · exact absurd ((flying_iff.mp flying).1.symm.trans (queued_items new).1) (fun now => by cases now)

theorem reopen_keeps : rows (reopen s) = rows s ∧ (reopen s).workers = s.workers := by
  unfold reopen
  split
  · exact ⟨rfl,rfl⟩
  · refine ⟨?_,rfl⟩
    rw [rows_emit]
    unfold rows
    cases s.batch <;> rfl

theorem retry_steady (sound : Sound s) (steady : Steady s) : Steady (retryUploadItem id s) := by
  unfold retryUploadItem
  split
  · next wanted =>
    refine Attended.pump (fun item member flying => ?_) (retry_queued sound wanted).toLive
    rw [reopen_keeps.1,updateRow,rows_update] at member
    rw [reopen_keeps.2,updateRow,update_workers]
    obtain ⟨old,inside,rfl⟩ := mem_map.mp member
    split at flying
    · cases (flying_iff.mp flying).1
    · next other => rw [if_neg other]; exact steady.attended old inside flying
  · exact steady

theorem trackFile_steady (open_ : uploading s) (steady : Steady s) (file : TrackedFile) :
    uploading (trackFile s file) ∧ Steady (trackFile s file) := by
  obtain ⟨batch,some_,status⟩ := open_
  unfold trackFile
  split
  · exact ⟨⟨batch,some_,status⟩,steady⟩
  · have same : rows { setItems (rows s ++ [trackedItem s.created file]) s with created := s.created + 1 } =
        rows s ++ [trackedItem s.created file] := mem_rows (setItems_some _ some_)
    refine ⟨⟨_,setItems_some _ some_,status⟩,steady.keep ⟨fun item member flying => ?_,fun _ _ _ busy => busy⟩ ⟨rfl,rfl,?_,?_,fun pending => pending⟩⟩
    · rw [same] at member
      rcases mem_append.mp member with old | new
      · exact ⟨item,old,rfl,flying⟩
      · cases mem_singleton.mp new
        exact absurd rfl (flying_iff.mp flying).2
    · rw [countInFlightBrowserUploads,countInFlightBrowserUploads,same,filter_append,length_append]
      exact Nat.le_add_right _ _
    · rintro ⟨item,member,queued⟩
      rw [same] at member
      rcases mem_append.mp member with old | new
      · exact ⟨item,old,queued⟩
      · cases mem_singleton.mp new
        cases (claimable_iff.mp queued).1

theorem ensure_steady (steady : Steady s) : uploading (ensureUploadingBatch s) ∧ Steady (ensureUploadingBatch s) := by
  unfold ensureUploadingBatch
  split
  · next open_ => exact ⟨open_,steady⟩
  · exact ⟨⟨_,rfl,rfl⟩,steady.congr rfl rfl rfl rfl (fun pending => pending)⟩

theorem track_steady (steady : Steady s) (files : List TrackedFile) : Steady (trackFiles files s) := by
  obtain ⟨open_,active⟩ := ensure_steady steady
  have tracked : ∀ (files : List TrackedFile) (s : Manager), uploading s → Steady s → Steady (files.foldl trackFile s) := by
    intro files
    induction files with
    | nil => exact fun _ _ steady => steady
    | cons file rest ih =>
      intro s open_ steady
      obtain ⟨open_,steady⟩ := trackFile_steady open_ steady file
      exact ih _ open_ steady
  unfold trackFiles
  split
  · exact steady
  · dsimp only
    split
    · exact active
    · exact Steady.processing (Steady.emit (tracked files _ open_ active))

theorem jobs_steady (steady : Steady s) (active : List TrackedFile) : Steady (restoreFromActiveBackgroundJobs active s) := by
  unfold restoreFromActiveBackgroundJobs
  dsimp only
  split
  · exact steady.congr rfl rfl rfl rfl (fun pending => pending)
  · refine Steady.processing (Steady.emit (.bare (fun item member => ?_)))
    obtain ⟨status,sent,_⟩ := tracked_items (show item ∈ trackedItems s.created active from member)
    exact ⟨sent,fun queued => absurd (status.symm.trans queued) (nomatch ·)⟩

theorem reconcile_bare : (reconcileRestoredItem item).localFile = none ∧ (reconcileRestoredItem item).status ≠ .queued := by
  refine ⟨?_,reconcile_unqueued⟩
  unfold reconcileRestoredItem
  split
  · rfl
  · split
    · split <;> rfl
    · rfl

theorem restore_steady (sound : Sound s) (steady : Steady s) : Steady (restoreUploadBatchFromStorage s) := by
  unfold restoreUploadBatchFromStorage
  split
  · exact steady
  · dsimp only
    split
    · exact steady.congr rfl rfl rfl rfl (fun pending => pending)
    · next persisted kept =>
      split
      · exact steady.congr rfl rfl rfl rfl (fun pending => pending)
      · split
        · next complete =>
          refine Steady.emit (.bare (fun item member => ?_))
          obtain ⟨old,inside,rfl⟩ := mem_map.mp (show item ∈ persisted.items.map internalFromPersisted from member)
          exact ⟨rfl,(sound.stored persisted kept).complete complete old inside⟩
        · refine Steady.complete (Steady.processing (Steady.emit (.bare (fun item member => ?_))))
          obtain ⟨old,_,rfl⟩ := mem_map.mp (show item ∈ persisted.items.map reconcileRestoredItem from member)
          exact reconcile_bare

theorem settle_steady (sound : Sound s) (attended : Attended s) : Steady (settle s) :=
  ((attended.pump sound.toLive).processing).keep held_idle calm_idle

theorem turn_attended (sound : Sound s) (attended : Attended s) (taken : claimNextQueued s = some (item,t)) :
    Attended (uploadClaimedItem item t) := by
  obtain ⟨queued,member,holds,rfl,rfl⟩ := claim_some sound.once taken
  obtain ⟨_,_,_,_,file⟩ := turn_sound sound taken
  unfold uploadClaimedItem
  split
  · next none_ => exact absurd none_ file
  · intro row inside flying
    have here : row ∈ rows (updateRow queued.id claim s) := inside
    rw [updateRow,rows_update] at here
    obtain ⟨old,before,rfl⟩ := mem_map.mp here
    split
    · next same => exact ⟨_,mem_append_right _ mem_cons_self,(fun now => by cases now),same.symm⟩
    · next other =>
      rw [if_neg other] at flying
      obtain ⟨worker,present,going,named⟩ := attended old before flying
      refine ⟨worker,mem_append_left _ ?_,going,named⟩
      rw [updateRow,update_workers]
      exact present

theorem turn_shorter (sound : Sound s) (taken : claimNextQueued s = some (item,t)) :
    ((rows (uploadClaimedItem item t)).filter claimable).length < ((rows s).filter claimable).length := by
  obtain ⟨queued,member,holds,rfl,rfl⟩ := claim_some sound.once taken
  have same : rows (uploadClaimedItem (claim queued) (updateRow queued.id claim s)) =
      (rows s).map (fun item => if item.id = queued.id then claim item else item) := by
    rw [← rows_update (s := s)]
    unfold uploadClaimedItem
    split <;> rfl
  rw [same,filter_map,length_map]
  have rest : (rows s).filter (claimable ∘ fun item => if item.id = queued.id then claim item else item) =
      ((rows s).filter claimable).filter (fun item => decide (item.id ≠ queued.id)) := by
    rw [filter_filter]
    refine filter_congr (fun item _ => ?_)
    rw [Function.comp_apply]
    by_cases same : item.id = queued.id
    · rw [if_pos same,decide_eq_false (fun ne => ne same),Bool.false_and]
      exact decide_eq_false (fun both => nomatch both.1)
    · rw [if_neg same,decide_eq_true same,Bool.true_and]
  rw [rest]
  refine length_filter_lt_length_iff_exists.mpr ⟨queued,mem_filter.mpr ⟨member,holds⟩,?_⟩
  rw [decide_eq_false (fun ne => ne rfl)]
  exact Bool.false_ne_true

theorem claimLoop_steady (slots fuel : Nat) : ∀ s, Sound s → Attended s → ((rows s).filter claimable).length ≤ fuel →
    Attended (claimLoop slots fuel s) ∧
      (slots ≤ countInFlightBrowserUploads (claimLoop slots fuel s) ∨ ¬awaited (claimLoop slots fuel s)) := by
  induction fuel with
  | zero =>
    intro s _ attended few
    refine ⟨attended,.inr ?_⟩
    rintro ⟨item,member,queued⟩
    have here := length_pos_of_mem (mem_filter.mpr ⟨show item ∈ rows s from member,queued⟩)
    omega
  | succ fuel ih =>
    intro s sound attended few
    unfold claimLoop
    split
    · split
      · next none_ =>
        refine ⟨attended,.inr ?_⟩
        rintro ⟨item,member,queued⟩
        exact absurd ((claim_none none_ member).symm.trans queued) (by decide)
      · next taken =>
        have shorter := turn_shorter sound taken
        exact ih _ (turn_sound sound taken).2.1 (turn_attended sound attended taken) (by omega)
    · next full => exact ⟨attended,.inl (Nat.le_of_not_lt full)⟩

theorem claimLoop_samples (slots fuel : Nat) : ∀ s : Manager, (claimLoop slots fuel s).samples = s.samples := by
  induction fuel with
  | zero => exact fun _ => rfl
  | succ fuel ih =>
    intro s
    unfold claimLoop
    split
    · split
      · rfl
      · next item t taken =>
        rw [ih]
        obtain ⟨index,_,found⟩ := Option.bind_eq_some_iff.mp taken
        obtain ⟨_,_,pair⟩ := Option.map_eq_some_iff.mp found
        obtain ⟨_,rfl⟩ := Prod.mk.inj pair
        unfold uploadClaimedItem
        split <;> rfl
    · rfl

theorem pumpRun_steady (sound : Sound s) (attended : Attended s) : Steady (pumpRun s) := by
  unfold pumpRun
  split
  · obtain ⟨attended,ended⟩ := claimLoop_steady (fileSlots s) (rows s).length s sound attended (length_filter_le _ _)
    refine ⟨attended,fun _ free queued => ?_⟩
    rcases ended with full | none_
    · have slots : fileSlots (claimLoop (fileSlots s) (rows s).length s) = fileSlots s :=
        congrArg (fun samples => min adaptiveFileSlotsCap (suggestedFileConcurrency samples)) (claimLoop_samples _ _ s)
      omega
    · exact absurd queued none_
  · next closed =>
    refine ⟨attended,fun paused _ queued => ?_⟩
    obtain ⟨item,member,queued⟩ := queued
    refine absurd ⟨?_,paused⟩ closed
    by_contra complete
    exact sound.unqueued complete member (claimable_iff.mp queued).1

theorem step_steady (sound : Sound s) (serves : Serves s e) (steady : Steady s) (fired : step s e = some next) : Steady next := by
  cases e with
  | tick ms => cases fired; exact steady.congr rfl rfl rfl rfl (fun pending => pending)
  | sample sample => cases fired; exact ⟨steady.attended,serves⟩
  | startUploadBatch entries folder => cases fired; exact startBatch_steady sound steady entries folder
  | setUploadBatchPaused paused => cases fired; exact batchPaused_steady sound steady paused
  | setUploadItemPaused itemId paused => cases fired; exact itemPaused_steady sound steady paused
  | cancelUploadItem itemId => cases fired; exact cancel_steady sound steady
  | reprocessCancelled => cases fired; exact cancelAll_steady sound steady
  | clearCancelledHlsReprocessItems => cases fired; exact clear_steady steady
  | removeUploadBatchItem itemId =>
    cases fired
    unfold removeUploadBatchItem
    split
    · exact remove_steady sound steady.attended
    · exact steady
  | dismissUploadBatch => cases fired; exact dismiss_steady steady
  | retryUploadItem itemId => cases fired; exact retry_steady sound steady
  | reattachUploadFile uploadId file =>
    cases fired
    unfold reattachUploadFile
    rw [if_neg]
    · exact steady
    · rintro ⟨item,found,can⟩
      exact serves item found can
  | trackFiles files => cases fired; exact track_steady steady files
  | reload => cases fired; exact .bare (fun item member => nomatch member)
  | restoreUploadBatchFromStorage => cases fired; exact restore_steady sound steady
  | jobsListed active =>
    obtain ⟨_,same⟩ := Option.ite_none_right_eq_some.mp fired
    cases same
    exact jobs_steady steady active
  | pump k =>
    simp only [step] at fired
    split at fired
    · obtain ⟨_,same⟩ := Option.ite_none_right_eq_some.mp fired
      cases same
      exact pumpRun_steady (sound.congr rfl rfl rfl rfl rfl) steady.attended
    · cases fired
  | settled =>
    obtain ⟨_,same⟩ := Option.ite_none_right_eq_some.mp fired
    cases same
    exact settle_steady (sound.congr rfl rfl rfl rfl rfl) steady.attended
  | worker i event =>
    obtain ⟨worker,found,fired⟩ := Option.bind_eq_some_iff.mp fired
    exact worker_steady sound steady found (workerStep_worked fired)
  | resume j event =>
    obtain ⟨resume,found,fired⟩ := Option.bind_eq_some_iff.mp fired
    exact resume_steady sound steady found (resumeStep_resumed fired)

theorem reattach_stranded {file : LocalFile} (sound : Sound s) (found : row? s id = some item) (can : canReattach file item) :
    ¬Attended (reattachUploadFile id file s) := by
  obtain ⟨member,named⟩ := row_some found
  intro attended
  unfold reattachUploadFile at attended
  rw [if_pos ⟨item,found,can⟩] at attended
  have busy := attended { item with localFile := some file, status := .uploading, needsFileReselect := false } ?_
    (flying_iff.mpr ⟨rfl,(nomatch ·)⟩)
  · rw [pump_workers,reopen_keeps.2,updateRow,update_workers] at busy
    exact ((sound.rowOk member).reselect can.1).2.2.1 busy
  · rw [rows_pump,reopen_keeps.1,updateRow,rows_update]
    exact mem_map.mpr ⟨item,member,if_pos named⟩

theorem steady_serves (sound : Sound s) (fired : step s e = some next) (steady : Steady next) : Serves s e := by
  cases e with
  | sample sample => cases fired; exact steady.prompt
  | reattachUploadFile uploadId file =>
    cases fired
    exact fun item found can => reattach_stranded sound found can steady.attended
  | _ => trivial

theorem Ends.after (fired : step s e = some t) (ends : Ends t i) : Ends s i := by
  obtain ⟨events,final,worker,ran,rest⟩ := ends
  refine ⟨e :: events,final,worker,?_,rest⟩
  rw [Schedule.run,fired]
  exact ran

section
variable (found : s.workers[i]? = some worker)
include found

theorem Ends.now (gone : ∀ item ∈ rows s, item.id = worker.claimed.id → inFlight item = false) :
    Ends (endWorker i worker s) i := by
  obtain ⟨inside,_⟩ := List.getElem?_eq_some_iff.mp found
  exact ⟨[],_,{ worker with phase := .ended },rfl,getElem?_set_self inside,rfl,gone⟩

theorem step_worker :
    step s (.worker i event) = workerStep i worker s event := by
  rw [step,found]
  rfl

theorem attempt_ends
    (phase : worker.phase = .preparing ∨ worker.phase = .sending ∨ worker.phase = .sent) : Ends s i := by
  refine Ends.after (e := .worker i (.failure none)) ((step_worker found).trans (if_pos phase)) ?_
  refine Ends.now (s := updateRow worker.claimed.id (fun item => { item with status := .error }) s) ?_ (fun item member named => ?_)
  · rw [updateRow,update_workers]; exact found
  · refine status_gone (fun _ => ?_) member named
    exact fun now => by cases now

theorem unpausing_ends {wake : Nat} (phase : worker.phase = .unpausing wake) : Ends s i := by
  obtain ⟨inside,_⟩ := List.getElem?_eq_some_iff.mp found
  refine Ends.after (e := .tick wake) rfl ?_
  have due : wake ≤ s.now + wake := Nat.le_add_left _ _
  refine Ends.after (e := .worker i .wake)
    (t := setPhase i worker (if shouldUseResumableUpload worker.file then .sending else .preparing) { s with now := s.now + wake }) ?_ ?_
  · rw [step_worker (s := { s with now := s.now + wake }) found,workerStep,phase]
    exact if_pos due
  · refine attempt_ends (getElem?_set_self inside) ?_
    dsimp only
    split
    · exact .inr (.inl rfl)
    · exact .inl rfl

end

theorem worker_ends (sound : Sound s) (found : s.workers[i]? = some worker) (going : worker.phase ≠ .ended) : Ends s i := by
  obtain ⟨inside,_⟩ := List.getElem?_eq_some_iff.mp found
  cases phase : worker.phase with
  | unpausing wake => exact unpausing_ends found phase
  | preparing => exact attempt_ends found (.inl phase)
  | sending => exact attempt_ends found (.inr (.inl phase))
  | sent => exact attempt_ends found (.inr (.inr phase))
  | registered file =>
    have busy : running s.workers worker.claimed.id := ⟨worker,mem_of_getElem? found,going,rfl⟩
    have same : (releaseUploadByteSlot worker.claimed.id s).workers[i]? = some worker := by rw [release_workers]; exact found
    refine Ends.after (e := .worker i .result) (t := finishAttempt i worker file s) ?_ ?_
    · rw [step_worker found,workerStep,phase]
    · unfold finishAttempt
      dsimp only
      split
      · refine Ends.now (by rw [processing_workers]; exact same) (fun item member named => ?_)
        rw [rows_processing] at member
        exact released_row sound member named
      · refine Ends.now (by rw [updateRow,update_workers]; exact same) (fun item member named => ?_)
        refine status_gone (fun _ => ?_) member named
        exact fun now => by cases now
  | backoff wake =>
    refine Ends.after (e := .tick wake) rfl ?_
    have due : wake ≤ s.now + wake := Nat.le_add_left _ _
    have sound' : Sound { s with now := s.now + wake } := sound.congr rfl rfl rfl rfl rfl
    refine Ends.after (e := .worker i .wake) (t := retryAttempt i worker { s with now := s.now + wake }) ?_ ?_
    · rw [step_worker (s := { s with now := s.now + wake }) found,workerStep,phase]
      exact if_pos due
    · unfold retryAttempt
      split
      · next gone => exact Ends.now found (retry_gone sound' gone)
      · exact unpausing_ends (getElem?_set_self inside) rfl
  | ended => exact absurd phase going

theorem unstranded_iff (sound : Sound s) : Unstranded s ↔ Steady s := by
  constructor
  · intro unstranded
    refine ⟨fun item member flying => ?_,unstranded.prompt⟩
    obtain ⟨i,⟨worker,found,going,named⟩,_⟩ := unstranded.attended item member flying
    exact ⟨worker,mem_of_getElem? found,going,named⟩
  · intro steady
    refine ⟨fun item member flying => ?_,steady.prompt⟩
    obtain ⟨worker,inside,going,named⟩ := steady.attended item member flying
    obtain ⟨i,found⟩ := mem_iff_getElem?.mp inside
    refine ⟨i,⟨worker,found,going,named⟩,worker_ends sound found going,?_⟩
    rintro j ⟨other,present,goes,same⟩
    exact sound.workers.single j i other worker present found goes going (same.trans named.symm)

theorem start_steady : Steady start := .bare (fun _ member => nomatch member)

-- No row is stranded in the states of a run exactly where no file is given back to a row
-- and no slot opens beside a queue that nobody watches.
theorem rows_attended (events : List Event) :
    (∀ left right reached, events = left ++ right → Schedule.run step start left = some reached → Unstranded reached) ↔
      Schedule.Along step Serves start events := by
  rw [← Schedule.along_reached_iff ((unstranded_iff start_sound).mpr start_steady)]
  refine Schedule.along_congr (motive := fun s => Sound s ∧ Steady s) ?_ ?_ ⟨start_sound,start_steady⟩
  · rintro s e ⟨sound,steady⟩
    constructor
    · intro reached
      cases fired : step s e with
      | none =>
        cases e with
        | sample sample => cases fired
        | reattachUploadFile uploadId file => cases fired
        | _ => trivial
      | some next => exact steady_serves sound fired ((unstranded_iff (step_sound sound fired)).mp (reached next fired))
    · exact fun serves next fired => (unstranded_iff (step_sound sound fired)).mpr (step_steady sound serves steady fired)
  · rintro s e next ⟨sound,steady⟩ serves fired
    exact ⟨step_sound sound fired,step_steady sound serves steady fired⟩

def note : LocalFile := ⟨"note.txt",12,"text/plain"⟩

-- A file of two attempts, the first of them throttled.
example : ((Schedule.run step start [.startUploadBatch [⟨note,none,none⟩] none,.pump 0,.worker 0 .wake,.worker 0 .csrfToken,
    .worker 0 (.failure (some ⟨"rate_limited",429,some 2⟩)),.tick 2000,.worker 0 .wake,.worker 0 .wake,.worker 0 .csrfToken,
    .worker 0 .bytesComplete,.worker 0 (.serverFile ⟨5,"note.txt",12,false⟩),.worker 0 .result,.settled]).map
    (fun s => ((rows s).map UploadItem.status,s.batch.map UploadBatch.status))) = some ([.done],some .complete) := by decide +kernel

def clip : LocalFile := ⟨"clip.mp4",9437184,"video/mp4"⟩

def interrupted : List Event := [.startUploadBatch [⟨clip,none,none⟩] none,.pump 0,.worker 0 .wake,.worker 0 (.sessionReady 7),
  .reload,.restoreUploadBatchFromStorage]

def crowded : List Event := [.startUploadBatch [⟨note,none,none⟩,⟨note,none,none⟩,⟨note,none,none⟩] none,.pump 0,
  .sample ⟨true,100⟩,.sample ⟨true,100⟩]

-- Rows, workers and what the browser stores of them, in any interleaving.
theorem rows_uploaded_once (ran : Schedule.run step start events = some s) : Sound s :=
  Schedule.run_preserves (fun _ _ _ held fired => step_sound held fired) start_sound ran

theorem rows_uploaded_once_crowded : ∃ s, Schedule.run step start crowded = some s ∧ Sound s :=
  Schedule.reached_of_isSome (by decide +kernel) (fun _ ran => rows_uploaded_once ran)

theorem reattached_unattended : (¬∀ events left right reached, events = left ++ right → Schedule.run step start left = some reached →
      Unstranded reached) ∧
    (∃ reached, Schedule.run step start (interrupted ++ [.reattachUploadFile 0 clip,.pump 0]) = some reached ∧
      (∃ item ∈ rows reached, inFlight item = true) ∧ reached.workers = [] ∧ reached.pumps = [] ∧ reached.settling = 0) ∧
    ∃ reached, Schedule.run step start (crowded ++ [.sample ⟨true,100⟩]) = some reached ∧
      countInFlightBrowserUploads reached < fileSlots reached ∧ (∃ item ∈ rows reached, claimable item = true) ∧
      reached.pumps = [] ∧ reached.settling = 0 := by
  have stranded : ∃ reached, Schedule.run step start (interrupted ++ [.reattachUploadFile 0 clip,.pump 0]) = some reached ∧
      (∃ item ∈ rows reached, inFlight item = true) ∧ reached.workers = [] ∧ reached.pumps = [] ∧ reached.settling = 0 :=
    Schedule.reached_of_any (by decide +kernel)
  refine ⟨fun all => ?_,stranded,Schedule.reached_of_any (by decide +kernel)⟩
  obtain ⟨reached,ran,⟨item,member,flying⟩,workers,_⟩ := stranded
  obtain ⟨i,⟨worker,found,_⟩,_⟩ := (all _ _ [] reached (append_nil _).symm ran).attended item member flying
  rw [workers] at found
  cases found

end Ownly.Tray
