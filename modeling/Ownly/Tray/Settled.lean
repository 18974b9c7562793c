import Ownly.Tray.Cancel

namespace Ownly.Tray
open List

-- The server's file has not come yet.
def early (worker : Worker) : Bool := match worker.phase with
  | .registered _ => false
  | .ended => false
  | _ => true

structure RowQuiet (s : Manager) (item : UploadItem) : Prop where
  polled : settled item.status = true → polling s.resumes item.id → item.status = .cancelled ∧ item.id ∈ s.abortedUploadItemIds
  served : settled item.status = true → ∀ worker ∈ s.workers, worker.claimed.id = item.id → pledges worker = true → item.status = .done
  early : ∀ worker ∈ s.workers, worker.claimed.id = item.id → early worker = true → item.status = .uploading ∧ item.uploadedFileId = none
  sent : ∀ worker ∈ s.workers, worker.claimed.id = item.id → ∀ file, worker.phase = .registered file → item.localFile = none
  queued : item.status = .queued → item.uploadedFileId = none
  asked : polling s.resumes item.id → item.uploadedFileId ≠ none ∧ (item.status = .uploading → item.id ∈ s.resumingItemIds)
  first : item.isReprocess = true → ¬running s.workers item.id

structure Quiet (s : Manager) : Prop where
  rows : ∀ item ∈ rows s, RowQuiet s item
  single : ∀ (j k : Nat) (resume other : Resume), s.resumes[j]? = some resume → s.resumes[k]? = some other →
    resume.phase ≠ .ended → other.phase ≠ .ended → resume.uploadId = other.uploadId → j = k

variable {s t u next : Manager} {batch : UploadBatch} {item : UploadItem} {items : List UploadItem} {f : UploadItem → UploadItem}
  {worker : Worker} {resume : Resume} {id i j k : Nat} {w : Watched} {e : Event} {ids : List Nat} {event : WorkerEvent}
  {file : ServerFile}

theorem early_going (early_ : early worker = true) : worker.phase ≠ .ended := by
  intro ended
  rw [early,ended] at early_
  cases early_

theorem pledges_going (pledge : pledges worker = true) : worker.phase ≠ .ended := by
  intro ended
  rw [pledges,ended] at pledge
  cases pledge

theorem RowQuiet.mono (quiet : RowQuiet s item) (workers : ∀ worker ∈ t.workers, worker.phase ≠ .ended → worker ∈ s.workers)
    (polls : polling t.resumes item.id → polling s.resumes item.id)
    (aborted : item.id ∈ s.abortedUploadItemIds → item.id ∈ t.abortedUploadItemIds)
    (resuming : polling t.resumes item.id → item.status = .uploading → item.id ∈ s.resumingItemIds → item.id ∈ t.resumingItemIds) :
    RowQuiet t item where
  polled done busy := by
    obtain ⟨cancelled,marked⟩ := quiet.polled done (polls busy)
    exact ⟨cancelled,aborted marked⟩
  served done worker member same pledge := quiet.served done worker (workers worker member (pledges_going pledge)) same pledge
  early worker member same soon := quiet.early worker (workers worker member (early_going soon)) same soon
  sent worker member same file phase := by
    refine quiet.sent worker (workers worker member ?_) same file phase
    rw [phase]
    exact (nomatch ·)
  queued := quiet.queued
  asked busy := ⟨(quiet.asked (polls busy)).1,fun status => resuming busy status ((quiet.asked (polls busy)).2 status)⟩
  first reprocess := by
    rintro ⟨worker,member,going,same⟩
    exact quiet.first reprocess ⟨worker,workers worker member going,going,same⟩

theorem RowQuiet.congr (quiet : RowQuiet s item) (workers : t.workers = s.workers) (resumes : t.resumes = s.resumes)
    (aborted : t.abortedUploadItemIds = s.abortedUploadItemIds) (resuming : t.resumingItemIds = s.resumingItemIds) : RowQuiet t item :=
  quiet.mono (fun _ member _ => workers ▸ member) (fun busy => resumes ▸ busy) (fun marked => aborted ▸ marked)
    (fun _ _ listed => resuming ▸ listed)

theorem RowQuiet.idle (idle : ¬running s.workers item.id) (unpolled : ¬polling s.resumes item.id)
    (queued : item.status = .queued → item.uploadedFileId = none) : RowQuiet s item where
  polled _ busy := absurd busy unpolled
  served _ worker member same pledge := absurd ⟨worker,member,pledges_going pledge,same⟩ idle
  early worker member same soon := absurd ⟨worker,member,early_going soon,same⟩ idle
  sent worker member same file phase := by
    refine absurd ⟨worker,member,?_,same⟩ idle
    rw [phase]
    exact (nomatch ·)
  queued := queued
  asked busy := absurd busy unpolled
  first _ := idle

theorem RowQuiet.fresh (sound : Live s) (fresh : s.created ≤ item.id) (queued : item.status = .queued → item.uploadedFileId = none) :
    RowQuiet s item := by
  refine .idle ?_ ?_ queued
  · rintro ⟨worker,member,_,same⟩
    have less := sound.workers.fresh worker member
    omega
  · rintro ⟨resume,member,_,same⟩
    have less := sound.resumes resume member
    omega

theorem Quiet.revise (quiet : Quiet s) (resumes : t.resumes = s.resumes) (row : ∀ item ∈ Tray.rows t, RowQuiet t item) : Quiet t :=
  ⟨row,by rw [resumes]; exact quiet.single⟩

theorem Quiet.grow (quiet : Quiet s) (live : Live s) (from_ : ∀ item ∈ Tray.rows t, item ∈ Tray.rows s ∨
      s.created ≤ item.id ∧ (item.status = .queued → item.uploadedFileId = none)) (workers : t.workers = s.workers)
    (resumes : t.resumes = s.resumes) (aborted : t.abortedUploadItemIds = s.abortedUploadItemIds)
    (resuming : t.resumingItemIds = s.resumingItemIds) : Quiet t := by
  refine ⟨fun item member => ?_,resumes ▸ quiet.single⟩
  rcases from_ item member with old | ⟨fresh,unsent⟩
  · exact (quiet.rows item old).congr workers resumes aborted resuming
  · exact (RowQuiet.fresh live fresh unsent).congr workers resumes aborted resuming

theorem Quiet.keep (quiet : Quiet s) (fewer : ∀ item ∈ Tray.rows t, item ∈ Tray.rows s) (workers : t.workers = s.workers)
    (resumes : t.resumes = s.resumes) (aborted : t.abortedUploadItemIds = s.abortedUploadItemIds)
    (resuming : t.resumingItemIds = s.resumingItemIds) : Quiet t :=
  ⟨fun item member => (quiet.rows item (fewer item member)).congr workers resumes aborted resuming,resumes ▸ quiet.single⟩

theorem Quiet.same (quiet : Quiet s) (same : Tray.rows t = Tray.rows s) (workers : t.workers = s.workers)
    (resumes : t.resumes = s.resumes) (aborted : t.abortedUploadItemIds = s.abortedUploadItemIds)
    (resuming : t.resumingItemIds = s.resumingItemIds) : Quiet t :=
  quiet.keep (fun _ member => same ▸ member) workers resumes aborted resuming

theorem update_lists : (updateItems f s).resumes = s.resumes ∧ (updateItems f s).abortedUploadItemIds = s.abortedUploadItemIds ∧
    (updateItems f s).resumingItemIds = s.resumingItemIds := by
  unfold updateItems
  split <;> exact ⟨rfl,rfl,rfl⟩

section
variable (quiet : Quiet s)
include quiet

theorem quiet_update (row : ∀ item ∈ rows s, RowQuiet s item → RowQuiet s (f item)) : Quiet (updateItems f s) := by
  obtain ⟨resumes,aborted,resuming⟩ := update_lists (f := f) (s := s)
  refine ⟨fun item member => ?_,resumes ▸ quiet.single⟩
  rw [rows_update] at member
  obtain ⟨old,inside,rfl⟩ := mem_map.mp member
  exact (row old inside (quiet.rows old inside)).congr update_workers resumes aborted resuming

theorem quiet_row (row : ∀ item ∈ rows s, item.id = id → RowQuiet s item → RowQuiet s (f item)) :
    Quiet (updateRow id f s) := by
  refine quiet_update quiet (fun item member ok => ?_)
  split
  · next named => exact row item member named ok
  · exact ok

theorem quiet_emit : Quiet (emitBatch s) := quiet.same rfl rfl rfl rfl rfl

theorem quiet_complete : Quiet (maybeCompleteBatch s) := by
  refine quiet.same rows_complete complete_keeps.1 ?_ ?_ ?_ <;> unfold maybeCompleteBatch <;> split <;> rfl

theorem quiet_idle : Quiet (maybeCompleteBatchWhenIdle s) := by
  unfold maybeCompleteBatchWhenIdle
  split
  · exact quiet
  · exact quiet_complete quiet

theorem quiet_pump : Quiet (pumpUploadQueue s) := by
  refine quiet.same rows_pump pump_workers ?_ ?_ ?_ <;> unfold pumpUploadQueue <;> split <;> rfl

theorem quiet_reopen : Quiet (reopen s) := by
  refine quiet.same reopen_keeps.1 reopen_keeps.2 ?_ ?_ ?_ <;> unfold reopen <;> split <;> rfl

end

theorem quiet_resume (once : ((rows s).map UploadItem.id).Nodup) (quiet : Quiet s) (member : item ∈ rows s)
    (status : item.status = .uploading) : Quiet (resumeUploadItemProcessing item s) := by
  unfold resumeUploadItemProcessing
  split
  · exact quiet
  · next fileId sent =>
    split
    · exact quiet
    · next unlisted =>
      have unpolled : ¬polling s.resumes item.id := fun busy => unlisted (((quiet.rows item member).asked busy).2 status)
      refine quiet_emit ⟨fun row inside => ?_,?_⟩
      · have ok := quiet.rows row inside
        by_cases same : row.id = item.id
        · cases inj_on_of_nodup_map once inside member same
          refine ⟨fun done => ?_,ok.served,ok.early,ok.sent,ok.queued,fun _ => ⟨?_,fun _ => ?_⟩,ok.first⟩
          · rw [status] at done; cases done
          · rw [sent]; exact (nomatch ·)
          · exact mem_append_right _ mem_cons_self
        · refine ok.mono (fun _ member _ => member) ?_ (fun marked => marked) (fun _ _ listed => mem_append_left _ listed)
          rintro ⟨new,new_,still,named⟩
          rcases mem_append.mp new_ with old | new_
          · exact ⟨new,old,still,named⟩
          · cases mem_singleton.mp new_
            exact absurd named.symm same
      · intro j k one two first second going goes same
        rcases Slots.append_cases first with ⟨rfl,rfl⟩ | first
        · rcases Slots.append_cases second with ⟨rfl,rfl⟩ | second
          · rfl
          · exact absurd ⟨two,mem_of_getElem? second,goes,same.symm⟩ unpolled
        · rcases Slots.append_cases second with ⟨rfl,rfl⟩ | second
          · exact absurd ⟨one,mem_of_getElem? first,going,same⟩ unpolled
          · exact quiet.single j k one two first second going goes same

theorem quiet_processing (once : ((rows s).map UploadItem.id).Nodup) (quiet : Quiet s) : Quiet (pumpProcessingQueue s) := by
  have row : ∀ (s : Manager) (item : UploadItem), ((rows s).map UploadItem.id).Nodup → Quiet s → item ∈ rows s →
      Quiet (pumpProcessingRow s item) := by
    intro s item once quiet member
    unfold pumpProcessingRow
    split
    · exact quiet
    · split
      · next wanted => exact quiet_resume once quiet member wanted.1
      · exact quiet
  have fold : ∀ (items : List UploadItem) (s : Manager), ((rows s).map UploadItem.id).Nodup → Quiet s →
      (∀ item ∈ items, item ∈ rows s) → Quiet (items.foldl pumpProcessingRow s) := by
    intro items
    induction items with
    | nil => exact fun _ _ quiet _ => quiet
    | cons item rest ih =>
      intro s once quiet from_
      have same : rows (pumpProcessingRow s item) = rows s := by rw [rows,rows,processingRow_batch]
      refine ih _ (same ▸ once) (row s item once quiet (from_ item mem_cons_self)) (fun other later => ?_)
      rw [same]
      exact from_ other (mem_cons_of_mem _ later)
  unfold pumpProcessingQueue
  split
  · exact fold _ s once quiet (fun _ member => member)
  · exact quiet

section
variable (quiet : Quiet s)
include quiet

theorem quiet_fewer {ws : List Worker} {settling : Nat}
    (fewer : ∀ worker ∈ ws, worker.phase ≠ .ended → worker ∈ s.workers) : Quiet { s with workers := ws, settling := settling } :=
  ⟨fun item member => (quiet.rows item member).mono fewer (fun busy => busy) (fun marked => marked) (fun _ _ listed => listed),quiet.single⟩

theorem quiet_end : Quiet (endWorker i worker s) := by
  refine quiet_fewer quiet (fun new member going => ?_)
  obtain ⟨k,present⟩ := mem_iff_getElem?.mp member
  rcases Slots.set_cases present with ⟨rfl,rfl⟩ | ⟨_,before⟩
  · exact absurd rfl going
  · exact mem_of_getElem? before

theorem quiet_abort : Quiet (abortUploadSession id s) := by
  refine quiet_fewer quiet (fun new member going => ?_)
  obtain ⟨old,before,rfl⟩ := mem_map.mp member
  split at going
  · exact absurd rfl going
  · next kept => rw [if_neg kept]; exact before

theorem quiet_set (found : s.workers[i]? = some worker) (soon : early worker = true) (other : Worker)
    (same : other.claimed.id = worker.claimed.id) (still : early other = true) :
    Quiet { s with workers := s.workers.set i other } := by
  have from_ : ∀ new ∈ s.workers.set i other, new = other ∨ new ∈ s.workers := by
    intro new member
    obtain ⟨k,present⟩ := mem_iff_getElem?.mp member
    rcases Slots.set_cases present with ⟨rfl,rfl⟩ | ⟨_,before⟩
    · exact .inl rfl
    · exact .inr (mem_of_getElem? before)
  have inside := mem_of_getElem? found
  refine ⟨fun item member => ?_,quiet.single⟩
  have ok := quiet.rows item member
  refine ⟨ok.polled,fun done new new_ named pledge => ?_,fun new new_ named soon' => ?_,fun new new_ named file phase => ?_,ok.queued,
    ok.asked,?_⟩
  · rcases from_ new new_ with rfl | old
    · cases phase : new.phase with
      | registered file => rw [early,phase] at still; cases still
      | _ => rw [pledges,phase] at pledge; cases pledge
    · exact ok.served done new old named pledge
  · rcases from_ new new_ with rfl | old
    · exact ok.early worker inside (same ▸ named) soon
    · exact ok.early new old named soon'
  · rcases from_ new new_ with rfl | old
    · rw [early,phase] at still; cases still
    · exact ok.sent new old named file phase
  · rintro reprocess ⟨new,new_,going,named⟩
    rcases from_ new new_ with rfl | old
    · exact ok.first reprocess ⟨worker,inside,early_going soon,same ▸ named⟩
    · exact ok.first reprocess ⟨new,old,going,named⟩

theorem quiet_registered (found : s.workers[i]? = some worker) (soon : early worker = true) (file : ServerFile)
    (sent : ∀ item ∈ rows s, item.id = worker.claimed.id → item.localFile = none) :
    Quiet (setPhase i worker (.registered file) s) := by
  have from_ : ∀ new ∈ (setPhase i worker (.registered file) s).workers,
      new = { worker with phase := .registered file } ∨ new ∈ s.workers := by
    intro new member
    obtain ⟨k,present⟩ := mem_iff_getElem?.mp member
    rcases Slots.set_cases present with ⟨rfl,rfl⟩ | ⟨_,before⟩
    · exact .inl rfl
    · exact .inr (mem_of_getElem? before)
  have inside := mem_of_getElem? found
  refine ⟨fun item member => ?_,quiet.single⟩
  have ok := quiet.rows item member
  refine ⟨ok.polled,fun done new new_ named pledge => ?_,fun new new_ named soon' => ?_,fun new new_ named file phase => ?_,ok.queued,
    ok.asked,?_⟩
  · rcases from_ new new_ with rfl | old
    · rw [(ok.early worker inside named soon).1] at done
      cases done
    · exact ok.served done new old named pledge
  · rcases from_ new new_ with rfl | old
    · cases soon'
    · exact ok.early new old named soon'
  · rcases from_ new new_ with rfl | old
    · exact sent item member named.symm
    · exact ok.sent new old named file phase
  · rintro reprocess ⟨new,new_,going,named⟩
    rcases from_ new new_ with rfl | old
    · exact ok.first reprocess ⟨worker,inside,early_going soon,named⟩
    · exact ok.first reprocess ⟨new,old,going,named⟩

end

theorem setPhase_update {phase : WorkerPhase} : setPhase i worker phase (updateItems f s) = updateItems f (setPhase i worker phase s) := by
  unfold setPhase updateItems
  split <;> rfl

theorem quiet_drop (quiet : Quiet s) : Quiet (updateRow id dropFile s) :=
  quiet_row quiet (fun _ _ _ ok => ⟨ok.polled,ok.served,ok.early,fun _ _ _ _ _ => rfl,ok.queued,ok.asked,ok.first⟩)

section
variable (sound : Sound s) (quiet : Quiet s)
include sound quiet

theorem quiet_release (busy : running s.workers id) : Quiet (releaseUploadByteSlot id s) := by
  unfold releaseUploadByteSlot
  split
  · exact quiet_processing (pump_sound (dropFile_sound sound busy)).once (quiet_pump (quiet_drop quiet))
  · exact quiet

theorem quiet_register (busy : running s.workers id)
    (late : ∀ worker ∈ s.workers, worker.claimed.id = id → early worker = false) (file : ServerFile) :
    Quiet (registerUploadServerFile id file s) := by
  refine quiet_row quiet ?_
  rintro item member rfl ok
  refine ⟨ok.polled,ok.served,fun worker inside named soon => ?_,ok.sent,fun queued => ?_,fun busy => ⟨?_,(ok.asked busy).2⟩,ok.first⟩
  · exact absurd ((late worker inside named).symm.trans soon) (by decide)
  · exact absurd queued (running_row sound member busy).1
  · exact (nomatch ·)

theorem quiet_answered (found : s.workers[i]? = some worker) (soon : early worker = true)
    (file : ServerFile) : Quiet (registerUploadServerFile worker.claimed.id file
      (releaseUploadByteSlot worker.claimed.id (setPhase i worker (.registered file) s))) := by
  have going := early_going soon
  have set_ := setPhase_sound sound found going (.registered file)
  have busy := set_running found (.registered file) (nomatch ·)
  have released : Quiet (releaseUploadByteSlot worker.claimed.id (setPhase i worker (.registered file) s)) := by
    unfold releaseUploadByteSlot
    split
    · refine quiet_processing (pump_sound (dropFile_sound set_ busy)).once (quiet_pump ?_)
      have dropped : Quiet (setPhase i worker (.registered file) (updateRow worker.claimed.id dropFile s)) := by
        refine quiet_registered (quiet_drop quiet) ?_ soon file (fun item member named => ?_)
        · rw [updateRow,update_workers]; exact found
        · rw [updateRow,rows_update] at member
          obtain ⟨old,_,rfl⟩ := mem_map.mp member
          split at named
          · next same => rw [if_pos same]; rfl
          · next other => exact absurd named other
      rw [updateRow,setPhase_update] at dropped
      exact dropped
    · next none_ =>
      refine quiet_registered quiet found soon file (fun item member named => ?_)
      by_contra held
      exact none_ ⟨item,named ▸ once_row set_.once member,held⟩
  refine quiet_register (release_sound set_ busy) released (by rw [release_workers]; exact busy) (fun new member named => ?_) file
  rw [release_workers] at member
  obtain ⟨k,present⟩ := mem_iff_getElem?.mp member
  rcases Slots.set_cases present with ⟨rfl,rfl⟩ | ⟨ne,before⟩
  · rfl
  · refine Bool.eq_false_iff.mpr (fun soon' => ne ?_)
    exact sound.workers.single k i new worker before found (early_going soon') going named

theorem quiet_last (found : s.workers[i]? = some worker) (going : worker.phase ≠ .ended)
    (unpolled : ¬polling s.resumes worker.claimed.id) (same : ∀ item, (f item).id = item.id)
    (status : ∀ item, (f item).status ≠ .queued) : Quiet (endWorker i worker (updateRow worker.claimed.id f s)) := by
  rw [updateRow,endWorker_update]
  refine quiet_row (quiet_end quiet) (fun item _ named _ => ?_)
  refine .idle ?_ ?_ (fun queued => absurd queued (status item))
  · rw [same,named]; exact ended_idle sound found going
  · rw [same,named]; exact unpolled

end

theorem unpolled_early (quiet : Quiet s) (member : item ∈ rows s) (found : s.workers[i]? = some worker) (soon : early worker = true)
    (named : item.id = worker.claimed.id) : ¬polling s.resumes worker.claimed.id := by
  have ok := quiet.rows item member
  have sent := (ok.early worker (mem_of_getElem? found) named.symm soon).2
  exact fun busy => (ok.asked (named ▸ busy)).1 sent

theorem quiet_fail (sound : Sound s) (quiet : Quiet s) (found : s.workers[i]? = some worker) (soon : early worker = true)
    (error : Option ApiError) : Quiet (failAttempt i worker error s) := by
  unfold failAttempt
  dsimp only
  split
  · have paused : Quiet (if rateLimited error then pauseUploadPumpFor (retryAfterMs error (worker.retryAttempt + 1)) s else s) := by
      split
      · exact quiet.same rfl rfl rfl rfl rfl
      · exact quiet
    have same : (if rateLimited error then pauseUploadPumpFor (retryAfterMs error (worker.retryAttempt + 1)) s else s).workers =
        s.workers := by split <;> rfl
    generalize (if rateLimited error then pauseUploadPumpFor (retryAfterMs error (worker.retryAttempt + 1)) s else s) = p at paused same ⊢
    rw [← same] at found
    have written : Quiet (updateRow worker.claimed.id claim p) := by
      refine quiet_row paused (fun item member named ok => ?_)
      have status := (ok.early worker (mem_of_getElem? found) named.symm soon).1
      rw [show claim item = item by rw [claim,← status]]
      exact ok
    have kept : (updateRow worker.claimed.id claim p).workers[i]? = some worker := by
      rw [updateRow,update_workers]
      exact found
    exact quiet_set written kept soon _ rfl rfl
  · by_cases row : ∃ item ∈ rows s, item.id = worker.claimed.id
    · obtain ⟨item,member,named⟩ := row
      refine quiet_last sound quiet found (early_going soon) (unpolled_early quiet member found soon named) (fun _ => rfl) (fun item => ?_)
      split <;> exact fun now => by cases now
    · rw [updateRow,endWorker_update]
      exact quiet_row (quiet_end quiet) (fun item member named _ => absurd ⟨item,member,named⟩ row)

theorem release_nothing (quiet : Quiet s) (found : s.workers[i]? = some worker) (phase : worker.phase = .registered file) :
    releaseUploadByteSlot worker.claimed.id s = s := by
  unfold releaseUploadByteSlot
  rw [if_neg]
  rintro ⟨item,present,held⟩
  obtain ⟨member,named⟩ := row_some present
  exact held ((quiet.rows item member).sent worker (mem_of_getElem? found) named.symm file phase)

theorem quiet_finish (sound : Sound s) (quiet : Quiet s) (found : s.workers[i]? = some worker)
    (phase : worker.phase = .registered file) (unpolled : pledges worker = true → ¬polling s.resumes worker.claimed.id) :
    Quiet (finishAttempt i worker file s) := by
  have going : worker.phase ≠ .ended := by rw [phase]; exact (nomatch ·)
  rw [finishAttempt,release_nothing quiet found phase]
  split
  · exact quiet_end (quiet_processing sound.once quiet)
  · next ready =>
    refine quiet_last sound quiet found going (unpolled ?_) (fun _ => rfl) (fun _ => (nomatch ·))
    rw [pledges,phase]
    exact Bool.not_eq_true' _ ▸ Bool.eq_false_iff.mpr ready

theorem quiet_retry (quiet : Quiet s) (found : s.workers[i]? = some worker) {wake : Nat} (phase : worker.phase = .backoff wake) :
    Quiet (retryAttempt i worker s) := by
  unfold retryAttempt
  split
  · exact quiet_end quiet
  · exact quiet_set quiet found (by rw [early,phase]) _ rfl rfl

theorem worker_quiet (sound : Sound s) (quiet : Quiet s) (found : s.workers[i]? = some worker)
    (worked : Worked i worker s event next) (unpolled : event = .result → pledges worker = true → ¬polling s.resumes worker.claimed.id) :
    Quiet next := by
  cases worked with
  | started phase =>
    refine quiet_set quiet found (by rw [early,phase]) _ rfl ?_
    split <;> rfl
  | retried phase => exact quiet_retry quiet found phase
  | token phase => exact quiet_set quiet found (by rw [early,phase]) _ rfl rfl
  | session _ session =>
    exact quiet_row quiet (fun _ _ _ ok => ⟨ok.polled,ok.served,ok.early,ok.sent,ok.queued,ok.asked,ok.first⟩)
  | sent phase =>
    have going : worker.phase ≠ .ended := by rw [phase]; exact (nomatch ·)
    exact quiet_release (setPhase_sound sound found going .sent) (quiet_set quiet found (by rw [early,phase]) _ rfl rfl)
      (set_running found .sent (nomatch ·))
  | answered phase file =>
    refine quiet_answered sound quiet found ?_ file
    rcases phase with phase | phase <;> rw [early,phase]
  | finished phase => exact quiet_finish sound quiet found phase (unpolled rfl)
  | failed phase error =>
    refine quiet_fail sound quiet found ?_ error
    rcases phase with phase | phase | phase <;> rw [early,phase]

section
variable (quiet : Quiet s) (found : s.resumes[j]? = some resume) (going : resume.phase ≠ .ended)
include quiet found going

theorem setResume_quiet (phase : ResumePhase) :
    Quiet (setResume j resume phase s) := by
  have keep : ∀ (k : Nat) (new : Resume), (s.resumes.set j { resume with phase })[k]? = some new → ∃ old, s.resumes[k]? = some old ∧
      old.uploadId = new.uploadId ∧ (new.phase ≠ .ended → old.phase ≠ .ended) := by
    intro k new present
    rcases Slots.set_cases present with ⟨rfl,rfl⟩ | ⟨_,before⟩
    · exact ⟨resume,found,rfl,fun _ => going⟩
    · exact ⟨new,before,rfl,fun still => still⟩
  refine ⟨fun item member => (quiet.rows item member).mono (fun _ member _ => member) ?_ (fun marked => marked) (fun _ _ listed => listed),?_⟩
  · rintro ⟨new,inside,still,named⟩
    obtain ⟨k,present⟩ := mem_iff_getElem?.mp inside
    obtain ⟨old,before,same,went⟩ := keep k new present
    exact ⟨old,mem_of_getElem? before,went still,same.trans named⟩
  · intro k l one two first second going goes same
    obtain ⟨old,before,named,went⟩ := keep k one first
    obtain ⟨older,earlier,called,gone⟩ := keep l two second
    exact quiet.single k l old older before earlier (went going) (gone goes) (named.trans (same.trans called.symm))

theorem unpolled_end :
    ¬polling (setResume j resume .ended s).resumes resume.uploadId := by
  rintro ⟨new,inside,still,named⟩
  obtain ⟨k,present⟩ := mem_iff_getElem?.mp inside
  rcases Slots.set_cases present with ⟨rfl,rfl⟩ | ⟨ne,before⟩
  · exact still rfl
  · exact ne (quiet.single k j new resume before found still going named)

end

theorem quiet_unlist (quiet : Quiet s) (unasked : ∀ item ∈ rows s, item.id = id → polling s.resumes id → item.status ≠ .uploading) :
    Quiet { s with resumingItemIds := removeId id s.resumingItemIds } := by
  refine ⟨fun item member => ?_,quiet.single⟩
  refine (quiet.rows item member).mono (fun _ member _ => member) (fun busy => busy) (fun marked => marked) (fun busy status listed => ?_)
  refine mem_filter.mpr ⟨listed,decide_eq_true ?_⟩
  rintro rfl
  exact unasked item member rfl busy status

theorem finishResume_quiet (sound : Sound s) (quiet : Quiet s) (found : s.resumes[j]? = some resume) (going : resume.phase ≠ .ended)
    {status : UploadItemStatus} (terminal : isTerminalStatus status = true)
    (unpledged : status = .cancelled → ¬pledged s.workers resume.uploadId) : Quiet (finishResume j resume status s) := by
  have once := (finishResume_sound sound found going terminal).once
  have busy : polling s.resumes resume.uploadId := ⟨resume,mem_of_getElem? found,going,rfl⟩
  have unpolled := unpolled_end quiet found going
  have written : Quiet (updateRow resume.uploadId (fun item =>
      { item with status, uploadedFileId := if status = .done then some resume.fileId else item.uploadedFileId })
      (setResume j resume .ended s)) := by
    refine quiet_row (setResume_quiet quiet found going .ended) (fun item member named ok => ?_)
    have asked := (quiet.rows item member).asked (named.symm ▸ busy)
    refine ⟨fun _ still => ?_,fun done worker inside same pledge => ?_,fun worker inside same soon => ?_,ok.sent,fun queued => ?_,
      fun still => ?_,ok.first⟩
    · exact absurd (named ▸ still) unpolled
    · cases status with
      | done => rfl
      | cancelled => exact absurd ⟨worker,inside,same.trans named,pledge⟩ (unpledged rfl)
      | _ => cases done
    · exact absurd (ok.early worker inside same soon).2 asked.1
    · rw [show status = .queued from queued] at terminal
      cases terminal
    · exact absurd (named ▸ still) unpolled
  unfold finishResume at once ⊢
  rw [rows_complete,rows_processing] at once
  refine quiet_complete (quiet_processing once (quiet_emit (quiet_unlist written (fun _ _ _ still => ?_))))
  rw [updateRow,update_lists.1] at still
  exact absurd still unpolled

theorem removed_mem (member : k ∈ ids) (other : k ≠ id) : k ∈ removeId id ids :=
  mem_filter.mpr ⟨member,decide_eq_true other⟩

theorem remove_quiet (quiet : Quiet s) : Quiet (removeItemFromActiveBatch id s) := by
  unfold removeItemFromActiveBatch
  split
  · exact quiet
  · next batch some_ =>
    refine quiet_pump (quiet_emit (quiet_complete ⟨fun item member => ?_,quiet.single⟩))
    have kept : item ∈ (rows s).filter (fun item => decide (item.id ≠ id)) := keep_rows some_ _ ▸ member
    obtain ⟨inside,other⟩ := mem_filter.mp kept
    exact (quiet.rows item inside).mono (fun _ member _ => member) (fun busy => busy)
      (fun marked => removed_mem marked (of_decide_eq_true other)) (fun _ _ listed => listed)

theorem RowQuiet.cancelled (ok : RowQuiet s item) (reprocess : item.isReprocess = true) (workers : t.workers = s.workers)
    (resumes : t.resumes = s.resumes) (marked : item.id ∈ t.abortedUploadItemIds) : RowQuiet t { item with status := .cancelled } where
  polled _ _ := ⟨rfl,marked⟩
  served _ worker member same pledge := absurd ⟨worker,workers ▸ member,pledges_going pledge,same⟩ (ok.first reprocess)
  early worker member same soon := absurd ⟨worker,workers ▸ member,early_going soon,same⟩ (ok.first reprocess)
  sent worker member := ok.sent worker (workers ▸ member)
  queued queued := nomatch queued
  asked busy := ⟨(ok.asked (resumes ▸ busy)).1,fun uploading => nomatch uploading⟩
  first _ := workers ▸ ok.first reprocess

theorem insert_self : id ∈ insertId id ids := by
  unfold insertId
  split
  · assumption
  · exact mem_append_right _ mem_cons_self

theorem insert_old (member : k ∈ ids) : k ∈ insertId id ids := by
  unfold insertId
  split
  · exact member
  · exact mem_append_left _ member

theorem cancel_quiet (sound : Sound s) (quiet : Quiet s) : Quiet (cancelUploadItem id s) := by
  have once : ((rows (cancelUploadItem id s)).map UploadItem.id).Nodup := (cancel_sound sound).once
  unfold cancelUploadItem at once ⊢
  split
  · exact quiet
  · next item found =>
    rw [found] at once
    dsimp only at once
    split
    · exact quiet
    · next kept =>
      rw [if_neg kept] at once
      dsimp only
      obtain ⟨member,named⟩ := row_some found
      have marked : Quiet { s with abortedUploadItemIds := insertId id s.abortedUploadItemIds } :=
        ⟨fun item member => (quiet.rows item member).mono (fun _ member _ => member) (fun busy => busy) insert_old (fun _ _ listed => listed),
          quiet.single⟩
      split
      · next reprocess =>
        rw [if_pos reprocess,rows_processing] at once
        have written : Quiet (updateRow id (fun item => { item with status := .cancelled })
            { s with abortedUploadItemIds := insertId id s.abortedUploadItemIds }) := by
          refine quiet_row marked (fun other inside same ok => ?_)
          cases inj_on_of_nodup_map sound.once inside member (same.trans named.symm)
          exact ok.cancelled reprocess rfl rfl (named ▸ insert_self)
        refine quiet_processing once (quiet_complete (quiet_unlist written (fun row inside same _ => ?_)))
        rw [updateRow,rows_update] at inside
        obtain ⟨old,_,rfl⟩ := mem_map.mp inside
        split
        · exact fun now => by cases now
        · next other => rw [if_neg other] at same; exact absurd same other
      · refine remove_quiet ?_
        split
        · exact quiet_abort marked
        · exact marked

theorem inserted_mem (pending ids : List Nat) : (∀ k ∈ ids, k ∈ pending.foldl (fun ids id => insertId id ids) ids) ∧
    ∀ k ∈ pending, k ∈ pending.foldl (fun ids id => insertId id ids) ids := by
  induction pending generalizing ids with
  | nil => exact ⟨fun _ member => member,fun _ member => nomatch member⟩
  | cons id rest ih =>
    obtain ⟨old,new⟩ := ih (insertId id ids)
    refine ⟨fun k member => old k (insert_old member),fun k member => ?_⟩
    rcases mem_cons.mp member with rfl | later
    · exact old k insert_self
    · exact new k later

theorem cancelAll_quiet (sound : Sound s) (quiet : Quiet s) : Quiet (cancelAllPendingHlsReprocess s) := by
  unfold cancelAllPendingHlsReprocess
  obtain ⟨old,new⟩ := inserted_mem (((rows s).filter pendingReprocess).map UploadItem.id) s.abortedUploadItemIds
  refine quiet_complete (quiet.revise update_lists.1 (fun item member => ?_))
  rw [rows_update] at member
  obtain ⟨row,inside,rfl⟩ := mem_map.mp (show item ∈ (rows s).map _ from member)
  have ok := quiet.rows row inside
  split
  · next pending =>
    refine ok.cancelled (Bool.and_eq_true_iff.mp pending).1 update_workers update_lists.1 ?_
    rw [update_lists.2.1]
    exact new row.id (mem_map.mpr ⟨row,mem_filter.mpr ⟨inside,pending⟩,rfl⟩)
  · next stays =>
    refine ok.mono (fun worker member _ => ?_) (fun busy => ?_) (fun marked => ?_) (fun _ _ listed => ?_)
    · rw [update_workers] at member; exact member
    · rw [update_lists.1] at busy; exact busy
    · rw [update_lists.2.1]; exact old row.id marked
    · rw [update_lists.2.2]
      refine mem_filter.mpr ⟨listed,decide_eq_true (fun pending => ?_)⟩
      obtain ⟨other,chosen,same⟩ := mem_map.mp pending
      obtain ⟨here,pending⟩ := mem_filter.mp chosen
      cases inj_on_of_nodup_map sound.once here inside same
      exact stays pending

section
variable (quiet : Quiet s)
include quiet

theorem clear_quiet : Quiet (clearCancelledHlsReprocessItems s) := by
  unfold clearCancelledHlsReprocessItems
  split
  · exact quiet
  · next batch some_ =>
    refine quiet_emit (quiet_complete (quiet.keep (fun item member => ?_) rfl rfl rfl rfl))
    have kept : item ∈ (rows s).filter (fun item => !(item.isReprocess && decide (item.status = .cancelled))) := keep_rows some_ _ ▸ member
    exact (mem_filter.mp kept).1

theorem removeItem_quiet : Quiet (removeUploadBatchItem id s) := by
  unfold removeUploadBatchItem
  split
  · exact remove_quiet quiet
  · exact quiet

theorem itemPaused_quiet (paused : Bool) : Quiet (setUploadItemPaused id paused s) := by
  have written : Quiet (updateItems (fun item => if item.id = id ∧ item.status = .queued then { item with paused } else item) s) := by
    refine quiet_update quiet (fun item _ ok => ?_)
    split
    · exact ⟨ok.polled,ok.served,ok.early,ok.sent,ok.queued,ok.asked,ok.first⟩
    · exact ok
  unfold setUploadItemPaused
  dsimp only
  split
  · exact written
  · exact quiet_pump written

theorem batchPaused_quiet (paused : Bool) : Quiet (setUploadBatchPaused paused s) := by
  have set_ : Quiet { s with userUploadPaused := paused } := quiet.same rfl rfl rfl rfl rfl
  unfold setUploadBatchPaused
  refine quiet_emit ?_
  split
  · exact set_
  · exact quiet_pump set_

theorem dismiss_quiet : Quiet (dismissUploadBatch s) := by
  unfold dismissUploadBatch
  split
  · exact quiet
  · exact ⟨fun _ member => (nomatch member),quiet.single⟩

end

theorem retry_quiet (sound : Sound s) (quiet : Quiet s) : Quiet (retryUploadItem id s) := by
  unfold retryUploadItem
  split
  · next wanted =>
    obtain ⟨item,found,ended,file,_⟩ := wanted
    obtain ⟨member,named⟩ := row_some found
    refine quiet_pump (quiet_reopen (quiet.revise update_lists.1 (fun row inside => ?_)))
    rw [updateRow,rows_update] at inside
    obtain ⟨old,before,rfl⟩ := mem_map.mp inside
    split
    · next same =>
      cases inj_on_of_nodup_map sound.once before member (same.trans named.symm)
      refine .idle ?_ ?_ (fun _ => rfl)
      · rw [updateRow,update_workers]
        intro busy
        rcases ended with ended | ended <;> exact absurd (((sound.rowOk member).held file busy).symm.trans ended) (fun now => by cases now)
      · rw [updateRow,update_lists.1]
        exact fun busy => file ((sound.rowOk member).polled busy)
    · next other =>
      refine (quiet.rows old before).mono (fun worker member _ => ?_) (fun busy => ?_) (fun marked => ?_) (fun _ _ listed => ?_)
      · rw [updateRow,update_workers] at member; exact member
      · rw [updateRow,update_lists.1] at busy; exact busy
      · rw [updateRow,update_lists.2.1]; exact removed_mem marked other
      · rw [updateRow,update_lists.2.2]; exact listed
  · exact quiet

theorem reattach_quiet (sound : Sound s) (quiet : Quiet s) (file : LocalFile) : Quiet (reattachUploadFile id file s) := by
  unfold reattachUploadFile
  split
  · next wanted =>
    obtain ⟨item,found,can⟩ := wanted
    obtain ⟨member,named⟩ := row_some found
    refine quiet_pump (quiet_reopen (quiet_row quiet (fun other inside same _ => ?_)))
    cases inj_on_of_nodup_map sound.once inside member (same.trans named.symm)
    obtain ⟨_,_,idle,unpolled⟩ := (sound.rowOk member).reselect can.1
    exact .idle idle unpolled (fun queued => nomatch queued)
  · exact quiet

theorem pump_lists : (pumpUploadQueue s).resumes = s.resumes ∧ (pumpUploadQueue s).abortedUploadItemIds = s.abortedUploadItemIds ∧
    (pumpUploadQueue s).resumingItemIds = s.resumingItemIds := by
  unfold pumpUploadQueue
  split <;> exact ⟨rfl,rfl,rfl⟩

theorem startBatch_lists (entries : List UploadBatchEntry) (folder : Option Nat) :
    (startUploadBatch entries folder s).resumes = s.resumes ∧
    (startUploadBatch entries folder s).abortedUploadItemIds = s.abortedUploadItemIds ∧
    (startUploadBatch entries folder s).resumingItemIds = s.resumingItemIds := by
  unfold startUploadBatch
  split
  · exact ⟨rfl,rfl,rfl⟩
  · dsimp only
    split <;> exact pump_lists

theorem queued_unsent {folder : Option Nat} {entries : List UploadBatchEntry} {created : Nat}
    (member : item ∈ queuedItemsFromEntries folder created entries) : item.uploadedFileId = none := by
  induction entries generalizing created with
  | nil => cases member
  | cons entry rest ih =>
    rcases mem_cons.mp member with rfl | later
    · rfl
    · exact ih later

theorem startBatch_quiet (sound : Sound s) (quiet : Quiet s) (entries : List UploadBatchEntry) (folder : Option Nat) :
    Quiet (startUploadBatch entries folder s) := by
  by_cases none_ : entries = []
  · rw [startUploadBatch,if_pos none_]
    exact quiet
  · obtain ⟨t,same,_,workers,_,_,_,from_,_⟩ := startBatch_queued sound none_ folder
    obtain ⟨resumes,aborted,resuming⟩ := startBatch_lists (s := s) entries folder
    refine quiet.grow sound.toLive (fun item member => ?_) (by rw [same,pump_workers,workers]) resumes aborted resuming
    rw [same,rows_pump] at member
    refine (from_ item member).imp (fun old => old) (fun new => ⟨?_,fun _ => queued_unsent new⟩)
    exact ((ids_once (queued_ids folder entries s.created)).2 item new).1

theorem track_quiet (sound : Sound s) (quiet : Quiet s) (files : List TrackedFile) : Quiet (trackFiles files s) := by
  have file_ : ∀ (s : Manager) (file : TrackedFile), Live s → Quiet s → Quiet (trackFile s file) := by
    intro s file live quiet
    refine quiet.grow live (fun item member => ?_) ?_ ?_ ?_ ?_
    · refine (trackFile_rows member).imp (fun old => old) (fun new => ⟨Nat.le_of_eq new.1.symm,fun queued => ?_⟩)
      exact absurd (new.2.symm.trans queued) (nomatch ·)
    all_goals unfold trackFile; split <;> rfl
  have fold : ∀ (files : List TrackedFile) (s : Manager), Live s → Quiet s →
      Live (files.foldl trackFile s) ∧ Quiet (files.foldl trackFile s) := by
    intro files
    induction files with
    | nil => exact fun _ live quiet => ⟨live,quiet⟩
    | cons file rest ih => exact fun s live quiet => ih _ (trackFile_live live file) (file_ s file live quiet)
  have active : Quiet (ensureUploadingBatch s) := by
    unfold ensureUploadingBatch
    split
    · exact quiet
    · exact quiet.same rfl rfl rfl rfl rfl
  unfold trackFiles
  split
  · exact quiet
  · dsimp only
    split
    · exact active
    · obtain ⟨live,tracked⟩ := fold files _ (ensure_sound sound).toLive active
      exact quiet_processing live.once (quiet_emit tracked)

theorem jobs_quiet (sound : Sound s) (quiet : Quiet s) (active : List TrackedFile) :
    Quiet (restoreFromActiveBackgroundJobs active s) := by
  unfold restoreFromActiveBackgroundJobs
  dsimp only
  split
  · exact quiet.same rfl rfl rfl rfl rfl
  · have ids := ids_once (tracked_ids active s.created)
    refine quiet_processing ids.1 (quiet_emit (quiet.grow sound.toLive (fun item member => .inr ⟨(ids.2 item member).1,fun queued => ?_⟩)
      rfl rfl rfl rfl))
    exact absurd ((tracked_items (show item ∈ trackedItems s.created active from member)).1.symm.trans queued) (nomatch ·)

theorem restored_quiet (workers : s.workers = []) (resumes : s.resumes = []) (unqueued : ∀ item ∈ rows s, item.status ≠ .queued) : Quiet s := by
  refine ⟨fun item member => .idle ?_ ?_ (fun queued => absurd queued (unqueued item member)),fun j k resume other present => ?_⟩
  · rw [workers]; exact no_running
  · rw [resumes]; exact no_polling
  · rw [resumes] at present; cases present

theorem restore_quiet (sound : Sound s) (quiet : Quiet s) : Quiet (restoreUploadBatchFromStorage s) := by
  unfold restoreUploadBatchFromStorage
  split
  · exact quiet
  · next unopened =>
    have none_ : s.batch = none := by
      by_contra some_
      exact unopened (.inl some_)
    dsimp only
    split
    · exact quiet.same rfl rfl rfl rfl rfl
    · next persisted kept =>
      obtain ⟨workers,resumes⟩ := batch_idle none_ sound kept
      have ok := sound.stored persisted kept
      split
      · exact quiet.same rfl rfl rfl rfl rfl
      · split
        · next complete =>
          refine quiet_emit (restored_quiet workers resumes (fun item member => ?_))
          obtain ⟨old,inside,rfl⟩ := mem_map.mp (show item ∈ persisted.items.map internalFromPersisted from member)
          exact ok.complete complete old inside
        · refine quiet_complete (quiet_processing ?_ (quiet_emit (restored_quiet workers resumes (fun item member => ?_))))
          · show ((persisted.items.map reconcileRestoredItem).map UploadItem.id).Nodup
            rw [map_map,show UploadItem.id ∘ reconcileRestoredItem = UploadItem.id from funext (fun _ => reconcile_id)]
            exact ok.once
          · obtain ⟨old,_,rfl⟩ := mem_map.mp (show item ∈ persisted.items.map reconcileRestoredItem from member)
            exact reconcile_unqueued

theorem settle_quiet (sound : Sound s) (quiet : Quiet s) : Quiet (settle s) :=
  quiet_idle (quiet_processing (pump_sound sound).once (quiet_pump quiet))

theorem quiet_upload (once : ((rows s).map UploadItem.id).Nodup) (quiet : Quiet s) (member : item ∈ rows s)
    (status : item.status = .uploading) (unsent : item.uploadedFileId = none) (first : item.isReprocess = false) :
    Quiet (uploadClaimedItem item s) := by
  unfold uploadClaimedItem
  split
  · exact quiet.same rfl rfl rfl rfl rfl
  · refine ⟨fun row inside => ?_,quiet.single⟩
    have ok := quiet.rows row inside
    refine ⟨ok.polled,fun done new new_ named pledge => ?_,fun new new_ named soon => ?_,fun new new_ named file phase => ?_,ok.queued,
      ok.asked,?_⟩
    · rcases mem_append.mp new_ with old | new_
      · exact ok.served done new old named pledge
      · cases mem_singleton.mp new_
        cases pledge
    · rcases mem_append.mp new_ with old | new_
      · exact ok.early new old named soon
      · cases mem_singleton.mp new_
        cases inj_on_of_nodup_map once inside member named.symm
        exact ⟨status,unsent⟩
    · rcases mem_append.mp new_ with old | new_
      · exact ok.sent new old named file phase
      · cases mem_singleton.mp new_
        cases phase
    · rintro reprocess ⟨new,new_,going,named⟩
      rcases mem_append.mp new_ with old | new_
      · exact ok.first reprocess ⟨new,old,going,named⟩
      · cases mem_singleton.mp new_
        cases inj_on_of_nodup_map once inside member named.symm
        exact absurd (first.symm.trans reprocess) (by decide)

theorem turn_quiet (sound : Sound s) (quiet : Quiet s) (taken : claimNextQueued s = some (item,t)) : Quiet (uploadClaimedItem item t) := by
  obtain ⟨sound',_,inside,status,file⟩ := turn_sound sound taken
  obtain ⟨queued,member,holds,rfl,rfl⟩ := claim_some sound.once taken
  have ok := quiet.rows queued member
  have waiting := (claimable_iff.mp holds).1
  have unsent := ok.queued waiting
  refine quiet_upload sound'.once (quiet_row quiet (fun row here named _ => ?_)) inside status unsent ?_
  · cases inj_on_of_nodup_map sound.once here member named
    exact .idle ((sound.rowOk member).waiting waiting).2 (fun busy => (ok.asked busy).1 unsent) (fun queued => nomatch queued)
  · refine Bool.eq_false_iff.mpr (fun reprocess => file ?_)
    exact (sound.rowOk member).reprocess reprocess

theorem claimLoop_quiet (slots fuel : Nat) : ∀ s, Sound s → Quiet s → Quiet (claimLoop slots fuel s) := by
  induction fuel with
  | zero => exact fun _ _ quiet => quiet
  | succ fuel ih =>
    intro s sound quiet
    unfold claimLoop
    split
    · split
      · exact quiet
      · next taken => exact ih _ (turn_sound sound taken).2.1 (turn_quiet sound quiet taken)
    · exact quiet

theorem pumpRun_quiet (sound : Sound s) (quiet : Quiet s) : Quiet (pumpRun s) := by
  unfold pumpRun
  split
  · exact claimLoop_quiet _ _ s sound quiet
  · exact quiet

theorem resume_ends {event : ResumeEvent} (fired : resumeStep j resume s event = some next) :
    (∃ phase, next = setResume j resume phase s) ∨ ∃ status, isTerminalStatus status = true ∧ next = finishResume j resume status s ∧
      (status = .cancelled → drops s resume event = true) ∧
      (status ≠ .cancelled → blind resume event = true ∨ ¬pollCancelled s resume.uploadId) := by
  cases event with
  | poll =>
    obtain ⟨_,same⟩ := Option.ite_none_right_eq_some.mp fired
    cases same
    split
    · next stop => exact .inr ⟨.cancelled,rfl,rfl,fun _ => decide_eq_true stop,fun ne => absurd rfl ne⟩
    · exact .inl ⟨_,rfl⟩
  | polled answer =>
    obtain ⟨_,same⟩ := Option.ite_none_right_eq_some.mp fired
    cases same
    cases answer with
    | none => exact .inr ⟨.error,rfl,rfl,(fun now => by cases now),fun _ => .inl rfl⟩
    | some ingest =>
      dsimp only
      split
      · next stop => exact .inr ⟨.cancelled,rfl,rfl,fun _ => decide_eq_true (.inl stop),fun ne => absurd rfl ne⟩
      · next wanted =>
        cases ingest with
        | failed => exact .inr ⟨.error,rfl,rfl,(fun now => by cases now),fun _ => .inr wanted⟩
        | cancelled => exact .inr ⟨.cancelled,rfl,rfl,fun _ => decide_eq_true (.inr rfl),fun ne => absurd rfl ne⟩
        | running => exact .inl ⟨_,rfl⟩
        | ready => exact .inl ⟨_,rfl⟩
  | emitted =>
    simp only [resumeStep] at fired
    split at fired
    · next phase => cases fired; exact .inr ⟨.done,rfl,rfl,(fun now => by cases now),fun _ => .inl (decide_eq_true phase)⟩
    · cases fired; exact .inl ⟨_,rfl⟩
    · cases fired

theorem step_quiet (sound : Sound w.manager) (quiet : Quiet w.manager) (orderly : Orderly w e)
    (fired : step w.manager e = some next) : Quiet next := by
  cases e with
  | tick ms => cases fired; exact quiet.same rfl rfl rfl rfl rfl
  | sample sample => cases fired; exact quiet.same rfl rfl rfl rfl rfl
  | startUploadBatch entries folder => cases fired; exact startBatch_quiet sound quiet entries folder
  | setUploadBatchPaused paused => cases fired; exact batchPaused_quiet quiet paused
  | setUploadItemPaused itemId paused => cases fired; exact itemPaused_quiet quiet paused
  | cancelUploadItem itemId => cases fired; exact cancel_quiet sound quiet
  | reprocessCancelled => cases fired; exact cancelAll_quiet sound quiet
  | clearCancelledHlsReprocessItems => cases fired; exact clear_quiet quiet
  | removeUploadBatchItem itemId => cases fired; exact removeItem_quiet quiet
  | dismissUploadBatch => cases fired; exact dismiss_quiet quiet
  | retryUploadItem itemId => cases fired; exact retry_quiet sound quiet
  | reattachUploadFile uploadId file => cases fired; exact reattach_quiet sound quiet file
  | trackFiles files => cases fired; exact track_quiet sound quiet files
  | reload => cases fired; exact restored_quiet rfl rfl (fun _ member => nomatch member)
  | restoreUploadBatchFromStorage => cases fired; exact restore_quiet sound quiet
  | jobsListed active =>
    obtain ⟨_,same⟩ := Option.ite_none_right_eq_some.mp fired
    cases same
    exact jobs_quiet sound quiet active
  | pump k =>
    simp only [step] at fired
    split at fired
    · obtain ⟨_,same⟩ := Option.ite_none_right_eq_some.mp fired
      cases same
      exact pumpRun_quiet (sound.congr rfl rfl rfl rfl rfl) (quiet.same rfl rfl rfl rfl rfl)
    · cases fired
  | settled =>
    obtain ⟨_,same⟩ := Option.ite_none_right_eq_some.mp fired
    cases same
    exact settle_quiet (sound.congr rfl rfl rfl rfl rfl) (quiet.same rfl rfl rfl rfl rfl)
  | worker i event =>
    obtain ⟨worker,found,fired⟩ := Option.bind_eq_some_iff.mp fired
    exact worker_quiet sound quiet found (workerStep_worked fired) (orderly worker found).2
  | resume j event =>
    obtain ⟨resume,found,fired⟩ := Option.bind_eq_some_iff.mp fired
    have going := (resumeStep_resumed fired).going
    rcases resume_ends fired with ⟨phase,rfl⟩ | ⟨status,terminal,rfl,dropped,_⟩
    · exact setResume_quiet quiet found going phase
    · exact finishResume_quiet sound quiet found going terminal (fun cancelled => (orderly resume found).1 (dropped cancelled))

-- Rows that are done or cancelled stay so.
def Kept (s t : Manager) : Prop :=
  ∀ new ∈ rows t, ∃ old ∈ rows s, old.id = new.id ∧ (settled old.status = true → new.status = old.status)

theorem Kept.sub (fewer : ∀ item ∈ rows t, item ∈ rows s) : Kept s t := fun new member => ⟨new,fewer new member,rfl,fun _ => rfl⟩

theorem Kept.same (same : rows t = rows s) : Kept s t := .sub (fun _ member => same ▸ member)

theorem Kept.trans (first : Kept s t) (second : Kept t u) : Kept s u := by
  intro new member
  obtain ⟨middle,between,same,kept⟩ := second new member
  obtain ⟨old,before,same',kept'⟩ := first middle between
  refine ⟨old,before,same'.trans same,fun done => ?_⟩
  have first := kept' done
  exact (kept (first ▸ done)).trans first

theorem Kept.map (rows_ : rows t = (rows s).map f) (same : ∀ item, (f item).id = item.id)
    (kept : ∀ item ∈ rows s, settled item.status = true → (f item).status = item.status) : Kept s t := by
  intro new member
  rw [rows_] at member
  obtain ⟨old,inside,rfl⟩ := mem_map.mp member
  exact ⟨old,inside,(same old).symm,kept old inside⟩

theorem kept_row (same : ∀ item, (f item).id = item.id)
    (kept : ∀ item ∈ rows s, item.id = id → settled item.status = true → (f item).status = item.status) : Kept s (updateRow id f s) := by
  refine .map rows_update (fun item => ?_) (fun item member done => ?_)
  · split
    · exact same item
    · rfl
  · split
    · next named => exact kept item member named done
    · rfl

theorem kept_release : Kept s (releaseUploadByteSlot id s) := by
  unfold releaseUploadByteSlot
  split
  · refine Kept.trans (t := updateRow id dropFile s) (kept_row (fun _ => rfl) (fun _ _ _ _ => rfl)) (.same ?_)
    rw [rows_processing,rows_pump]
    rfl
  · exact .same rfl

theorem claimLoop_kept (slots fuel : Nat) : ∀ s, Sound s → Kept s (claimLoop slots fuel s) := by
  induction fuel with
  | zero => exact fun _ _ => .same rfl
  | succ fuel ih =>
    intro s sound
    unfold claimLoop
    split
    · split
      · exact .same rfl
      · next item t taken =>
        have claimed : Kept s t := by
          obtain ⟨queued,member,holds,_,rfl⟩ := claim_some sound.once taken
          refine kept_row (fun _ => rfl) (fun row inside named done => ?_)
          cases inj_on_of_nodup_map sound.once inside member named
          rw [(claimable_iff.mp holds).1] at done
          cases done
        have uploaded : Kept t (uploadClaimedItem item t) := by
          unfold uploadClaimedItem
          split <;> exact .same rfl
        exact claimed.trans (uploaded.trans (ih _ (turn_sound sound taken).2.1))
    · exact .same rfl

theorem worker_kept (quiet : Quiet s) (found : s.workers[i]? = some worker)
    (worked : Worked i worker s event next) : Kept s next := by
  have inside := mem_of_getElem? found
  cases worked with
  | started => exact .same rfl
  | retried =>
    unfold retryAttempt
    split <;> exact .same rfl
  | token => exact .same rfl
  | session _ session => exact kept_row (fun _ => rfl) (fun _ _ _ _ => rfl)
  | sent => exact Kept.trans (t := setPhase i worker .sent s) (.same rfl) kept_release
  | answered _ file =>
    have released : Kept s (releaseUploadByteSlot worker.claimed.id (setPhase i worker (.registered file) s)) :=
      Kept.trans (t := setPhase i worker (.registered file) s) (.same rfl) kept_release
    exact released.trans (kept_row (fun _ => rfl) (fun _ _ _ _ => rfl))
  | finished phase =>
    rw [finishAttempt,release_nothing quiet found phase]
    split
    · exact .same rows_processing
    · next ready =>
      have pledge : pledges worker = true := by
        rw [pledges,phase]
        exact Bool.not_eq_true' _ ▸ Bool.eq_false_iff.mpr ready
      refine Kept.trans (t := updateRow worker.claimed.id _ s) (kept_row ?_ (fun item member named done => ?_)) (.same rfl)
      · exact fun _ => rfl
      exact ((quiet.rows item member).served done worker inside named.symm pledge).symm
  | failed phase error =>
    have soon : early worker = true := by rcases phase with phase | phase | phase <;> rw [early,phase]
    have written : ∀ {f : UploadItem → UploadItem} {p : Manager}, rows p = rows s → (∀ item, (f item).id = item.id) →
        Kept p (updateRow worker.claimed.id f p) := by
      intro f p same ids
      refine kept_row ids (fun item member named done => ?_)
      rw [same] at member
      rw [((quiet.rows item member).early worker inside named.symm soon).1] at done
      cases done
    unfold failAttempt
    dsimp only
    split
    · have same : rows (if rateLimited error then pauseUploadPumpFor (retryAfterMs error (worker.retryAttempt + 1)) s else s) =
          rows s := by split <;> rfl
      exact (Kept.same same).trans ((written (f := claim) same (fun _ => rfl)).trans (.same rfl))
    · refine Kept.trans (t := updateRow worker.claimed.id _ s) ?_ (.same rfl)
      exact written rfl (fun _ => rfl)

theorem cancel_kept (sound : Sound s) : Kept s (cancelUploadItem id s) := by
  unfold cancelUploadItem
  split
  · exact .same rfl
  · next item found =>
    split
    · exact .same rfl
    · next kept =>
      dsimp only
      obtain ⟨member,named⟩ := row_some found
      split
      · refine Kept.trans (t := updateRow id (fun item => { item with status := .cancelled })
          { s with abortedUploadItemIds := insertId id s.abortedUploadItemIds }) ?_ (.same ?_)
        · refine kept_row (s := { s with abortedUploadItemIds := insertId id s.abortedUploadItemIds }) (fun _ => rfl)
            (fun row inside same done => ?_)
          cases inj_on_of_nodup_map sound.once inside member (same.trans named.symm)
          cases status : item.status with
          | done => exact absurd (.inr status) kept
          | cancelled => rfl
          | _ => rw [status] at done; cases done
        · rw [rows_processing,rows_complete]
          rfl
      · refine .sub (fun row inside => ?_)
        have before := (remove_rows inside).1
        split at before <;> exact before

theorem cancelAll_kept : Kept s (cancelAllPendingHlsReprocess s) := by
  unfold cancelAllPendingHlsReprocess
  refine .map (f := fun item => if pendingReprocess item then { item with status := .cancelled } else item) ?_ (fun item => ?_)
    (fun item _ done => ?_)
  · rw [rows_complete,rows_update]
    rfl
  · split <;> rfl
  · split
    · next pending =>
      rcases of_decide_eq_true (Bool.and_eq_true_iff.mp pending).2 with status | status <;> rw [status] at done <;> cases done
    · rfl

theorem itemPaused_kept (paused : Bool) : Kept s (setUploadItemPaused id paused s) := by
  have written : Kept s (updateItems (fun item => if item.id = id ∧ item.status = .queued then { item with paused } else item) s) := by
    refine .map rows_update (fun item => ?_) (fun item _ _ => ?_) <;> split <;> rfl
  unfold setUploadItemPaused
  dsimp only
  split
  · exact written
  · exact written.trans (.same rows_pump)

theorem clear_kept : Kept s (clearCancelledHlsReprocessItems s) := by
  unfold clearCancelledHlsReprocessItems
  split
  · exact .same rfl
  · next batch some_ =>
    refine .sub (fun item member => ?_)
    rw [rows_emit,rows_complete] at member
    have kept : item ∈ (rows s).filter (fun item => !(item.isReprocess && decide (item.status = .cancelled))) := keep_rows some_ _ ▸ member
    exact (mem_filter.mp kept).1

theorem batchPaused_kept (paused : Bool) : Kept s (setUploadBatchPaused paused s) := by
  unfold setUploadBatchPaused
  refine .same ?_
  rw [rows_emit]
  split
  · rfl
  · exact rows_pump

theorem removeItem_kept : Kept s (removeUploadBatchItem id s) := by
  unfold removeUploadBatchItem
  split
  · exact .sub (fun item member => (remove_rows member).1)
  · exact .same rfl

theorem dismiss_kept : Kept s (dismissUploadBatch s) := by
  unfold dismissUploadBatch
  split
  · exact .same rfl
  · exact .sub (fun item member => nomatch member)

theorem settle_kept : Kept s (settle s) := by
  refine .same ?_
  unfold settle maybeCompleteBatchWhenIdle
  split
  · rw [rows_processing,rows_pump]
  · rw [rows_complete,rows_processing,rows_pump]

theorem pumpRun_kept (sound : Sound s) : Kept s (pumpRun s) := by
  unfold pumpRun
  split
  · exact claimLoop_kept _ _ s sound
  · exact .same rfl

theorem resume_kept {event : ResumeEvent} (sound : Sound w.manager) (quiet : Quiet w.manager)
    (found : w.manager.resumes[j]? = some resume) (orderly : Orderly w (.resume j event))
    (fired : resumeStep j resume w.manager event = some next) : Kept w.manager next := by
  have going := (resumeStep_resumed fired).going
  rcases resume_ends fired with ⟨phase,rfl⟩ | ⟨status,_,rfl,_,looked⟩
  · exact .same rfl
  · refine Kept.trans (t := updateRow resume.uploadId (fun item =>
        { item with status, uploadedFileId := if status = .done then some resume.fileId else item.uploadedFileId })
        (setResume j resume .ended w.manager)) ?_ (.same ?_)
    · refine kept_row (s := setResume j resume .ended w.manager) (fun _ => rfl) (fun item member named done => ?_)
      have busy : polling w.manager.resumes item.id := ⟨resume,mem_of_getElem? found,going,named.symm⟩
      obtain ⟨cancelled,marked⟩ := (quiet.rows item member).polled done busy
      by_cases same : status = .cancelled
      · exact same.trans cancelled.symm
      · rcases looked same with unseen | unmarked
        · exact absurd cancelled ((orderly resume found).2 unseen item (named ▸ once_row sound.once member))
        · exact absurd (.inl (named ▸ marked)) unmarked
    · unfold finishResume
      rw [rows_complete,rows_processing]
      rfl

def Unmoved (t : Manager) (item : UploadItem) : Prop := ∀ new ∈ rows t, new.id = item.id → new.status = item.status

theorem Kept.unmoved (kept : Kept s t) (once : ((rows s).map UploadItem.id).Nodup) (member : item ∈ rows s)
    (done : settled item.status = true) : Unmoved t item := by
  intro new inside same
  obtain ⟨old,before,named,stays⟩ := kept new inside
  cases inj_on_of_nodup_map once before member (named.trans same)
  exact stays done

theorem unmoved_grown (sound : Live s) (grown : ∀ new ∈ rows t, new ∈ rows s ∨ s.created ≤ new.id) (member : item ∈ rows s) :
    Unmoved t item := by
  intro new inside same
  rcases grown new inside with old | fresh
  · cases inj_on_of_nodup_map sound.once old member same
    rfl
  · exact absurd (sound.fresh member) (Nat.not_lt.mpr (same ▸ fresh))

theorem unmoved_row (once : ((rows s).map UploadItem.id).Nodup) (rows_ : rows t = rows (updateRow id f s))
    (same : ∀ item, (f item).id = item.id) (member : item ∈ rows s) (other : id ≠ item.id) : Unmoved t item := by
  intro new inside named
  rw [rows_,updateRow,rows_update] at inside
  obtain ⟨old,before,rfl⟩ := mem_map.mp inside
  split at named
  · next here => exact absurd (here.symm.trans ((same old).symm.trans named)) other
  · next apart =>
    rw [if_neg apart]
    cases inj_on_of_nodup_map once before member named
    rfl

theorem track_rows (files : List TrackedFile) : ∀ new ∈ rows (trackFiles files s), new ∈ rows s ∨ s.created ≤ new.id := by
  have fold : ∀ (files : List TrackedFile) (s : Manager), ∀ new ∈ rows (files.foldl trackFile s), new ∈ rows s ∨ s.created ≤ new.id := by
    intro files
    induction files with
    | nil => exact fun _ _ member => .inl member
    | cons file rest ih =>
      intro s new member
      have more : s.created ≤ (trackFile s file).created := by
        unfold trackFile
        split
        · exact Nat.le_refl _
        · exact Nat.le_succ _
      rcases ih _ new member with old | fresh
      · exact (trackFile_rows old).imp (fun old => old) (fun new => Nat.le_of_eq new.1.symm)
      · exact .inr (Nat.le_trans more fresh)
  have active : rows (ensureUploadingBatch s) = rows s ∧ (ensureUploadingBatch s).created = s.created := by
    unfold ensureUploadingBatch
    split <;> exact ⟨rfl,rfl⟩
  intro new member
  unfold trackFiles at member
  split at member
  · exact .inl member
  · dsimp only at member
    split at member
    · exact .inl (active.1 ▸ member)
    · rw [rows_processing,rows_emit] at member
      rw [← active.1,← active.2]
      exact fold files _ new member

theorem step_unmoved (sound : Sound w.manager) (quiet : Quiet w.manager) (orderly : Orderly w e)
    (fired : step w.manager e = some next) (member : item ∈ rows w.manager) (done : settled item.status = true)
    (free : resumes item.id e = false) : Unmoved next item := by
  have once := sound.once
  cases e with
  | tick ms => cases fired; exact (Kept.same rfl).unmoved once member done
  | sample sample => cases fired; exact (Kept.same rfl).unmoved once member done
  | startUploadBatch entries folder =>
    cases fired
    by_cases none_ : entries = []
    · rw [startUploadBatch,if_pos none_]
      exact (Kept.same rfl).unmoved once member done
    · obtain ⟨t,same,_,_,_,_,_,from_,_⟩ := startBatch_queued sound none_ folder
      refine unmoved_grown sound.toLive (fun new inside => ?_) member
      rw [same,rows_pump] at inside
      refine (from_ new inside).imp (fun old => old) (fun fresh => ?_)
      exact ((ids_once (queued_ids folder entries _)).2 new fresh).1
  | setUploadBatchPaused paused => cases fired; exact (batchPaused_kept paused).unmoved once member done
  | setUploadItemPaused itemId paused => cases fired; exact (itemPaused_kept paused).unmoved once member done
  | cancelUploadItem itemId => cases fired; exact (cancel_kept sound).unmoved once member done
  | reprocessCancelled => cases fired; exact cancelAll_kept.unmoved once member done
  | clearCancelledHlsReprocessItems => cases fired; exact clear_kept.unmoved once member done
  | removeUploadBatchItem itemId => cases fired; exact removeItem_kept.unmoved once member done
  | dismissUploadBatch => cases fired; exact dismiss_kept.unmoved once member done
  | retryUploadItem itemId =>
    cases fired
    unfold retryUploadItem
    split
    · refine unmoved_row (s := { w.manager with abortedUploadItemIds := removeId itemId w.manager.abortedUploadItemIds })
        (f := requeue) once ?_ (fun _ => rfl) member (of_decide_eq_false free)
      rw [rows_pump,reopen_keeps.1]
      rfl
    · exact (Kept.same rfl).unmoved once member done
  | reattachUploadFile uploadId file =>
    cases fired
    unfold reattachUploadFile
    split
    · refine unmoved_row (f := fun item => { item with localFile := some file, status := .uploading, needsFileReselect := false })
        once ?_ (fun _ => rfl) member (of_decide_eq_false free)
      rw [rows_pump,reopen_keeps.1]
    · exact (Kept.same rfl).unmoved once member done
  | trackFiles files => cases fired; exact unmoved_grown sound.toLive (track_rows files) member
  | reload => cases fired; exact fun new inside => by cases inside
  | restoreUploadBatchFromStorage =>
    cases fired
    obtain ⟨batch,some_,_⟩ := rows_some member
    unfold restoreUploadBatchFromStorage
    rw [if_pos (.inl (by rw [some_]; exact fun now => by cases now))]
    exact (Kept.same rfl).unmoved once member done
  | jobsListed active =>
    obtain ⟨_,same⟩ := Option.ite_none_right_eq_some.mp fired
    cases same
    refine unmoved_grown sound.toLive (fun new inside => ?_) member
    unfold restoreFromActiveBackgroundJobs at inside
    dsimp only at inside
    split at inside
    · exact .inl inside
    · rw [rows_processing,rows_emit] at inside
      exact .inr ((ids_once (tracked_ids active _)).2 new inside).1
  | pump k =>
    simp only [step] at fired
    split at fired
    · obtain ⟨_,same⟩ := Option.ite_none_right_eq_some.mp fired
      cases same
      exact (pumpRun_kept (s := { w.manager with pumps := w.manager.pumps.eraseIdx k }) (sound.congr rfl rfl rfl rfl rfl)).unmoved
        once member done
    · cases fired
  | settled =>
    obtain ⟨_,same⟩ := Option.ite_none_right_eq_some.mp fired
    cases same
    exact (settle_kept (s := { w.manager with settling := w.manager.settling - 1 })).unmoved once member done
  | worker i event =>
    obtain ⟨worker,found,fired⟩ := Option.bind_eq_some_iff.mp fired
    exact (worker_kept quiet found (workerStep_worked fired)).unmoved once member done
  | resume j event =>
    obtain ⟨resume,found,fired⟩ := Option.bind_eq_some_iff.mp fired
    exact (resume_kept sound quiet found orderly fired).unmoved once member done

structure Watch (w : Watched) : Prop where
  sound : Sound w.manager
  quiet : Quiet w.manager
  gone : Gone w

theorem watch_stopped (watch : Watch w) (orderly : Orderly w e) : Stopped w e := by
  refine ⟨fun id call cancelled => ?_,fun next fired item member done free => step_unmoved watch.sound watch.quiet orderly fired member done free⟩
  cases e with
  | worker i event =>
    cases event with
    | wake =>
      rw [calls] at call
      split at call
      · cases call
      · next worker found =>
        split at call
        · next wake phase =>
          split at call
          · cases call
            have awake := watch.gone.awake worker (mem_of_getElem? found) cancelled
            rw [waits,phase] at awake
            cases awake
          · cases call
        · cases call
    | _ => cases call
  | _ => cases call

theorem watched_watch {w after : Watched} (watch : Watch w) (orderly : Orderly w e) (fired : watchedStep w e = some after) :
    Watch after := by
  obtain ⟨next,went,rfl⟩ := Option.map_eq_some_iff.mp fired
  exact ⟨step_sound watch.sound went,step_quiet watch.sound watch.quiet orderly went,watched_gone watch.sound watch.gone orderly fired⟩

theorem watchedStart_watch : Watch watchedStart where
  sound := start_sound
  quiet := restored_quiet rfl rfl (fun _ member => nomatch member)
  gone := ⟨fun _ member => (nomatch member),fun _ member => nomatch member⟩

-- In every orderly run a cancelled upload stays stopped, and a row that is done or
-- cancelled stays so.
theorem cancelled_stopped (events : List Event) (orderly : Schedule.Along watchedStep Orderly watchedStart events) :
    Schedule.Along watchedStep Stopped watchedStart events :=
  Schedule.along_under (motive := Watch) (fun _ _ watch now => watch_stopped watch now)
    (fun _ _ _ watch now fired => watched_watch watch now fired) watchedStart_watch orderly

def cancelledInTime : List Event := [.startUploadBatch [⟨note,none,none⟩,⟨note,none,none⟩] none,.pump 0,.worker 0 .wake,.worker 1 .wake,
  .worker 0 .csrfToken,.cancelUploadItem 0,.worker 1 .csrfToken,.worker 1 .bytesComplete,.worker 1 (.serverFile ⟨5,"note.txt",12,false⟩),
  .worker 1 .result,.settled,.settled]

theorem cancelled_stopped_inTime : Schedule.Along watchedStep Orderly watchedStart cancelledInTime ∧
    Schedule.Along watchedStep Stopped watchedStart cancelledInTime := by
  have orderly : Schedule.Along watchedStep Orderly watchedStart cancelledInTime := by decide +kernel
  exact ⟨orderly,cancelled_stopped cancelledInTime orderly⟩

def backedOff : List Event := [.startUploadBatch [⟨note,none,none⟩,⟨note,none,none⟩] none,.pump 0,.worker 0 .wake,.worker 0 .csrfToken,
  .worker 0 (.failure (some ⟨"network_error",0,none⟩)),.cancelUploadItem 0,.worker 0 .wake]

def heldBack : List Event := [.startUploadBatch [⟨note,none,none⟩] none,.pump 0,.cancelUploadItem 0]

def polledBeside : List Event := [.startUploadBatch [⟨note,none,none⟩,⟨note,none,none⟩] none,.pump 0,.worker 0 .wake,.worker 0 .csrfToken,
  .worker 0 .bytesComplete,.worker 0 (.serverFile ⟨5,"note.txt",12,false⟩),.worker 1 .wake,.worker 1 .csrfToken,.worker 1 .bytesComplete,
  .resume 0 .poll,.worker 0 .result]

def rebuildPolled : List Event := [.trackFiles [⟨5,"clip.mp4",9437184,true⟩],.resume 0 .poll,.cancelUploadItem 0]

theorem cancelled_restarted : (¬∀ events, Schedule.Along watchedStep Stopped watchedStart events) ∧
    (∃ reached, Schedule.run watchedStep watchedStart backedOff = some reached ∧
      ∃ id ∈ calls reached.manager (.worker 0 .wake), id ∈ reached.cancelled) ∧
    (∃ reached, Schedule.run watchedStep watchedStart heldBack = some reached ∧
      ∃ id ∈ calls reached.manager (.worker 0 .wake), id ∈ reached.cancelled) ∧
    (∃ reached, Schedule.run step start polledBeside = some reached ∧ (row? reached 0).map UploadItem.status = some .done ∧
      ((step reached (.resume 0 (.polled none))).bind (row? · 0)).map UploadItem.status = some .error) ∧
    ∃ reached, Schedule.run step start rebuildPolled = some reached ∧ (row? reached 0).map UploadItem.status = some .cancelled ∧
      ((step reached (.resume 0 (.polled none))).bind (row? · 0)).map UploadItem.status = some .error := by
  have again : ∃ reached, Schedule.run watchedStep watchedStart backedOff = some reached ∧
      ∃ id ∈ calls reached.manager (.worker 0 .wake), id ∈ reached.cancelled := Schedule.reached_of_any (by decide +kernel)
  refine ⟨fun all => ?_,again,Schedule.reached_of_any (by decide +kernel),Schedule.reached_of_any (by decide +kernel),
    Schedule.reached_of_any (by decide +kernel)⟩
  obtain ⟨reached,ran,id,call,cancelled⟩ := again
  exact ((all (backedOff ++ [.worker 0 .wake])).here ran).calls id call cancelled

end Ownly.Tray
