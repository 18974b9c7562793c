import Mathlib.Data.List.Nodup
import Ownly.Lib.Slots
import Ownly.Tray.Manager

namespace Ownly.Tray
open List

-- The row is with a run of `uploadClaimedItem`, or with one of `resumeUploadItemProcessing`.
def running (workers : List Worker) (id : Nat) : Prop := ∃ worker ∈ workers, worker.phase ≠ .ended ∧ worker.claimed.id = id

def polling (resumes : List Resume) (id : Nat) : Prop := ∃ resume ∈ resumes, resume.phase ≠ .ended ∧ resume.uploadId = id

structure RowOk (workers : List Worker) (resumes : List Resume) (item : UploadItem) : Prop where
  waiting : item.status = .queued → item.localFile ≠ none ∧ ¬running workers item.id
  reprocess : item.isReprocess = true → item.localFile = none
  polled : polling resumes item.id → item.localFile = none
  reselect : item.needsFileReselect = true → (item.status = .error ∨ item.status = .cancelled) ∧ item.isReprocess = false ∧
    ¬running workers item.id ∧ ¬polling resumes item.id
  held : item.localFile ≠ none → running workers item.id → item.status = .uploading

structure BatchOk (created : Nat) (workers : List Worker) (resumes : List Resume) (batch : UploadBatch) : Prop where
  once : (batch.items.map UploadItem.id).Nodup
  fresh : ∀ item ∈ batch.items, item.id < created
  rowOk : ∀ item ∈ batch.items, RowOk workers resumes item
  complete : batch.status = .complete → ∀ item ∈ batch.items, item.status ≠ .queued

structure StoredOk (created : Nat) (batch : UploadBatch) : Prop where
  once : (batch.items.map UploadItem.id).Nodup
  fresh : ∀ item ∈ batch.items, item.id < created
  complete : batch.status = .complete → ∀ item ∈ batch.items, item.status ≠ .queued
  reselect : ∀ item ∈ batch.items, item.needsFileReselect = true → item.status = .error ∨ item.status = .cancelled

structure WorkersOk (created : Nat) (workers : List Worker) : Prop where
  fresh : ∀ worker ∈ workers, worker.claimed.id < created
  single : ∀ (i j : Nat) (worker other : Worker), workers[i]? = some worker → workers[j]? = some other →
    worker.phase ≠ .ended → other.phase ≠ .ended → worker.claimed.id = other.claimed.id → i = j

structure Live (s : Manager) : Prop where
  batchOk : ∀ batch ∈ s.batch, BatchOk s.created s.workers s.resumes batch
  workers : WorkersOk s.created s.workers
  resumes : ∀ resume ∈ s.resumes, resume.uploadId < s.created

structure Sound (s : Manager) : Prop extends Live s where
  stored : ∀ batch ∈ s.stored, StoredOk s.created batch
  idle : s.batch = none → s.stored ≠ none → s.workers = [] ∧ s.resumes = []

variable {s t next : Manager} {batch : UploadBatch} {item : UploadItem} {items : List UploadItem} {f : UploadItem → UploadItem}
  {worker : Worker} {resume : Resume} {workers ws : List Worker} {resumes rs : List Resume} {id i j k created : Nat}
  {event : ResumeEvent} {entries : List UploadBatchEntry} {n : Nat}

theorem mem_rows (some_ : s.batch = some batch) : rows s = batch.items := by rw [rows,some_]

theorem rows_none (none_ : s.batch = none) : rows s = [] := by rw [rows,none_]

theorem rows_some (member : item ∈ rows s) : ∃ batch, s.batch = some batch ∧ item ∈ batch.items := by
  cases present : s.batch with
  | none => rw [rows_none present] at member; cases member
  | some batch => exact ⟨batch,rfl,by rwa [mem_rows present] at member⟩

theorem uploading_iff (some_ : s.batch = some batch) : uploading s ↔ batch.status = .uploading := by
  rw [uploading,some_]
  constructor
  · rintro ⟨other,member,status⟩
    cases member
    exact status
  · exact fun status => ⟨batch,rfl,status⟩

theorem uploading_with (batch : UploadBatch) : uploading { s with batch := some batch } ↔ batch.status = .uploading := uploading_iff rfl

theorem row_some (found : row? s id = some item) : item ∈ rows s ∧ item.id = id := by
  have named := find?_some found
  exact ⟨mem_of_find?_eq_some found,of_decide_eq_true named⟩

theorem row_none (absent : row? s id = none) (member : item ∈ rows s) : item.id ≠ id :=
  fun same => find?_eq_none.mp absent item member (decide_eq_true same)

theorem once_row (once : ((rows s).map UploadItem.id).Nodup) (member : item ∈ rows s) : row? s item.id = some item := by
  cases found : row? s item.id with
  | none => exact absurd rfl (row_none found member)
  | some other => exact congrArg some (inj_on_of_nodup_map once (row_some found).1 member (row_some found).2)

theorem Live.rowOk (sound : Live s) (member : item ∈ rows s) : RowOk s.workers s.resumes item := by
  obtain ⟨batch,some_,member⟩ := rows_some member
  exact (sound.batchOk batch some_).rowOk item member

theorem Live.once (sound : Live s) : ((rows s).map UploadItem.id).Nodup := by
  cases present : s.batch with
  | none => rw [rows_none present]; exact nodup_nil
  | some batch => rw [mem_rows present]; exact (sound.batchOk batch present).once

theorem Live.fresh (sound : Live s) (member : item ∈ rows s) : item.id < s.created := by
  obtain ⟨batch,some_,member⟩ := rows_some member
  exact (sound.batchOk batch some_).fresh item member

theorem Live.unqueued (sound : Live s) (complete : ¬uploading s) (member : item ∈ rows s) : item.status ≠ .queued := by
  obtain ⟨batch,some_,member⟩ := rows_some member
  refine (sound.batchOk batch some_).complete ?_ item member
  cases status : batch.status with
  | uploading => exact absurd ((uploading_iff some_).mpr status) complete
  | complete => rfl

theorem Sound.congr (sound : Sound s) (batch : t.batch = s.batch) (stored : t.stored = s.stored) (created : t.created = s.created)
    (workers : t.workers = s.workers) (resumes : t.resumes = s.resumes) : Sound t where
  batchOk := by rw [batch,created,workers,resumes]; exact sound.batchOk
  stored := by rw [stored,created]; exact sound.stored
  idle := by rw [batch,stored,workers,resumes]; exact sound.idle
  workers := by rw [created,workers]; exact sound.workers
  resumes := by rw [created,resumes]; exact sound.resumes

theorem RowOk.mono (ok : RowOk workers resumes item) (fewer : running ws item.id → running workers item.id)
    (less : polling rs item.id → polling resumes item.id) : RowOk ws rs item where
  waiting queued := ⟨(ok.waiting queued).1,fun still => (ok.waiting queued).2 (fewer still)⟩
  reprocess := ok.reprocess
  polled still := ok.polled (less still)
  reselect wanted := by
    obtain ⟨ended,first,unclaimed,unpolled⟩ := ok.reselect wanted
    exact ⟨ended,first,fun still => unclaimed (fewer still),fun still => unpolled (less still)⟩
  held file still := ok.held file (fewer still)

theorem BatchOk.snapshot (ok : BatchOk created workers resumes batch) :
    StoredOk created { batch with items := batch.items.map toItemSnapshot } where
  once := by
    dsimp only
    rw [map_map]
    exact ok.once
  fresh item member := by
    obtain ⟨original,inside,rfl⟩ := mem_map.mp member
    exact ok.fresh original inside
  complete status item member := by
    obtain ⟨original,inside,rfl⟩ := mem_map.mp member
    exact ok.complete status original inside
  reselect item member wanted := by
    obtain ⟨original,inside,rfl⟩ := mem_map.mp member
    exact ((ok.rowOk original inside).reselect wanted).1

theorem emit_sound (live : Live s) : Sound (emitBatch s) where
  toLive := ⟨live.batchOk,live.workers,live.resumes⟩
  stored batch member := by
    obtain ⟨original,some_,rfl⟩ := Option.map_eq_some_iff.mp (Option.mem_def.mp member)
    exact (live.batchOk original some_).snapshot
  idle none_ kept := by
    refine absurd ?_ kept
    rw [emitBatch]
    dsimp only
    rw [show s.batch = none from none_]
    rfl

theorem put_sound (live : Live s) (ok : BatchOk s.created s.workers s.resumes batch) :
    Sound (emitBatch { s with batch := some batch }) :=
  emit_sound ⟨fun other member => by cases member; exact ok,live.workers,live.resumes⟩

theorem updateItems_some (some_ : s.batch = some batch) :
    updateItems f s = emitBatch { s with batch := some { batch with items := batch.items.map f } } := by
  rw [updateItems,if_pos (by rw [some_]; rfl),setItems,some_,mem_rows some_]
  rfl

theorem updateItems_none (none_ : s.batch = none) : updateItems f s = s := by
  rw [updateItems,if_neg (by rw [none_]; decide)]

@[simp] theorem rows_emit : rows (emitBatch s) = rows s := rfl

@[simp] theorem uploading_emit : uploading (emitBatch s) ↔ uploading s := Iff.rfl

@[simp] theorem rows_update : rows (updateItems f s) = (rows s).map f := by
  cases present : s.batch with
  | none => rw [updateItems_none present,rows_none present]; rfl
  | some batch => rw [updateItems_some present,mem_rows present]; rfl

@[simp] theorem uploading_update : uploading (updateItems f s) ↔ uploading s := by
  cases present : s.batch with
  | none => rw [updateItems_none present]
  | some batch => rw [updateItems_some present,uploading_emit,uploading_iff present,uploading_with]

theorem BatchOk.revise (ok : BatchOk s.created s.workers s.resumes batch) (same : ∀ item, (f item).id = item.id)
    (rowOk : ∀ item ∈ batch.items, RowOk s.workers s.resumes (f item))
    (unqueued : ∀ item ∈ batch.items, (f item).status = .queued → item.status = .queued) :
    BatchOk s.created s.workers s.resumes { batch with items := batch.items.map f } where
  once := by
    dsimp only
    rw [map_map,show UploadItem.id ∘ f = UploadItem.id from funext same]
    exact ok.once
  fresh item member := by
    obtain ⟨original,inside,rfl⟩ := mem_map.mp member
    rw [same]
    exact ok.fresh original inside
  rowOk item member := by
    obtain ⟨original,inside,rfl⟩ := mem_map.mp member
    exact rowOk original inside
  complete status item member queued := by
    obtain ⟨original,inside,rfl⟩ := mem_map.mp member
    exact ok.complete status original inside (unqueued original inside queued)

theorem update_sound (sound : Sound s) (same : ∀ item, (f item).id = item.id)
    (rowOk : ∀ item ∈ rows s, RowOk s.workers s.resumes item → RowOk s.workers s.resumes (f item))
    (unqueued : ∀ item ∈ rows s, (f item).status = .queued → item.status = .queued) : Sound (updateItems f s) := by
  cases present : s.batch with
  | none => rw [updateItems_none present]; exact sound
  | some batch =>
    rw [mem_rows present] at rowOk unqueued
    have ok := sound.batchOk batch present
    rw [updateItems_some present]
    exact put_sound sound.toLive (ok.revise same (fun item member => rowOk item member (ok.rowOk item member)) unqueued)

theorem updateRow_sound (sound : Sound s) (same : ∀ item, (f item).id = item.id)
    (rowOk : ∀ item ∈ rows s, item.id = id → RowOk s.workers s.resumes item → RowOk s.workers s.resumes (f item))
    (unqueued : ∀ item ∈ rows s, item.id = id → (f item).status = .queued → item.status = .queued) : Sound (updateRow id f s) := by
  refine update_sound sound (fun item => ?_) (fun item member ok => ?_) (fun item member => ?_)
  · split
    · exact same item
    · rfl
  · split
    · next here => exact rowOk item member here ok
    · exact ok
  · split
    · next here => exact unqueued item member here
    · exact fun queued => queued

theorem completed_live (live : Live s) (ended : ∀ item ∈ rows s, isTerminalStatus item.status) :
    Live { s with batch := s.batch.map (fun batch => { batch with status := .complete }) } := by
  refine ⟨fun batch member => ?_,live.workers,live.resumes⟩
  obtain ⟨batch,some_,rfl⟩ := Option.map_eq_some_iff.mp (Option.mem_def.mp member)
  have ok := live.batchOk batch some_
  rw [mem_rows some_] at ended
  refine ⟨ok.once,ok.fresh,ok.rowOk,fun _ item member queued => ?_⟩
  have terminal := ended item member
  rw [queued] at terminal
  cases terminal

theorem complete_live (live : Live s) : Live (maybeCompleteBatch s) := by
  unfold maybeCompleteBatch
  split
  · next ended => exact (emit_sound (completed_live live ended.2)).toLive
  · exact live

section
variable (sound : Sound s)
include sound

theorem complete_sound : Sound (maybeCompleteBatch s) := by
  unfold maybeCompleteBatch
  split
  · next ended => exact emit_sound (completed_live sound.toLive ended.2)
  · exact sound

theorem idle_sound : Sound (maybeCompleteBatchWhenIdle s) := by
  unfold maybeCompleteBatchWhenIdle
  split
  · exact sound
  · exact complete_sound sound

theorem pump_sound : Sound (pumpUploadQueue s) := by
  unfold pumpUploadQueue
  split
  · exact sound.congr rfl rfl rfl rfl rfl
  · exact sound

theorem workers_sound (keep : ∀ (i : Nat) (worker : Worker), ws[i]? = some worker →
      ∃ old, s.workers[i]? = some old ∧ old.claimed.id = worker.claimed.id ∧ (worker.phase ≠ .ended → old.phase ≠ .ended)) :
    Sound { s with workers := ws } := by
  have fewer : ∀ id, running ws id → running s.workers id := by
    rintro id ⟨worker,member,going,rfl⟩
    obtain ⟨i,present⟩ := mem_iff_getElem?.mp member
    obtain ⟨old,before,same,went⟩ := keep i worker present
    exact ⟨old,mem_of_getElem? before,went going,same⟩
  refine ⟨⟨fun batch some_ => ?_,⟨?_,?_⟩,sound.resumes⟩,sound.stored,fun none_ kept => ?_⟩
  · have ok := sound.batchOk batch some_
    exact ⟨ok.once,ok.fresh,fun item member => (ok.rowOk item member).mono (fewer item.id) (fun still => still),ok.complete⟩
  · intro worker member
    obtain ⟨i,present⟩ := mem_iff_getElem?.mp member
    obtain ⟨old,before,same,_⟩ := keep i worker present
    rw [← same]
    exact sound.workers.fresh old (mem_of_getElem? before)
  · intro i j worker other one two going goes same
    obtain ⟨old,before,claimed,went⟩ := keep i worker one
    obtain ⟨older,earlier,claims,gone⟩ := keep j other two
    exact sound.workers.single i j old older before earlier (went going) (gone goes) (by rw [claimed,claims,same])
  · refine ⟨?_,(sound.idle none_ kept).2⟩
    refine eq_nil_iff_forall_not_mem.mpr (fun worker member => ?_)
    obtain ⟨i,present⟩ := mem_iff_getElem?.mp member
    obtain ⟨old,before,_⟩ := keep i worker present
    rw [(sound.idle none_ kept).1] at before
    cases before

section
variable (found : s.workers[i]? = some worker) (going : worker.phase ≠ .ended)
include found going

theorem set_sound (other : Worker)
    (same : other.claimed.id = worker.claimed.id) : Sound { s with workers := s.workers.set i other } := by
  refine workers_sound sound (fun j new present => ?_)
  rcases Slots.set_cases present with ⟨rfl,rfl⟩ | ⟨_,before⟩
  · exact ⟨worker,found,same.symm,fun _ => going⟩
  · exact ⟨new,before,rfl,fun still => still⟩

theorem setPhase_sound (phase : WorkerPhase) :
    Sound (setPhase i worker phase s) := set_sound sound found going _ rfl

theorem endWorker_sound :
    Sound (endWorker i worker s) :=
  (set_sound sound found going { worker with phase := .ended } rfl).congr rfl rfl rfl rfl rfl

end

theorem abort_sound : Sound (abortUploadSession id s) := by
  have kept : Sound { s with
      workers := s.workers.map (fun worker => if abortable id worker then { worker with phase := .ended } else worker) } := by
    refine workers_sound sound (fun i worker present => ?_)
    rw [getElem?_map,Option.map_eq_some_iff] at present
    obtain ⟨old,before,rfl⟩ := present
    refine ⟨old,before,?_,?_⟩
    · split <;> rfl
    · split
      · exact fun still => absurd rfl still
      · exact fun still => still
  exact kept.congr rfl rfl rfl rfl rfl

theorem setResume_sound (found : s.resumes[j]? = some resume) (going : resume.phase ≠ .ended) (phase : ResumePhase) :
    Sound (setResume j resume phase s) := by
  have keep : ∀ new ∈ s.resumes.set j { resume with phase }, ∃ old ∈ s.resumes, old.uploadId = new.uploadId ∧
      (new.phase ≠ .ended → old.phase ≠ .ended) := by
    intro new member
    obtain ⟨k,present⟩ := mem_iff_getElem?.mp member
    rcases Slots.set_cases present with ⟨rfl,rfl⟩ | ⟨_,before⟩
    · exact ⟨resume,mem_of_getElem? found,rfl,fun _ => going⟩
    · exact ⟨new,mem_of_getElem? before,rfl,fun still => still⟩
  have less : ∀ id, polling (s.resumes.set j { resume with phase }) id → polling s.resumes id := by
    rintro id ⟨new,member,still,rfl⟩
    obtain ⟨old,before,same,went⟩ := keep new member
    exact ⟨old,before,went still,same⟩
  refine ⟨⟨fun batch some_ => ?_,sound.workers,fun new member => ?_⟩,sound.stored,fun none_ kept => ⟨(sound.idle none_ kept).1,?_⟩⟩
  · have ok := sound.batchOk batch some_
    exact ⟨ok.once,ok.fresh,fun item member => (ok.rowOk item member).mono (fun still => still) (less item.id),ok.complete⟩
  · obtain ⟨old,before,same,_⟩ := keep new member
    rw [← same]
    exact sound.resumes old before
  · rw [setResume]
    dsimp only
    rw [(sound.idle none_ kept).2]
    rfl

theorem resume_sound (member : item ∈ rows s) (status : item.status = .uploading) (sent : item.localFile = none) :
    Sound (resumeUploadItemProcessing item s) := by
  unfold resumeUploadItemProcessing
  split
  · exact sound
  · next fileId _ =>
    split
    · exact sound
    · obtain ⟨batch,some_,inside⟩ := rows_some member
      have ok := sound.batchOk batch some_
      refine emit_sound ⟨fun other same => ?_,sound.workers,?_⟩
      · rw [show s.batch = some batch from some_] at same
        cases same
        refine ⟨ok.once,ok.fresh,fun row inside' => ?_,ok.complete⟩
        have rowOk := ok.rowOk row inside'
        by_cases same : row.id = item.id
        · cases inj_on_of_nodup_map ok.once inside' inside same
          refine ⟨rowOk.waiting,rowOk.reprocess,fun _ => sent,fun wanted => ?_,rowOk.held⟩
          rcases (rowOk.reselect wanted).1 with ended | ended <;> rw [status] at ended <;> cases ended
        · refine rowOk.mono (fun still => still) ?_
          rintro ⟨new,new_,still,named⟩
          rcases mem_append.mp new_ with old | new_
          · exact ⟨new,old,still,named⟩
          · cases mem_singleton.mp new_
            exact absurd named.symm same
      · intro new new_
        rcases mem_append.mp new_ with old | new_
        · exact sound.resumes new old
        · cases mem_singleton.mp new_
          exact sound.fresh member

end

theorem processingRow_batch : (pumpProcessingRow s item).batch = s.batch := by
  unfold pumpProcessingRow
  split
  · rfl
  · split
    · unfold resumeUploadItemProcessing
      split
      · rfl
      · split <;> rfl
    · rfl

theorem processingRow_sound (sound : Sound s) (member : item ∈ rows s) : Sound (pumpProcessingRow s item) := by
  unfold pumpProcessingRow
  split
  · exact sound
  · split
    · next row => exact resume_sound sound member row.1 row.2
    · exact sound

theorem processingRows_sound (sound : Sound s) (from_ : ∀ item ∈ items, item ∈ rows s) : Sound (items.foldl pumpProcessingRow s) := by
  induction items generalizing s with
  | nil => exact sound
  | cons item rest ih =>
    refine ih (processingRow_sound sound (from_ item mem_cons_self)) (fun other later => ?_)
    rw [rows,processingRow_batch]
    exact from_ other (mem_cons_of_mem _ later)

theorem processing_sound (sound : Sound s) : Sound (pumpProcessingQueue s) := by
  unfold pumpProcessingQueue
  split
  · exact processingRows_sound sound (fun _ member => member)
  · exact sound

theorem running_row (sound : Sound s) (member : item ∈ rows s) (busy : running s.workers item.id) :
    item.status ≠ .queued ∧ item.needsFileReselect = false := by
  have ok := sound.rowOk member
  refine ⟨fun queued => (ok.waiting queued).2 busy,?_⟩
  cases wanted : item.needsFileReselect with
  | false => rfl
  | true => exact absurd busy (ok.reselect wanted).2.2.1

def dropFile (item : UploadItem) : UploadItem := { item with localFile := none }

theorem dropFile_sound (sound : Sound s) (busy : running s.workers id) : Sound (updateRow id dropFile s) := by
  refine updateRow_sound sound (fun _ => rfl) ?_ (fun _ _ _ queued => queued)
  rintro item member rfl ok
  exact ⟨fun queued => absurd queued (running_row sound member busy).1,fun _ => rfl,fun _ => rfl,ok.reselect,
    fun file => absurd rfl file⟩

theorem release_sound (sound : Sound s) (busy : running s.workers id) : Sound (releaseUploadByteSlot id s) := by
  unfold releaseUploadByteSlot
  split
  · exact processing_sound (pump_sound (dropFile_sound sound busy))
  · exact sound

theorem register_sound (sound : Sound s) (file : ServerFile) : Sound (registerUploadServerFile id file s) :=
  updateRow_sound sound (fun _ => rfl)
    (fun _ _ _ ok => ⟨ok.waiting,ok.reprocess,ok.polled,ok.reselect,ok.held⟩) (fun _ _ _ queued => queued)

@[simp] theorem emit_workers : (emitBatch s).workers = s.workers := rfl

@[simp] theorem update_workers : (updateItems f s).workers = s.workers := by
  unfold updateItems
  split <;> rfl

theorem set_once {index : Nat} (once : (items.map UploadItem.id).Nodup) (found : items[index]? = some item) :
    items.set index (f item) = items.map (fun other => if other.id = item.id then f other else other) := by
  refine ext_getElem? (fun j => ?_)
  rw [getElem?_set,getElem?_map]
  split
  · next same =>
    subst same
    obtain ⟨inside,here⟩ := List.getElem?_eq_some_iff.mp found
    rw [if_pos inside,getElem?_eq_getElem inside,here,Option.map_some,if_pos rfl]
  · next other =>
    cases present : items[j]? with
    | none => rfl
    | some found' =>
      rw [Option.map_some,if_neg]
      intro same
      have one : (items.map UploadItem.id)[index]? = some item.id := by rw [getElem?_map,found]; rfl
      have two : (items.map UploadItem.id)[j]? = some item.id := by rw [getElem?_map,present,← same]; rfl
      obtain ⟨inside,_⟩ := List.getElem?_eq_some_iff.mp one
      exact other ((getElem?_inj inside once).mp (one.trans two.symm))

def claim (item : UploadItem) : UploadItem := { item with status := .uploading }

theorem claim_some (once : ((rows s).map UploadItem.id).Nodup) (taken : claimNextQueued s = some (item,t)) :
    ∃ queued ∈ rows s, claimable queued = true ∧ item = claim queued ∧ t = updateRow queued.id claim s := by
  obtain ⟨index,first,found⟩ := Option.bind_eq_some_iff.mp taken
  obtain ⟨queued,present,pair⟩ := Option.map_eq_some_iff.mp found
  obtain ⟨inside,holds,_⟩ := findIdx?_eq_some_iff_getElem.mp first
  obtain ⟨_,here⟩ := List.getElem?_eq_some_iff.mp present
  rw [here] at holds
  obtain ⟨rfl,rfl⟩ := Prod.mk.inj pair
  have member := mem_of_getElem? present
  obtain ⟨batch,some_,_⟩ := rows_some member
  refine ⟨queued,member,holds,rfl,?_⟩
  rw [updateRow,updateItems,if_pos (by rw [some_]; rfl)]
  exact congrArg (fun items => emitBatch (setItems items s)) (set_once (f := claim) once present)

theorem claim_none (none_ : claimNextQueued s = none) (member : item ∈ rows s) : claimable item = false := by
  cases first : List.findIdx? claimable (rows s) with
  | none => exact findIdx?_eq_none_iff.mp first item member
  | some index =>
    obtain ⟨inside,_⟩ := findIdx?_eq_some_iff_getElem.mp first
    rw [claimNextQueued,first,Option.bind_some,getElem?_eq_getElem inside] at none_
    cases none_

theorem claimable_iff : claimable item = true ↔ item.status = .queued ∧ item.paused = false := decide_eq_true_iff

section
variable (sound : Sound s)
include sound

theorem claim_sound (member : item ∈ rows s) (queued : item.status = .queued) : Sound (updateRow item.id claim s) := by
  refine updateRow_sound sound (fun _ => rfl) ?_ (fun _ _ _ queued => nomatch queued)
  intro other inside same ok
  cases inj_on_of_nodup_map sound.once inside member same
  refine ⟨fun queued => (nomatch queued),ok.reprocess,ok.polled,fun wanted => ?_,fun _ _ => rfl⟩
  rcases (ok.reselect wanted).1 with ended | ended <;> rw [queued] at ended <;> cases ended

theorem upload_sound (member : item ∈ rows s) (status : item.status = .uploading)
    (kept : item.needsFileReselect = false) (idle : ¬running s.workers item.id) : Sound (uploadClaimedItem item s) := by
  unfold uploadClaimedItem
  split
  · exact sound.congr rfl rfl rfl rfl rfl
  · next file _ =>
    obtain ⟨batch,some_,inside⟩ := rows_some member
    have ok := sound.batchOk batch some_
    refine ⟨⟨fun other same => ?_,⟨?_,?_⟩,sound.resumes⟩,sound.stored,fun none_ => ?_⟩
    · rw [show s.batch = some batch from some_] at same
      cases same
      refine ⟨ok.once,ok.fresh,fun row inside' => ?_,ok.complete⟩
      have rowOk := ok.rowOk row inside'
      by_cases same : row.id = item.id
      · cases inj_on_of_nodup_map ok.once inside' inside same
        refine ⟨fun queued => ?_,rowOk.reprocess,rowOk.polled,fun wanted => ?_,fun _ _ => status⟩
        · rw [status] at queued; cases queued
        · rw [kept] at wanted; cases wanted
      · refine rowOk.mono ?_ (fun still => still)
        rintro ⟨new,new_,still,named⟩
        rcases mem_append.mp new_ with old | new_
        · exact ⟨new,old,still,named⟩
        · cases mem_singleton.mp new_
          exact absurd named.symm same
    · intro new new_
      rcases mem_append.mp new_ with old | new_
      · exact sound.workers.fresh new old
      · cases mem_singleton.mp new_
        exact sound.fresh member
    · intro i j one two first second going goes same
      rcases Slots.append_cases first with ⟨rfl,rfl⟩ | first
      · rcases Slots.append_cases second with ⟨rfl,rfl⟩ | second
        · rfl
        · exact absurd ⟨two,mem_of_getElem? second,goes,same.symm⟩ idle
      · rcases Slots.append_cases second with ⟨rfl,rfl⟩ | second
        · exact absurd ⟨one,mem_of_getElem? first,going,same⟩ idle
        · exact sound.workers.single i j one two first second going goes same
    · rw [show s.batch = some batch from some_] at none_
      cases none_

theorem turn_sound (taken : claimNextQueued s = some (item,t)) :
    Sound t ∧ Sound (uploadClaimedItem item t) ∧ item ∈ rows t ∧ item.status = .uploading ∧ item.localFile ≠ none := by
  obtain ⟨queued,member,holds,rfl,rfl⟩ := claim_some sound.once taken
  have ok := sound.rowOk member
  have status := (claimable_iff.mp holds).1
  have claimed := claim_sound sound member status
  have inside : claim queued ∈ rows (updateRow queued.id claim s) := by
    rw [updateRow,rows_update]
    exact mem_map.mpr ⟨queued,member,if_pos rfl⟩
  refine ⟨claimed,upload_sound claimed inside rfl ?_ ?_,inside,rfl,(ok.waiting status).1⟩
  · cases wanted : queued.needsFileReselect with
    | false => exact wanted
    | true => rcases (ok.reselect wanted).1 with ended | ended <;> rw [status] at ended <;> cases ended
  · rw [updateRow,update_workers]
    exact (ok.waiting status).2

theorem claimLoop_sound (slots fuel : Nat) : Sound (claimLoop slots fuel s) := by
  induction fuel generalizing s with
  | zero => exact sound
  | succ fuel ih =>
    unfold claimLoop
    split
    · split
      · exact sound
      · next taken => exact ih (turn_sound sound taken).2.1
    · exact sound

theorem pumpRun_sound : Sound (pumpRun s) := by
  unfold pumpRun
  split
  · exact claimLoop_sound sound _ _
  · exact sound

theorem settle_sound : Sound (settle s) := idle_sound (processing_sound (pump_sound sound))

end

theorem endWorker_update : endWorker i worker (updateItems f s) = updateItems f (endWorker i worker s) := by
  unfold endWorker updateItems
  split <;> rfl

section
variable (sound : Sound s) (found : s.workers[i]? = some worker) (going : worker.phase ≠ .ended)
include sound found going

theorem ended_idle :
    ¬running (endWorker i worker s).workers worker.claimed.id := by
  rintro ⟨other,member,still,same⟩
  obtain ⟨j,present⟩ := mem_iff_getElem?.mp member
  rcases Slots.set_cases present with ⟨rfl,rfl⟩ | ⟨ne,before⟩
  · exact still rfl
  · exact ne (sound.workers.single j i other worker before found still going same)

theorem endRow_sound (same : ∀ item, (f item).id = item.id) (status : ∀ item, (f item).status ≠ .queued)
    (file : ∀ item, (f item).localFile = item.localFile) (reprocess : ∀ item, (f item).isReprocess = item.isReprocess)
    (reselect : ∀ item, (f item).needsFileReselect = item.needsFileReselect) :
    Sound (endWorker i worker (updateRow worker.claimed.id f s)) := by
  have busy : running s.workers worker.claimed.id := ⟨worker,mem_of_getElem? found,going,rfl⟩
  rw [updateRow,endWorker_update]
  refine updateRow_sound (endWorker_sound sound found going) same ?_ (fun item _ _ queued => absurd queued (status item))
  rintro item member named ok
  have idle := ended_idle sound found going
  refine ⟨fun queued => absurd queued (status item),?_,?_,fun wanted => ?_,fun _ busy => ?_⟩
  · rw [file,reprocess]; exact ok.reprocess
  · rw [same,file]; exact ok.polled
  · rw [reselect,(running_row sound member (named ▸ busy)).2] at wanted
    cases wanted
  · rw [same,named] at busy
    exact absurd busy idle

theorem fail_sound (error : Option ApiError) :
    Sound (failAttempt i worker error s) := by
  have busy : running s.workers worker.claimed.id := ⟨worker,mem_of_getElem? found,going,rfl⟩
  unfold failAttempt
  dsimp only
  split
  · have paused : Sound (if rateLimited error then pauseUploadPumpFor (retryAfterMs error (worker.retryAttempt + 1)) s else s) := by
      split
      · exact sound.congr rfl rfl rfl rfl rfl
      · exact sound
    have same : (if rateLimited error then pauseUploadPumpFor (retryAfterMs error (worker.retryAttempt + 1)) s else s).workers =
        s.workers := by split <;> rfl
    generalize (if rateLimited error then pauseUploadPumpFor (retryAfterMs error (worker.retryAttempt + 1)) s else s) = p at paused same ⊢
    have claimed : Sound (updateRow worker.claimed.id claim p) := by
      refine updateRow_sound paused (fun _ => rfl) ?_ (fun _ _ _ queued => nomatch queued)
      rintro item member named ok
      refine ⟨fun queued => (nomatch queued),ok.reprocess,ok.polled,fun wanted => ?_,fun _ _ => rfl⟩
      have kept := (running_row paused member (by rw [same,named]; exact busy)).2
      exact absurd (kept.symm.trans wanted) (by decide)
    refine set_sound claimed ?_ going _ rfl
    rw [updateRow,update_workers,same]
    exact found
  · refine endRow_sound sound found going (fun _ => rfl) (fun item => ?_) (fun _ => rfl) (fun _ => rfl) (fun _ => rfl)
    dsimp only
    split <;> exact fun queued => nomatch queued

theorem retryAttempt_sound :
    Sound (retryAttempt i worker s) := by
  unfold retryAttempt
  split
  · exact endWorker_sound sound found going
  · exact setPhase_sound sound found going _

end

@[simp] theorem pump_workers : (pumpUploadQueue s).workers = s.workers := by
  unfold pumpUploadQueue
  split <;> rfl

theorem processingRow_workers : (pumpProcessingRow s item).workers = s.workers := by
  unfold pumpProcessingRow
  split
  · rfl
  · split
    · unfold resumeUploadItemProcessing
      split
      · rfl
      · split <;> rfl
    · rfl

theorem processingRows_workers : (items.foldl pumpProcessingRow s).workers = s.workers := by
  induction items generalizing s with
  | nil => rfl
  | cons item rest ih => rw [foldl_cons,ih,processingRow_workers]

@[simp] theorem processing_workers : (pumpProcessingQueue s).workers = s.workers := by
  unfold pumpProcessingQueue
  split
  · exact processingRows_workers
  · rfl

@[simp] theorem release_workers : (releaseUploadByteSlot id s).workers = s.workers := by
  unfold releaseUploadByteSlot
  split
  · rw [processing_workers,pump_workers,updateRow,update_workers]
  · rfl

theorem finish_sound (sound : Sound s) (found : s.workers[i]? = some worker) (going : worker.phase ≠ .ended) (file : ServerFile) :
    Sound (finishAttempt i worker file s) := by
  have busy : running s.workers worker.claimed.id := ⟨worker,mem_of_getElem? found,going,rfl⟩
  have released := release_sound sound busy
  unfold finishAttempt
  split
  · exact endWorker_sound (processing_sound released) (by rw [processing_workers,release_workers]; exact found) going
  · exact endRow_sound released (by rw [release_workers]; exact found) going (fun _ => rfl) (fun _ => (nomatch ·))
      (fun _ => rfl) (fun _ => rfl) (fun _ => rfl)

theorem set_running (found : s.workers[i]? = some worker) (phase : WorkerPhase) (going : phase ≠ .ended) :
    running (setPhase i worker phase s).workers worker.claimed.id := by
  obtain ⟨inside,_⟩ := List.getElem?_eq_some_iff.mp found
  exact ⟨{ worker with phase },mem_of_getElem? (getElem?_set_self (by simpa using inside)),going,rfl⟩

inductive Worked (i : Nat) (worker : Worker) (s : Manager) : WorkerEvent → Manager → Prop where
  | started {wake : Nat} (phase : worker.phase = .unpausing wake) (due : wake ≤ s.now) :
      Worked i worker s .wake (setPhase i worker (if shouldUseResumableUpload worker.file then .sending else .preparing) s)
  | retried {wake : Nat} (phase : worker.phase = .backoff wake) (due : wake ≤ s.now) : Worked i worker s .wake (retryAttempt i worker s)
  | token (phase : worker.phase = .preparing) : Worked i worker s .csrfToken (setPhase i worker .sending s)
  | session (phase : worker.phase = .sending) (session : Nat) : Worked i worker s (.sessionReady session)
      (updateRow worker.claimed.id (fun item => { item with resumableServerSessionId := some session }) s)
  | sent (phase : worker.phase = .sending) :
      Worked i worker s .bytesComplete (releaseUploadByteSlot worker.claimed.id (setPhase i worker .sent s))
  | answered (phase : worker.phase = .sending ∨ worker.phase = .sent) (file : ServerFile) : Worked i worker s (.serverFile file)
      (registerUploadServerFile worker.claimed.id file
        (releaseUploadByteSlot worker.claimed.id (setPhase i worker (.registered file) s)))
  | finished {file : ServerFile} (phase : worker.phase = .registered file) : Worked i worker s .result (finishAttempt i worker file s)
  | failed (phase : worker.phase = .preparing ∨ worker.phase = .sending ∨ worker.phase = .sent) (error : Option ApiError) :
      Worked i worker s (.failure error) (failAttempt i worker error s)

theorem workerStep_worked {event : WorkerEvent} (fired : workerStep i worker s event = some next) : Worked i worker s event next := by
  cases event with
  | wake =>
    simp only [workerStep] at fired
    split at fired
    · next phase =>
      obtain ⟨due,same⟩ := Option.ite_none_right_eq_some.mp fired
      cases same
      exact .started phase due
    · next phase =>
      obtain ⟨due,same⟩ := Option.ite_none_right_eq_some.mp fired
      cases same
      exact .retried phase due
    · cases fired
  | csrfToken =>
    obtain ⟨phase,same⟩ := Option.ite_none_right_eq_some.mp fired
    cases same
    exact .token phase
  | sessionReady session =>
    obtain ⟨phase,same⟩ := Option.ite_none_right_eq_some.mp fired
    cases same
    exact .session phase.1 session
  | bytesComplete =>
    obtain ⟨phase,same⟩ := Option.ite_none_right_eq_some.mp fired
    cases same
    exact .sent phase.1
  | serverFile file =>
    obtain ⟨phase,same⟩ := Option.ite_none_right_eq_some.mp fired
    cases same
    refine .answered ?_ file
    split at phase
    · exact .inl phase
    · exact .inr phase
  | result =>
    simp only [workerStep] at fired
    split at fired
    · next phase => cases fired; exact .finished phase
    · cases fired
  | failure error =>
    obtain ⟨phase,same⟩ := Option.ite_none_right_eq_some.mp fired
    cases same
    exact .failed phase error

theorem Worked.going {event : WorkerEvent} (worked : Worked i worker s event next) : worker.phase ≠ .ended := by
  intro ended
  cases worked with
  | started phase => rw [ended] at phase; cases phase
  | retried phase => rw [ended] at phase; cases phase
  | token phase => rw [ended] at phase; cases phase
  | session phase => rw [ended] at phase; cases phase
  | sent phase => rw [ended] at phase; cases phase
  | answered phase => rw [ended] at phase; rcases phase with phase | phase <;> cases phase
  | finished phase => rw [ended] at phase; cases phase
  | failed phase => rw [ended] at phase; rcases phase with phase | phase | phase <;> cases phase

theorem worker_sound {event : WorkerEvent} (sound : Sound s) (found : s.workers[i]? = some worker)
    (worked : Worked i worker s event next) : Sound next := by
  have going := worked.going
  cases worked with
  | started => exact setPhase_sound sound found going _
  | retried => exact retryAttempt_sound sound found going
  | token => exact setPhase_sound sound found going _
  | session _ session =>
    exact updateRow_sound sound (fun _ => rfl)
      (fun _ _ _ ok => ⟨ok.waiting,ok.reprocess,ok.polled,ok.reselect,ok.held⟩) (fun _ _ _ queued => queued)
  | sent => exact release_sound (setPhase_sound sound found going _) (set_running found _ (nomatch ·))
  | answered _ file =>
    exact register_sound (release_sound (setPhase_sound sound found going _) (set_running found (.registered file) (nomatch ·))) file
  | finished => exact finish_sound sound found going _
  | failed _ error => exact fail_sound sound found going error

theorem BatchOk.keep (ok : BatchOk created workers resumes batch) (p : UploadItem → Bool) :
    BatchOk created workers resumes { batch with items := batch.items.filter p } where
  once := ok.once.sublist (List.Sublist.map _ filter_sublist)
  fresh item member := ok.fresh item (mem_of_mem_filter member)
  rowOk item member := ok.rowOk item (mem_of_mem_filter member)
  complete status item member := ok.complete status item (mem_of_mem_filter member)

theorem keep_live (live : Live s) (some_ : s.batch = some batch) (p : UploadItem → Bool) :
    Live { s with batch := if batch.items.filter p = [] then none else some { batch with items := batch.items.filter p } } := by
  refine ⟨fun other member => ?_,live.workers,live.resumes⟩
  dsimp only at member
  split at member
  · cases member
  · cases member
    exact (live.batchOk batch some_).keep p

theorem remove_sound (sound : Sound s) : Sound (removeItemFromActiveBatch id s) := by
  unfold removeItemFromActiveBatch
  split
  · exact sound
  · next batch some_ =>
    have kept := keep_live sound.toLive some_ (fun item => decide (item.id ≠ id))
    exact pump_sound (emit_sound (complete_live ⟨kept.batchOk,kept.workers,kept.resumes⟩))

theorem clear_sound (sound : Sound s) : Sound (clearCancelledHlsReprocessItems s) := by
  unfold clearCancelledHlsReprocessItems
  split
  · exact sound
  · next batch some_ => exact emit_sound (complete_live (keep_live sound.toLive some_ _))

theorem finishResume_sound (sound : Sound s) (found : s.resumes[j]? = some resume) (going : resume.phase ≠ .ended)
    {status : UploadItemStatus} (terminal : isTerminalStatus status = true) : Sound (finishResume j resume status s) := by
  have busy : polling s.resumes resume.uploadId := ⟨resume,mem_of_getElem? found,going,rfl⟩
  have ended : status ≠ .queued := by rintro rfl; cases terminal
  unfold finishResume
  have written : Sound (updateRow resume.uploadId (fun item =>
      { item with status, uploadedFileId := if status = .done then some resume.fileId else item.uploadedFileId })
      (setResume j resume .ended s)) := by
    refine updateRow_sound (setResume_sound sound found going .ended) (fun _ => rfl) ?_ (fun _ _ _ queued => absurd queued ended)
    rintro item member named ok
    have before := sound.rowOk (show item ∈ rows s from member)
    have sent := before.polled (named ▸ busy)
    refine ⟨fun queued => absurd queued ended,ok.reprocess,fun _ => sent,fun wanted => ?_,fun file => absurd sent file⟩
    exact absurd (named ▸ busy) (before.reselect wanted).2.2.2
  exact complete_sound (processing_sound (emit_sound ⟨written.batchOk,written.workers,written.resumes⟩))

inductive Resumed (j : Nat) (resume : Resume) (s : Manager) : ResumeEvent → Manager → Prop where
  | asked (phase : resume.phase = .waiting) : Resumed j resume s .poll (setResume j resume .fetching s)
  | stopped {event : ResumeEvent} (phase : resume.phase = .waiting ∨ resume.phase = .fetching)
      (cancelled : pollCancelled s resume.uploadId) : Resumed j resume s event (finishResume j resume .cancelled s)
  | lost (phase : resume.phase = .fetching) : Resumed j resume s (.polled none) (finishResume j resume .error s)
  | failed (phase : resume.phase = .fetching) (wanted : ¬pollCancelled s resume.uploadId) :
      Resumed j resume s (.polled (some .failed)) (finishResume j resume .error s)
  | dropped (phase : resume.phase = .fetching) (wanted : ¬pollCancelled s resume.uploadId) :
      Resumed j resume s (.polled (some .cancelled)) (finishResume j resume .cancelled s)
  | shown {ingest : Ingest} (phase : resume.phase = .fetching) (ready : Bool) :
      Resumed j resume s (.polled (some ingest)) (setResume j resume (.emitting ready) s)
  | again (phase : resume.phase = .emitting false) : Resumed j resume s .emitted (setResume j resume .waiting s)
  | done (phase : resume.phase = .emitting true) : Resumed j resume s .emitted (finishResume j resume .done s)

theorem resumeStep_resumed (fired : resumeStep j resume s event = some next) : Resumed j resume s event next := by
  cases event with
  | poll =>
    obtain ⟨phase,same⟩ := Option.ite_none_right_eq_some.mp fired
    cases same
    split
    · next cancelled => exact .stopped (.inl phase) cancelled
    · exact .asked phase
  | polled answer =>
    obtain ⟨phase,same⟩ := Option.ite_none_right_eq_some.mp fired
    cases same
    cases answer with
    | none => exact .lost phase
    | some ingest =>
      dsimp only
      split
      · next cancelled => exact .stopped (.inr phase) cancelled
      · next wanted =>
        cases ingest with
        | failed => exact .failed phase wanted
        | cancelled => exact .dropped phase wanted
        | running => exact .shown phase false
        | ready => exact .shown phase true
  | emitted =>
    simp only [resumeStep] at fired
    split at fired
    · next phase => cases fired; exact .done phase
    · next phase => cases fired; exact .again phase
    · cases fired

theorem Resumed.going (resumed : Resumed j resume s event next) : resume.phase ≠ .ended := by
  intro ended
  cases resumed with
  | asked phase => rw [ended] at phase; cases phase
  | stopped phase => rw [ended] at phase; rcases phase with phase | phase <;> cases phase
  | lost phase => rw [ended] at phase; cases phase
  | failed phase => rw [ended] at phase; cases phase
  | dropped phase => rw [ended] at phase; cases phase
  | shown phase => rw [ended] at phase; cases phase
  | again phase => rw [ended] at phase; cases phase
  | done phase => rw [ended] at phase; cases phase

theorem Resumed.ends (resumed : Resumed j resume s event next) :
    (∃ phase, next = setResume j resume phase s) ∨ ∃ status, isTerminalStatus status = true ∧ next = finishResume j resume status s := by
  cases resumed with
  | asked => exact .inl ⟨_,rfl⟩
  | stopped => exact .inr ⟨.cancelled,rfl,rfl⟩
  | lost => exact .inr ⟨.error,rfl,rfl⟩
  | failed => exact .inr ⟨.error,rfl,rfl⟩
  | dropped => exact .inr ⟨.cancelled,rfl,rfl⟩
  | shown => exact .inl ⟨_,rfl⟩
  | again => exact .inl ⟨_,rfl⟩
  | done => exact .inr ⟨.done,rfl,rfl⟩

section
variable (sound : Sound s)
include sound

theorem resumed_sound (found : s.resumes[j]? = some resume)
    (resumed : Resumed j resume s event next) : Sound next := by
  rcases resumed.ends with ⟨phase,rfl⟩ | ⟨status,terminal,rfl⟩
  · exact setResume_sound sound found resumed.going phase
  · exact finishResume_sound sound found resumed.going terminal

theorem cancel_sound : Sound (cancelUploadItem id s) := by
  unfold cancelUploadItem
  split
  · exact sound
  · next item found =>
    split
    · exact sound
    · dsimp only
      obtain ⟨member,named⟩ := row_some found
      split
      · next reprocess =>
        have aborted : Sound { s with abortedUploadItemIds := insertId id s.abortedUploadItemIds } := sound.congr rfl rfl rfl rfl rfl
        have written : Sound (updateRow id (fun item => { item with status := .cancelled })
            { s with abortedUploadItemIds := insertId id s.abortedUploadItemIds }) := by
          refine updateRow_sound aborted (fun _ => rfl) ?_ (fun _ _ _ queued => nomatch queued)
          intro other inside same ok
          cases inj_on_of_nodup_map sound.once inside member (same.trans named.symm)
          exact ⟨fun queued => (nomatch queued),ok.reprocess,ok.polled,
            fun wanted => absurd ((ok.reselect wanted).2.1.symm.trans reprocess) (by decide),
            fun file => absurd (ok.reprocess reprocess) file⟩
        exact processing_sound (complete_sound (written.congr rfl rfl rfl rfl rfl))
      · refine remove_sound ?_
        split
        · exact abort_sound (sound.congr rfl rfl rfl rfl rfl)
        · exact sound.congr rfl rfl rfl rfl rfl

theorem cancelAll_sound : Sound (cancelAllPendingHlsReprocess s) := by
  unfold cancelAllPendingHlsReprocess
  refine complete_sound (update_sound (sound.congr rfl rfl rfl rfl rfl) (fun item => ?_) (fun item _ ok => ?_) (fun item _ => ?_))
  · split <;> rfl
  · split
    · next pending =>
      have reprocess := (Bool.and_eq_true_iff.mp pending).1
      exact ⟨fun queued => (nomatch queued),ok.reprocess,ok.polled,
        fun wanted => absurd ((ok.reselect wanted).2.1.symm.trans reprocess) (by decide),
        fun file => absurd (ok.reprocess reprocess) file⟩
    · exact ok
  · split
    · exact fun queued => nomatch queued
    · exact fun queued => queued

theorem itemPaused_sound (paused : Bool) : Sound (setUploadItemPaused id paused s) := by
  have written : Sound (updateItems (fun item => if item.id = id ∧ item.status = .queued then { item with paused } else item) s) := by
    refine update_sound sound (fun item => ?_) (fun item _ ok => ?_) (fun item _ => ?_)
    · split <;> rfl
    · split
      · exact ⟨ok.waiting,ok.reprocess,ok.polled,ok.reselect,ok.held⟩
      · exact ok
    · split <;> exact fun queued => queued
  unfold setUploadItemPaused
  dsimp only
  split
  · exact written
  · exact pump_sound written

theorem batchPaused_sound (paused : Bool) : Sound (setUploadBatchPaused paused s) := by
  have set_ : Sound { s with userUploadPaused := paused } := sound.congr rfl rfl rfl rfl rfl
  unfold setUploadBatchPaused
  dsimp only
  split
  · exact emit_sound set_.toLive
  · exact emit_sound (pump_sound set_).toLive

theorem dismiss_sound : Sound (dismissUploadBatch s) := by
  unfold dismissUploadBatch
  split
  · exact sound
  · exact emit_sound ⟨fun _ member => (nomatch member),sound.workers,sound.resumes⟩

end

theorem RowOk.new (fresh : created ≤ item.id) (workersOk : WorkersOk created workers)
    (resumesOk : ∀ resume ∈ resumes, resume.uploadId < created) (queued : item.status = .queued → item.localFile ≠ none)
    (reprocess : item.isReprocess = true → item.localFile = none) (reselect : item.needsFileReselect = false) :
    RowOk workers resumes item := by
  have idle : ¬running workers item.id := by
    rintro ⟨worker,member,_,same⟩
    have less := workersOk.fresh worker member
    omega
  have unpolled : ¬polling resumes item.id := by
    rintro ⟨resume,member,_,same⟩
    have less := resumesOk resume member
    omega
  exact ⟨fun status => ⟨queued status,idle⟩,reprocess,fun busy => absurd busy unpolled,
    fun wanted => absurd (reselect.symm.trans wanted) (by decide),fun _ busy => absurd busy idle⟩

theorem ids_once (ids : items.map UploadItem.id = List.range' created n) :
    (items.map UploadItem.id).Nodup ∧ ∀ item ∈ items, created ≤ item.id ∧ item.id < created + n := by
  refine ⟨ids ▸ nodup_range',fun item member => ?_⟩
  have inside := mem_map_of_mem (f := UploadItem.id) member
  rw [ids,mem_range'_1] at inside
  exact inside

theorem queued_ids (folder : Option Nat) (entries : List UploadBatchEntry) (created : Nat) :
    (queuedItemsFromEntries folder created entries).map UploadItem.id = List.range' created entries.length := by
  induction entries generalizing created with
  | nil => rfl
  | cons entry rest ih => rw [queuedItemsFromEntries,map_cons,ih,length_cons,range'_succ]

theorem queued_items {folder : Option Nat} (member : item ∈ queuedItemsFromEntries folder created entries) :
    item.status = .queued ∧ item.localFile ≠ none ∧ item.isReprocess = false ∧ item.needsFileReselect = false := by
  induction entries generalizing created with
  | nil => cases member
  | cons entry rest ih =>
    rcases mem_cons.mp member with rfl | later
    · exact ⟨rfl,(nomatch ·),rfl,rfl⟩
    · exact ih later

theorem tracked_ids (active : List TrackedFile) (created : Nat) :
    (trackedItems created active).map UploadItem.id = List.range' created active.length := by
  induction active generalizing created with
  | nil => rfl
  | cons file rest ih => rw [trackedItems,map_cons,ih,length_cons,range'_succ]; rfl

theorem tracked_items {active : List TrackedFile} (member : item ∈ trackedItems created active) :
    item.status = .uploading ∧ item.localFile = none ∧ item.needsFileReselect = false := by
  induction active generalizing created with
  | nil => cases member
  | cons file rest ih =>
    rcases mem_cons.mp member with rfl | later
    · exact ⟨rfl,rfl,rfl⟩
    · exact ih later

theorem Live.grow (live : Live s) (more : s.created ≤ n) : Live { s with created := n } where
  batchOk batch member := by
    have ok := live.batchOk batch member
    exact ⟨ok.once,fun item inside => Nat.lt_of_lt_of_le (ok.fresh item inside) more,ok.rowOk,ok.complete⟩
  workers := ⟨fun worker member => Nat.lt_of_lt_of_le (live.workers.fresh worker member) more,live.workers.single⟩
  resumes resume member := Nat.lt_of_lt_of_le (live.resumes resume member) more

theorem BatchOk.append (ok : BatchOk created workers resumes batch) (ids : items.map UploadItem.id = List.range' created n)
    (new : ∀ item ∈ items, RowOk workers resumes item)
    (unqueued : batch.status = .complete → ∀ item ∈ items, item.status ≠ .queued) :
    BatchOk (created + n) workers resumes { batch with items := batch.items ++ items } := by
  obtain ⟨once,range⟩ := ids_once ids
  refine ⟨?_,fun item member => ?_,fun item member => ?_,fun complete item member => ?_⟩
  · dsimp only
    rw [map_append]
    refine nodup_append'.mpr ⟨ok.once,once,?_⟩
    rintro id old late
    obtain ⟨one,member,rfl⟩ := mem_map.mp old
    obtain ⟨two,inside,same⟩ := mem_map.mp late
    have less := ok.fresh one member
    have more := (range two inside).1
    omega
  · rcases mem_append.mp member with old | late
    · exact Nat.lt_of_lt_of_le (ok.fresh item old) (Nat.le_add_right _ _)
    · exact (range item late).2
  · rcases mem_append.mp member with old | late
    · exact ok.rowOk item old
    · exact new item late
  · rcases mem_append.mp member with old | late
    · exact ok.complete complete item old
    · exact unqueued complete item late

theorem BatchOk.first {status : BatchStatus} {folderId : Option Nat} (ids : items.map UploadItem.id = List.range' created n)
    (new : ∀ item ∈ items, RowOk workers resumes item) (open_ : status = .uploading) :
    BatchOk (created + n) workers resumes ⟨status,folderId,items⟩ where
  once := (ids_once ids).1
  fresh item member := ((ids_once ids).2 item member).2
  rowOk := new
  complete complete := by
    rw [show status = .complete from complete] at open_
    cases open_

theorem setItems_some (items : List UploadItem) (some_ : s.batch = some batch) : (setItems items s).batch = some { batch with items } := by
  rw [setItems,some_]
  rfl

theorem startBatch_queued (sound : Sound s) (some_ : entries ≠ []) (folder : Option Nat) :
    ∃ t, startUploadBatch entries folder s = pumpUploadQueue t ∧ Sound t ∧ t.workers = s.workers ∧
      t.uploadPumpPausedUntil = s.uploadPumpPausedUntil ∧ t.created = s.created + entries.length ∧ emitBatch t = t ∧
      (∀ item ∈ rows t, item ∈ rows s ∨ item ∈ queuedItemsFromEntries folder s.created entries) ∧
      (uploading s → uploading t ∧ ∀ item ∈ rows s, item ∈ rows t) := by
  have ids := queued_ids folder entries s.created
  have new : ∀ item ∈ queuedItemsFromEntries folder s.created entries, RowOk s.workers s.resumes item := by
    intro item member
    obtain ⟨_,file,first,kept⟩ := queued_items member
    exact .new ((ids_once ids).2 item member).1 sound.workers sound.resumes (fun _ => file)
      (fun reprocess => absurd (first.symm.trans reprocess) (by decide)) kept
  have grown := sound.toLive.grow (Nat.le_add_right s.created entries.length)
  unfold startUploadBatch
  rw [if_neg some_]
  dsimp only
  split
  · next open_ =>
    obtain ⟨batch,some_,status⟩ := open_
    have ok := sound.batchOk batch some_
    have same := mem_rows (setItems_some (rows s ++ queuedItemsFromEntries folder s.created entries)
      (show Manager.batch { s with created := s.created + entries.length } = some batch from some_))
    refine ⟨_,rfl,emit_sound ⟨fun other member => ?_,grown.workers,grown.resumes⟩,rfl,rfl,rfl,rfl,fun item member => ?_,
      fun _ => ⟨⟨_,setItems_some _ some_,status⟩,fun item member => ?_⟩⟩
    · rw [setItems_some _ (show (Manager.batch _) = some batch from some_)] at member
      cases member
      rw [mem_rows (show (Manager.batch _) = some batch from some_)]
      exact ok.append ids new (fun complete => absurd (status.symm.trans complete) (nomatch ·))
    · exact mem_append.mp (Eq.mp (congrArg (item ∈ ·) same) member)
    · exact Eq.mpr (congrArg (item ∈ ·) same) (mem_append_left _ member)
  · next closed => exact ⟨_,rfl,put_sound grown (.first ids new rfl),rfl,rfl,rfl,rfl,fun item member => .inr member,fun open_ => absurd open_ closed⟩

theorem startBatch_sound (sound : Sound s) (entries : List UploadBatchEntry) (folder : Option Nat) :
    Sound (startUploadBatch entries folder s) := by
  by_cases none_ : entries = []
  · rw [startUploadBatch,if_pos none_]
    exact sound
  · obtain ⟨t,same,sound,_⟩ := startBatch_queued sound none_ folder
    rw [same]
    exact pump_sound sound

theorem trackFile_live (live : Live s) (file : TrackedFile) : Live (trackFile s file) := by
  unfold trackFile
  split
  · exact live
  · have grown := live.grow (Nat.le_add_right s.created 1)
    refine ⟨fun batch member => ?_,grown.workers,grown.resumes⟩
    obtain ⟨old,some_,rfl⟩ := Option.map_eq_some_iff.mp (Option.mem_def.mp member)
    have ok := live.batchOk old some_
    rw [mem_rows some_]
    have new : RowOk s.workers s.resumes (trackedItem s.created file) :=
      .new (Nat.le_refl s.created) live.workers live.resumes (fun queued => nomatch queued) (fun _ => rfl) rfl
    have only : ∀ item ∈ [trackedItem s.created file], item = trackedItem s.created file := fun item => mem_singleton.mp
    exact ok.append (n := 1) rfl (fun item inside => only item inside ▸ new) (fun _ item inside queued => by cases only item inside; cases queued)

theorem ensure_sound (sound : Sound s) : Sound (ensureUploadingBatch s) := by
  unfold ensureUploadingBatch
  split
  · exact sound
  · refine ⟨⟨fun batch member => ?_,sound.workers,sound.resumes⟩,sound.stored,fun none_ => nomatch none_⟩
    cases member
    exact ⟨sound.once,fun item member => sound.fresh member,fun item member => sound.rowOk member,fun complete => nomatch complete⟩

theorem track_sound (sound : Sound s) (files : List TrackedFile) : Sound (trackFiles files s) := by
  have active := ensure_sound sound
  have tracked : ∀ (files : List TrackedFile) (s : Manager), Live s → Live (files.foldl trackFile s) := by
    intro files
    induction files with
    | nil => exact fun _ live => live
    | cons file rest ih => exact fun s live => ih _ (trackFile_live live file)
  unfold trackFiles
  split
  · exact sound
  · dsimp only
    split
    · exact active
    · exact processing_sound (emit_sound (tracked files _ active.toLive))

theorem jobs_sound (sound : Sound s) (active : List TrackedFile) : Sound (restoreFromActiveBackgroundJobs active s) := by
  unfold restoreFromActiveBackgroundJobs
  dsimp only
  split
  · exact sound.congr rfl rfl rfl rfl rfl
  · have ids := tracked_ids active s.created
    have grown := sound.toLive.grow (Nat.le_add_right s.created active.length)
    have ok : BatchOk (s.created + active.length) s.workers s.resumes ⟨.uploading,none,trackedItems s.created active⟩ := by
      refine .first ids (fun item member => ?_) rfl
      obtain ⟨status,sent,kept⟩ := tracked_items member
      exact .new ((ids_once ids).2 item member).1 sound.workers sound.resumes
        (fun queued => absurd (status.symm.trans queued) (nomatch ·)) (fun _ => sent) kept
    exact processing_sound (emit_sound ⟨fun other member => by cases member; exact ok,grown.workers,grown.resumes⟩)

theorem reopen_update (some_ : s.batch = some batch) : reopen (updateItems f s) =
    emitBatch { s with batch := some { batch with status := .uploading, items := batch.items.map f } } := by
  rw [reopen,updateItems_some some_]
  split
  · next open_ =>
    have status := (uploading_with _).mp (uploading_emit.mp open_)
    rw [← status]
  · rfl

theorem reopen_sound (sound : Sound s) (same : ∀ item, (f item).id = item.id)
    (rowOk : ∀ item ∈ rows s, item.id = id → RowOk s.workers s.resumes (f item)) : Sound (reopen (updateRow id f s)) := by
  cases present : s.batch with
  | none =>
    rw [updateRow,updateItems_none present,reopen]
    split
    · exact sound
    · refine emit_sound ⟨fun batch member => ?_,sound.workers,sound.resumes⟩
      rw [show s.batch = none from present] at member
      cases member
  | some batch =>
    have ok := sound.batchOk batch present
    rw [mem_rows present] at rowOk
    rw [updateRow,reopen_update present]
    refine put_sound sound.toLive ⟨?_,fun item member => ?_,fun item member => ?_,fun complete => nomatch complete⟩
    · dsimp only
      rw [map_map,show UploadItem.id ∘ (fun item => if item.id = id then f item else item) = UploadItem.id from ?_]
      · exact ok.once
      · funext item
        rw [Function.comp_apply]
        split
        · exact same item
        · rfl
    · obtain ⟨original,inside,rfl⟩ := mem_map.mp member
      split
      · rw [same]; exact ok.fresh original inside
      · exact ok.fresh original inside
    · obtain ⟨original,inside,rfl⟩ := mem_map.mp member
      split
      · next named => exact rowOk original inside named
      · exact ok.rowOk original inside

def requeue (item : UploadItem) : UploadItem := { item with status := .queued, uploadedFileId := none }

theorem retry_queued (sound : Sound s) (wanted : ∃ item ∈ row? s id, canRetry item) :
    Sound (reopen (updateRow id requeue { s with abortedUploadItemIds := removeId id s.abortedUploadItemIds })) := by
  obtain ⟨item,found,ended,file,kept⟩ := wanted
  obtain ⟨member,named⟩ := row_some found
  have dropped : Sound { s with abortedUploadItemIds := removeId id s.abortedUploadItemIds } := sound.congr rfl rfl rfl rfl rfl
  refine reopen_sound dropped (fun _ => rfl) (fun other inside same => ?_)
  cases inj_on_of_nodup_map sound.once inside member (same.trans named.symm)
  have ok := sound.rowOk member
  refine ⟨fun _ => ⟨file,fun busy => ?_⟩,ok.reprocess,ok.polled,
    fun wanted => absurd (kept.symm.trans wanted) (by decide),fun file busy => ?_⟩
  · rcases ended with ended | ended <;> exact absurd ((ok.held file busy).symm.trans ended) (nomatch ·)
  · rcases ended with ended | ended <;> exact absurd ((ok.held file busy).symm.trans ended) (nomatch ·)

theorem retry_sound (sound : Sound s) : Sound (retryUploadItem id s) := by
  unfold retryUploadItem
  split
  · next wanted => exact pump_sound (retry_queued sound wanted)
  · exact sound

theorem reattach_sound (sound : Sound s) (file : LocalFile) : Sound (reattachUploadFile id file s) := by
  unfold reattachUploadFile
  split
  · next wanted =>
    obtain ⟨item,found,wanted,_⟩ := wanted
    obtain ⟨member,named⟩ := row_some found
    refine pump_sound (reopen_sound sound (fun _ => rfl) (fun other inside same => ?_))
    cases inj_on_of_nodup_map sound.once inside member (same.trans named.symm)
    obtain ⟨_,first,idle,unpolled⟩ := (sound.rowOk member).reselect wanted
    exact ⟨fun queued => (nomatch queued),fun reprocess => absurd (first.symm.trans reprocess) (by decide),
      fun busy => absurd busy unpolled,fun wanted => (nomatch wanted),fun _ _ => rfl⟩
  · exact sound

theorem batch_idle (none_ : s.batch = none) (sound : Sound s) (kept : s.stored = some batch) : s.workers = [] ∧ s.resumes = [] :=
  sound.idle none_ (by rw [kept]; exact (nomatch ·))

theorem no_running : ¬running [] id := by
  rintro ⟨worker,member,_⟩
  cases member

theorem no_polling : ¬polling [] id := by
  rintro ⟨resume,member,_⟩
  cases member

theorem RowOk.alone (queued : item.status ≠ .queued) (reprocess : item.isReprocess = false)
    (reselect : item.needsFileReselect = true → item.status = .error ∨ item.status = .cancelled) : RowOk [] [] item where
  waiting status := absurd status queued
  reprocess wanted := absurd (reprocess.symm.trans wanted) (by decide)
  polled busy := absurd busy no_polling
  reselect wanted := ⟨reselect wanted,reprocess,no_running,no_polling⟩
  held _ busy := absurd busy no_running

theorem reconcile_id : (reconcileRestoredItem item).id = item.id := by
  unfold reconcileRestoredItem
  split
  · rfl
  · split
    · split <;> rfl
    · rfl

theorem reconcile_alone (reselect : item.needsFileReselect = true → item.status = .error ∨ item.status = .cancelled) :
    RowOk [] [] (reconcileRestoredItem item) := by
  unfold reconcileRestoredItem
  split
  · exact .alone (nomatch ·) rfl (fun _ => .inr rfl)
  · next unqueued =>
    split
    · split
      · exact .alone (nomatch ·) rfl (fun _ => .inl rfl)
      · exact .alone (nomatch ·) rfl (fun _ => .inl rfl)
    · exact .alone unqueued rfl reselect

theorem reconcile_unqueued : (reconcileRestoredItem item).status ≠ .queued := by
  unfold reconcileRestoredItem
  split
  · exact (nomatch ·)
  · next unqueued =>
    split
    · split <;> exact (nomatch ·)
    · exact unqueued

theorem restored_ok (ok : StoredOk created batch) (same : ∀ item, (f item).id = item.id)
    (alone : ∀ item ∈ batch.items, RowOk [] [] (f item)) (unqueued : ∀ item ∈ batch.items, (f item).status ≠ .queued) :
    BatchOk created [] [] { batch with items := batch.items.map f } where
  once := by
    dsimp only
    rw [map_map,show UploadItem.id ∘ f = UploadItem.id from funext same]
    exact ok.once
  fresh item member := by
    obtain ⟨original,inside,rfl⟩ := mem_map.mp member
    rw [same]
    exact ok.fresh original inside
  rowOk item member := by
    obtain ⟨original,inside,rfl⟩ := mem_map.mp member
    exact alone original inside
  complete _ item member := by
    obtain ⟨original,inside,rfl⟩ := mem_map.mp member
    exact unqueued original inside

theorem restore_sound (sound : Sound s) : Sound (restoreUploadBatchFromStorage s) := by
  unfold restoreUploadBatchFromStorage
  split
  · exact sound
  · next unopened =>
    have none_ : s.batch = none := by
      by_contra some_
      exact unopened (.inl some_)
    dsimp only
    split
    · exact sound.congr rfl rfl rfl rfl rfl
    · next persisted kept =>
      obtain ⟨workers,resumes⟩ := batch_idle none_ sound kept
      have ok := sound.stored persisted kept
      split
      · exact ⟨⟨sound.batchOk,sound.workers,sound.resumes⟩,fun _ member => (nomatch member),fun _ kept => absurd rfl kept⟩
      · split
        · next complete =>
          refine put_sound (s := { s with restoreStarted := true }) ⟨sound.batchOk,sound.workers,sound.resumes⟩ ?_
          dsimp only
          rw [workers,resumes]
          exact restored_ok (f := internalFromPersisted) ok (fun _ => rfl)
            (fun item member => .alone (ok.complete complete item member) rfl (ok.reselect item member)) (ok.complete complete)
        · refine complete_sound (processing_sound
            (put_sound (s := { s with restoreStarted := true }) ⟨sound.batchOk,sound.workers,sound.resumes⟩ ?_))
          dsimp only
          rw [workers,resumes]
          exact restored_ok (f := reconcileRestoredItem) ok (fun _ => reconcile_id)
            (fun item member => reconcile_alone (ok.reselect item member)) (fun _ _ => reconcile_unqueued)

theorem reload_sound (sound : Sound s) : Sound (reload s) where
  batchOk _ member := nomatch member
  workers := ⟨fun _ member => (nomatch member),fun _ _ _ _ present => (nomatch present)⟩
  resumes _ member := nomatch member
  stored := sound.stored
  idle _ _ := ⟨rfl,rfl⟩

theorem removeBatchItem_sound (sound : Sound s) : Sound (removeUploadBatchItem id s) := by
  unfold removeUploadBatchItem
  split
  · exact remove_sound sound
  · exact sound

theorem step_sound {e : Event} (sound : Sound s) (fired : step s e = some next) : Sound next := by
  cases e with
  | tick ms => cases fired; exact sound.congr rfl rfl rfl rfl rfl
  | sample sample => cases fired; exact sound.congr rfl rfl rfl rfl rfl
  | startUploadBatch entries folder => cases fired; exact startBatch_sound sound entries folder
  | setUploadBatchPaused paused => cases fired; exact batchPaused_sound sound paused
  | setUploadItemPaused itemId paused => cases fired; exact itemPaused_sound sound paused
  | cancelUploadItem itemId => cases fired; exact cancel_sound sound
  | reprocessCancelled => cases fired; exact cancelAll_sound sound
  | clearCancelledHlsReprocessItems => cases fired; exact clear_sound sound
  | removeUploadBatchItem itemId => cases fired; exact removeBatchItem_sound sound
  | dismissUploadBatch => cases fired; exact dismiss_sound sound
  | retryUploadItem itemId => cases fired; exact retry_sound sound
  | reattachUploadFile uploadId file => cases fired; exact reattach_sound sound file
  | trackFiles files => cases fired; exact track_sound sound files
  | reload => cases fired; exact reload_sound sound
  | restoreUploadBatchFromStorage => cases fired; exact restore_sound sound
  | jobsListed active =>
    obtain ⟨_,same⟩ := Option.ite_none_right_eq_some.mp fired
    cases same
    exact jobs_sound sound active
  | pump k =>
    simp only [step] at fired
    split at fired
    · obtain ⟨_,same⟩ := Option.ite_none_right_eq_some.mp fired
      cases same
      exact pumpRun_sound (sound.congr rfl rfl rfl rfl rfl)
    · cases fired
  | settled =>
    obtain ⟨_,same⟩ := Option.ite_none_right_eq_some.mp fired
    cases same
    exact settle_sound (sound.congr rfl rfl rfl rfl rfl)
  | worker i event =>
    obtain ⟨worker,found,fired⟩ := Option.bind_eq_some_iff.mp fired
    exact worker_sound sound found (workerStep_worked fired)
  | resume j event =>
    obtain ⟨resume,found,fired⟩ := Option.bind_eq_some_iff.mp fired
    exact resumed_sound sound found (resumeStep_resumed fired)

theorem start_sound : Sound start where
  batchOk _ member := nomatch member
  workers := ⟨fun _ member => (nomatch member),fun _ _ _ _ present => (nomatch present)⟩
  resumes _ member := nomatch member
  stored _ member := nomatch member
  idle _ _ := ⟨rfl,rfl⟩

end Ownly.Tray
