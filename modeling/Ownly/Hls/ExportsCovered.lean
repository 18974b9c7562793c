import Ownly.Hls.Exports

-- Whoever is still to write the status of a file that waits for its export, through
-- requests, workers and zip jobs.
namespace Ownly.Hls.Exports
open Jobs (JobKind BackgroundJob EnqueueRequest EnqueuePhase)
open Files.Waveforms (waiting Answers advance_answers)
open List Option KeyMap

structure Awaits (sys : System) (fileId : String) (key : Nat) (request : Request) (call : Nat) (phase : EnqueuePhase) : Prop where
  held : sys.requests.get key = some request
  about : request.fileId = fileId
  at_ : request.phase = .enqueuing call
  asked : sys.queue.enqueues[call]? = some phase
  waits : waiting phase = some (exportRequest request.userId fileId)

def Pending (sys : System) (fileId : String) : Prop := ∃ key request call phase, Awaits sys fileId key request call phase

def Cold (files : Files) : Prop := ∀ fileId row, files.get fileId = some row → row.waits = true → row.exportReady = false

structure Sound (sys : System) : Prop where
  running : ∀ key run, sys.runs.get key = some run →
    ∃ job, sys.queue.jobs.get run.jobId = some job ∧ job.status = .running ∧ job.kind = .hlsExport
  alone : ∀ key other run run', sys.runs.get key = some run → sys.runs.get other = some run' → run.jobId = run'.jobId → key = other
  cold : Cold sys.files

def Covered (sys : System) : Prop :=
  ∀ fileId, waits sys fileId = true → served sys fileId = true ∨ zipped sys.zips fileId = true ∨ Pending sys fileId

section Frames
variable {sys next : System} {fileId id jobId : String} {row : ExportRow} {files : Files} {job : BackgroundJob} {runs : KeyMap Nat Run}
  {zips : KeyMap Nat Zip} {key : Nat} {request : Request} {change : ExportRow → ExportRow} {lost : Bool}

theorem waits_iff : waits sys fileId = true ↔ ∃ row, sys.files.get fileId = some row ∧ row.waits = true := Option.any_eq_true _ _

theorem carried_iff : carried runs jobId job = true ↔
    ∀ key run, runs.get key = some run → run.jobId = jobId → run.phase.goesOn job = true := by
  unfold carried
  rw [Bool.not_eq_true',← Bool.not_eq_true,any_iff]
  constructor
  · intro none_ key run ran same
    by_contra stops
    exact none_ ⟨key,run,ran,by simp [same,stops]⟩
  · rintro all ⟨key,run,ran,holds⟩
    rw [Bool.and_eq_true,decide_eq_true_iff] at holds
    have goes := all key run ran holds.1
    simp [goes] at holds

theorem served_iff : served sys fileId = true ↔
    ∃ jobId job, sys.queue.jobs.get jobId = some job ∧ isExportOf fileId job ∧ carried sys.runs jobId job = true := by
  simp [served,any_iff]

theorem zipped_iff : zipped zips fileId = true ↔ ∃ key zip, zips.get key = some zip ∧ zip.fileId = fileId ∧ zip.stage.isSome = true := by
  simp [zipped,any_iff]

theorem served_kept (served_ : served sys fileId = true) (keep : ∀ jobId job, sys.queue.jobs.get jobId = some job → isExportOf fileId job →
    carried sys.runs jobId job = true → ∃ job', next.queue.jobs.get jobId = some job' ∧ isExportOf fileId job' ∧
      carried next.runs jobId job' = true) : served next fileId = true := by
  obtain ⟨jobId,job,present,about,goes⟩ := served_iff.mp served_
  obtain ⟨job',present',about',goes'⟩ := keep jobId job present about goes
  exact served_iff.mpr ⟨jobId,job',present',about',goes'⟩

theorem zipped_kept (zipped_ : zipped sys.zips fileId = true) (keep : ∀ key zip, sys.zips.get key = some zip → zip.stage.isSome = true →
    ∃ zip', zips.get key = some zip' ∧ zip'.fileId = zip.fileId ∧ zip'.stage.isSome = true) : zipped zips fileId = true := by
  obtain ⟨key,zip,there,about,stage⟩ := zipped_iff.mp zipped_
  obtain ⟨zip',there',about',stage'⟩ := keep key zip there stage
  exact zipped_iff.mpr ⟨key,zip',there',about'.trans about,stage'⟩

theorem pending_kept (pending : Pending sys fileId) (keep : ∀ key request call, sys.requests.get key = some request →
      request.phase = .enqueuing call → next.requests.get key = some request)
    (calls : ∀ (call : Nat) phase, sys.queue.enqueues[call]? = some phase → next.queue.enqueues[call]? = some phase) :
    Pending next fileId := by
  obtain ⟨key,request,call,phase,awaits⟩ := pending
  exact ⟨key,request,call,phase,keep key request call awaits.held awaits.at_,awaits.about,awaits.at_,calls call phase awaits.asked,awaits.waits⟩

theorem pending_same (pending : Pending sys fileId) (requests : next.requests = sys.requests)
    (calls : next.queue.enqueues = sys.queue.enqueues) : Pending next fileId :=
  pending_kept pending (fun _ _ _ held _ => requests ▸ held) (fun _ _ asked => calls ▸ asked)

theorem covered_rows (covered : Covered sys) (fewer : ∀ id, waits {sys with files := files} id = true → waits sys id = true) :
    Covered {sys with files := files} := by
  intro id waits_
  rcases covered id (fewer id waits_) with served_ | zipped_ | pending
  · exact .inl served_
  · exact .inr (.inl zipped_)
  · exact .inr (.inr (pending_same pending rfl rfl))

theorem modified (present : (files.modify fileId change).get id = some row) :
    (id = fileId ∧ ∃ old, files.get fileId = some old ∧ row = change old) ∨ (id ≠ fileId ∧ files.get id = some row) := by
  rw [KeyMap.modify,get_mapEntries] at present
  obtain ⟨old,there,same⟩ := map_eq_some_iff.mp present
  split at same
  · rename_i equal
    subst equal
    exact .inl ⟨rfl,old,there,same.symm⟩
  · rename_i other
    exact .inr ⟨other,by rw [there,same]⟩

theorem written (present : (write lost fileId change files).get id = some row) :
    (id = fileId ∧ lost = false ∧ ∃ old, files.get fileId = some old ∧ row = change old) ∨
      ((id ≠ fileId ∨ lost = true) ∧ files.get id = some row) := by
  unfold write at present
  cases lost with
  | true => exact .inr ⟨.inr rfl,present⟩
  | false =>
    rcases modified present with ⟨same,changed⟩ | ⟨other,there⟩
    · exact .inl ⟨same,rfl,changed⟩
    · exact .inr ⟨.inl other,there⟩

section
variable (cold : Cold files) (fits : ∀ old, files.get fileId = some old → (change old).waits = true → (change old).exportReady = false)
include cold fits

theorem cold_modified :
    Cold (files.modify fileId change) := by
  intro id row present waits_
  rcases modified present with ⟨_,old,there,rfl⟩ | ⟨_,there⟩
  · exact fits old there waits_
  · exact cold id row there waits_

theorem cold_written :
    Cold (write lost fileId change files) := by
  unfold write
  split
  · exact cold
  · exact cold_modified cold fits

end

theorem Outcome.cold (outcome : Outcome) (old : ExportRow) (cold : old.waits = true → old.exportReady = false) :
    (outcome.write old).waits = true → (outcome.write old).exportReady = false := by
  cases outcome with
  | progress percent => exact cold
  | ready size => intro waits_; cases waits_
  | failed message => intro _; rfl

theorem Outcome.final_settles {outcome : Outcome} (final : outcome.final = true) (old : ExportRow) : (outcome.write old).waits = false := by
  cases outcome with
  | progress percent => cases final
  | ready size => rfl
  | failed message => rfl

theorem Outcome.progress_same {outcome : Outcome} (early : outcome.final = false) (old : ExportRow) : (outcome.write old).waits = old.waits := by
  cases outcome with
  | progress percent => rfl
  | ready size => cases early
  | failed message => cases early

end Frames

section Requests
variable {sys next : System} {fileId userId : String} {row : ExportRow} {requests : KeyMap Nat Request} {key : Nat} {request : Request}
  {asked : EnqueueRequest}

theorem Awaits.awaits {call : Nat} {phase : EnqueuePhase} (awaits : Awaits sys fileId key request call phase) :
    request.awaits sys.queue.enqueues = true := by
  rw [Request.awaits,awaits.at_]
  dsimp only
  rw [awaits.asked,bind_some,awaits.waits]
  rfl

theorem requests_pending (pending : Pending sys fileId) (others : ∀ other, other ≠ key → requests.get other = sys.requests.get other)
    (idle : ∀ request, sys.requests.get key = some request → request.awaits sys.queue.enqueues = false) :
    Pending {sys with requests := requests} fileId := by
  obtain ⟨other,request,call,phase,awaits⟩ := pending
  have ne : other ≠ key := by
    rintro rfl
    have idle := idle request awaits.held
    rw [awaits.awaits] at idle
    cases idle
  exact ⟨other,request,call,phase,(others other ne).trans awaits.held,awaits.about,awaits.at_,awaits.asked,awaits.waits⟩

section
variable (sound : Sound sys) (covered : Covered sys)
include sound covered

theorem requests_kept (others : ∀ other, other ≠ key → requests.get other = sys.requests.get other)
    (idle : ∀ request, sys.requests.get key = some request → request.awaits sys.queue.enqueues = false) :
    Sound {sys with requests := requests} ∧ Covered {sys with requests := requests} := by
  refine ⟨⟨sound.running,sound.alone,sound.cold⟩,fun id waits_ => ?_⟩
  rcases covered id waits_ with served_ | zipped_ | pending
  · exact .inl served_
  · exact .inr (.inl zipped_)
  · exact .inr (.inr (requests_pending pending others idle))

theorem ended_kept
    (idle : ∀ request, sys.requests.get key = some request → request.awaits sys.queue.enqueues = false) :
    Sound (sys.ended key) ∧ Covered (sys.ended key) :=
  requests_kept sound covered (fun _ ne => get_remove_ne ne) idle

theorem store_kept (fired : step sys (.store fileId row) = some next) : Sound next ∧ Covered next := by
  simp only [step] at fired
  split at fired
  · cases fired
  · rename_i free
    cases fired
    have idle : row.waits = false := by
      cases status : row.status with
      | none => rw [ExportRow.waits,status]; rfl
      | some _ => simp [status] at free
    refine ⟨⟨sound.running,sound.alone,?_⟩,covered_rows covered (fun id waits_ => ?_)⟩
    · intro id found present waits_
      rw [get_set] at present
      split at present
      · cases present
        rw [idle] at waits_
        cases waits_
      · exact sound.cold id found present waits_
    · obtain ⟨found,present,holds⟩ := waits_iff.mp waits_
      dsimp only at present
      rw [get_set] at present
      split at present
      · cases present
        rw [idle] at holds
        cases holds
      · exact waits_iff.mpr ⟨found,present,holds⟩

theorem rows_kept {change : ExportRow → ExportRow}
    (fewer : ∀ old : ExportRow, (change old).waits = true → old.waits = true ∧ (change old).exportReady = old.exportReady) :
    Sound {sys with files := sys.files.modify fileId change} ∧ Covered {sys with files := sys.files.modify fileId change} := by
  refine ⟨⟨sound.running,sound.alone,cold_modified sound.cold (fun old there waits_ => ?_)⟩,covered_rows covered (fun id waits_ => ?_)⟩
  · obtain ⟨before,same⟩ := fewer old waits_
    exact same.trans (sound.cold fileId old there before)
  · obtain ⟨found,present,holds⟩ := waits_iff.mp waits_
    rcases modified present with ⟨rfl,old,there,rfl⟩ | ⟨_,there⟩
    · exact waits_iff.mpr ⟨old,there,(fewer old holds).1⟩
    · exact waits_iff.mpr ⟨found,there,holds⟩

theorem queueing_kept (held : sys.requests.get key = some request)
    (at_ : request.phase = .queueing) (moved : advance sys key request = some next) : Sound next ∧ Covered next := by
  rw [advance,at_] at moved
  cases moved
  refine ⟨⟨sound.running,sound.alone,cold_modified sound.cold (fun _ _ _ => rfl)⟩,fun id waits_ => ?_⟩
  by_cases own : id = request.fileId
  · refine .inr (.inr ⟨key,{request with phase := .enqueuing sys.queue.enqueues.length},sys.queue.enqueues.length,
      .counting (exportRequest request.userId request.fileId),get_set_self,own.symm,rfl,getElem?_concat_length,?_⟩)
    rw [own]
    rfl
  · obtain ⟨found,present,holds⟩ := waits_iff.mp waits_
    have before : waits sys id = true := by
      rcases modified present with ⟨same,_⟩ | ⟨_,there⟩
      · exact absurd same own
      · exact waits_iff.mpr ⟨found,there,holds⟩
    rcases covered id before with served_ | zipped_ | pending
    · exact .inl served_
    · exact .inr (.inl zipped_)
    · refine .inr (.inr (pending_kept pending (fun other request' call held' at_' => ?_) (fun call phase asked => ?_)))
      · have ne : other ≠ key := by
          rintro rfl
          rw [held] at held'
          cases held'
          rw [at_] at at_'
          cases at_'
        exact (get_set_ne ne).trans held'
      · exact (getElem?_append_left (List.getElem?_eq_some_iff.mp asked).1).trans asked

theorem advance_kept (held : sys.requests.get key = some request)
    (moved : advance sys key request = some next) : Sound next ∧ Covered next := by
  have idle : request.awaits sys.queue.enqueues = false →
      ∀ other, sys.requests.get key = some other → other.awaits sys.queue.enqueues = false := by
    intro quiet other same
    rw [held] at same
    cases same
    exact quiet
  cases at_ : request.phase with
  | loading =>
    have idle := idle (by rw [Request.awaits,at_])
    rw [advance,at_] at moved
    dsimp only at moved
    split at moved
    · cases moved
      exact ended_kept sound covered idle
    · split at moved
      · cases moved
        exact ended_kept sound covered idle
      · cases moved
        exact requests_kept sound covered (fun _ ne => get_set_ne ne) idle
  | queueing => exact queueing_kept sound covered held at_ moved
  | enqueuing call =>
    rw [advance,at_] at moved
    dsimp only at moved
    split at moved
    · rename_i result answered
      cases moved
      refine ended_kept sound covered (idle ?_)
      rw [Request.awaits,at_]
      dsimp only
      rw [answered]
      rfl
    · cases moved

end

theorem settled_cases (settled_ : settled sys fileId = true) (waits_ : waits sys fileId = true) :
    served sys fileId = true ∨ zipped sys.zips fileId = true := by
  rw [settled,waits_] at settled_
  simpa using settled_

section
variable (sound : Sound sys) (covered : Covered sys)
include sound covered

theorem fail_kept (cared : Cared sys (.fail key)) (fired : step sys (.fail key) = some next) :
    Sound next ∧ Covered next := by
  obtain ⟨request,held,rfl⟩ := map_eq_some_iff.mp fired
  cases awaits : request.awaits sys.queue.enqueues with
  | false =>
    refine ended_kept sound covered (fun other same => ?_)
    rw [held] at same
    cases same
    exact awaits
  | true =>
    have settled_ := cared request held awaits
    refine ⟨⟨sound.running,sound.alone,sound.cold⟩,fun id waits_ => ?_⟩
    by_cases own : id = request.fileId
    · subst own
      rcases settled_cases settled_ waits_ with served_ | zipped_
      · exact .inl served_
      · exact .inr (.inl zipped_)
    · rcases covered id waits_ with served_ | zipped_ | ⟨other,request',call,phase,awaits'⟩
      · exact .inl served_
      · exact .inr (.inl zipped_)
      · have ne : other ≠ key := by
          rintro rfl
          have same := awaits'.held
          rw [held] at same
          cases same
          exact own awaits'.about.symm
        exact .inr (.inr ⟨other,request',call,phase,(get_remove_ne ne).trans awaits'.held,awaits'.about,awaits'.at_,awaits'.asked,
          awaits'.waits⟩)

theorem post_kept (fired : step sys (.post key userId fileId) = some next) :
    Sound next ∧ Covered next := by
  simp only [step] at fired
  split at fired
  · cases fired
  · rename_i free
    cases fired
    refine requests_kept sound covered (fun _ ne => get_set_ne ne) (fun request held => ?_)
    rw [KeyMap.contains,held] at free
    exact absurd rfl free

theorem ask_kept (fired : step sys (.ask asked) = some next) : Sound next ∧ Covered next := by
  simp only [step] at fired
  split at fired
  · cases fired
  · cases fired
    refine ⟨⟨sound.running,sound.alone,sound.cold⟩,fun id waits_ => ?_⟩
    rcases covered id waits_ with served_ | zipped_ | pending
    · exact .inl served_
    · exact .inr (.inl zipped_)
    · exact .inr (.inr (pending_kept pending (fun _ _ _ held _ => held)
        (fun call phase asked => (getElem?_append_left (List.getElem?_eq_some_iff.mp asked).1).trans asked)))

end

end Requests

section Calls
variable {sys next : System} {fileId jobId : String} {call : Nat} {now : Int} {phase phase' : EnqueuePhase} {after : Jobs.Table}
  {result : Except AppError String}

theorem bare_adds (unused : sys.queue.jobs.get jobId = none) (ran : Jobs.advance now jobId sys.queue.jobs phase = some (.done result,sys.queue.jobs)) :
    adds now jobId sys.queue.jobs phase = false := by
  rw [adds,ran]
  cases result with
  | ok id => simp [KeyMap.contains,unused]
  | error e => rfl

theorem new_served (sound : Sound sys) (unused : sys.queue.jobs.get jobId = none) {queue : Jobs.System}
    (present : queue.jobs.get jobId = some (Jobs.queuedJob now (exportRequest userId fileId))) : served {sys with queue := queue} fileId = true := by
  refine served_iff.mpr ⟨jobId,_,present,⟨rfl,rfl,.inl rfl⟩,carried_iff.mpr (fun key run ran same => ?_)⟩
  obtain ⟨job,there,_⟩ := sound.running key run ran
  rw [same,unused] at there
  cases there

section
variable (sound : Sound sys) (covered : Covered sys) (cared : Cared sys (.enqueue call now jobId))
include sound covered cared

theorem called_kept
    (asked : sys.queue.enqueues[call]? = some phase) (unused : sys.queue.jobs.get jobId = none)
    (ran : Jobs.advance now jobId sys.queue.jobs phase = some (phase',after)) :
    let next := {sys with queue := ⟨after,sys.queue.enqueues.set call phase',sys.queue.claims⟩}
    Sound next ∧ Covered next := by
  intro next
  have answers := advance_answers unused ran
  have rows := answers.kept unused
  have serve : ∀ id, served sys id = true → served next id = true :=
    fun id served_ => served_kept served_ (fun jobId job present about goes => ⟨job,rows jobId job present,about,goes⟩)
  have placed : (sys.queue.enqueues.set call phase')[call]? = some phase' :=
    getElem?_set_self (List.getElem?_eq_some_iff.mp asked).1
  refine ⟨⟨fun key run held => ?_,sound.alone,sound.cold⟩,fun id waits_ => ?_⟩
  · obtain ⟨job,present,facts⟩ := sound.running key run held
    exact ⟨job,rows run.jobId job present,facts⟩
  · rcases covered id waits_ with served_ | zipped_ | ⟨key,request,other,phase'',awaits⟩
    · exact .inl (serve id served_)
    · exact .inr (.inl zipped_)
    · by_cases same : call = other
      · subst same
        have here := awaits.asked
        rw [asked] at here
        cases here
        have waits := awaits.waits
        -- where the call ends without a job of its own, somebody else is there
        have bare : ∀ result, phase' = .done result → after = sys.queue.jobs → served next id = true ∨ zipped next.zips id = true := by
          rintro result rfl rfl
          have adds_ := bare_adds unused ran
          rcases cared phase asked _ waits id rfl rfl with adds' | settled_
          · rw [adds_] at adds'
            cases adds'
          · exact (settled_cases settled_ waits_).imp_left (serve id)
        cases answers with
        | waits _ _ asking waited still =>
          rw [waited] at waits
          cases waits
          exact .inr (.inr ⟨key,request,call,phase',awaits.held,awaits.about,awaits.at_,placed,still⟩)
        | full asking result many => exact (bare result rfl rfl).imp_right .inl
        | there _ asking result id job waited present live about => exact (bare result rfl rfl).imp_right .inl
        | inserted asking result =>
          cases waits
          exact .inl (new_served sound unused get_set_self)
      · refine .inr (.inr ⟨key,request,other,phase'',awaits.held,awaits.about,awaits.at_,?_,awaits.waits⟩)
        exact (getElem?_set_ne same).trans awaits.asked

theorem enqueue_kept
    (fired : step sys (.enqueue call now jobId) = some next) : Sound next ∧ Covered next := by
  simp only [step] at fired
  split at fired
  · rename_i enabled
    obtain ⟨queue,moved,rfl⟩ := map_eq_some_iff.mp fired
    simp only [Jobs.step] at moved
    split at moved
    · cases moved
    · rename_i phase asked
      split at moved
      · cases moved
      · rename_i phase' after ran
        cases moved
        exact called_kept sound covered cared asked enabled.2 ran
  · cases fired

end

end Calls

section Workers
variable {sys next : System} {id fileId jobId workerId : String} {job other : BackgroundJob} {now : Int} {key : Nat} {run : Run}
  {phase : RunPhase} {outcome : Outcome} {lost : Option String} {update : Jobs.Update} {row : Option ExportRow} {files : Files}
  {queue : Jobs.System} {runs : KeyMap Nat Run} {statement : Jobs.Statement}

theorem statement_kind (statement : Jobs.Statement) (job : BackgroundJob) :
    (statement.update.set job).kind = job.kind ∧ (statement.update.set job).resourceId = job.resourceId := by
  cases statement with
  | _ => exact ⟨rfl,rfl⟩

theorem goesOn_same (phase : RunPhase) (attempts : other.attempts = job.attempts) (limit : other.maxAttempts = job.maxAttempts) :
    phase.goesOn other = phase.goesOn job := by
  cases phase with
  | _ => simp only [RunPhase.goesOn,attempts,limit]

theorem closing_next {was : RunPhase} (closes : was.closing now jobId = some update) : was.next row outcome none = none := by
  cases was with
  | exporting _ | reading => cases closes
  | completing | failing _ | erring _ => rfl

theorem closing_guard {was : RunPhase} (closes : was.closing now jobId = some update) (guard : update.guard id other = true) : id = jobId := by
  cases was with
  | exporting _ | reading => cases closes
  | completing | failing _ =>
    cases closes
    exact (of_decide_eq_true guard).1
  | erring message =>
    rw [RunPhase.closing] at closes
    split at closes <;> cases closes <;> exact (of_decide_eq_true guard).1

theorem failJob_requeues (attempts : job.attempts < job.maxAttempts) (message : String) :
    (isExportOf fileId job → isExportOf fileId ((Jobs.failJob now jobId message).set job)) := by
  rintro ⟨kind,about,_⟩
  refine ⟨kind,about,.inl ?_⟩
  change (BackgroundJob.retryStatus job) = .queued
  rw [BackgroundJob.retryStatus,if_neg (by omega)]

theorem closing_requeues {was : RunPhase} (closes : was.closing now jobId = some update) (goes : was.goesOn job = true)
    (about : isExportOf fileId job) : isExportOf fileId (update.set job) := by
  cases was with
  | exporting _ | reading => cases closes
  | completing => cases goes
  | failing message =>
    cases closes
    exact failJob_requeues (of_decide_eq_true goes) message about
  | erring message =>
    rw [RunPhase.goesOn,Bool.and_eq_true,Bool.not_eq_true'] at goes
    rw [RunPhase.closing,goes.2] at closes
    cases closes
    exact failJob_requeues (of_decide_eq_true goes.1) message about

theorem next_goes {was : RunPhase} (steps : was.next row outcome none = some phase) (goes : was.goesOn job = true)
    (stops : phase.goesOn job = false) : (was = .exporting .working ∧ outcome.final = true) ∨
      (was = .reading ∧ ∃ found, row = some found ∧ found.exportReady = true) := by
  cases was with
  | exporting stage =>
    cases stage with
    | marking => cases steps; cases stops
    | working =>
      cases final : outcome.final with
      | true => exact .inl ⟨rfl,rfl⟩
      | false =>
        rw [RunPhase.next,final] at steps
        cases steps
        cases stops
  | reading =>
    cases row with
    | none =>
      cases steps
      exact absurd (goes.symm.trans stops) (by decide)
    | some found =>
      cases ready : found.exportReady with
      | true => exact .inr ⟨rfl,found,rfl,ready⟩
      | false =>
        simp only [RunPhase.next,judge,ready] at steps
        cases steps
        exact absurd (goes.symm.trans stops) (by decide)
  | completing | failing _ | erring _ => cases steps

theorem own_served (sound : Sound sys) (present : sys.queue.jobs.get run.jobId = some job) (status : job.status = .running)
    (kind : job.kind = .hlsExport) (about : job.resourceId = some fileId) (held : sys.runs.get key = some run)
    (goes : phase.goesOn job = true) :
    served {sys with files := files,runs := sys.runs.set key {run with phase := phase}} fileId = true := by
  refine served_iff.mpr ⟨run.jobId,job,present,⟨kind,about,.inr status⟩,carried_iff.mpr (fun other found ran same => ?_)⟩
  dsimp only at ran
  rw [get_set] at ran
  split at ran
  · cases ran
    exact goes
  · rename_i ne
    exact absurd (sound.alone other key found run ran held same) ne

theorem rerun_served (served_ : served sys fileId = true) (present : sys.queue.jobs.get run.jobId = some job)
    (held : sys.runs.get key = some run)
    (goes : job.resourceId = some fileId → run.phase.goesOn job = true → phase.goesOn job = true) :
    served {sys with files := files,runs := sys.runs.set key {run with phase := phase}} fileId = true := by
  refine served_kept served_ (fun jobId found there about carried_ => ⟨found,there,about,carried_iff.mpr (fun other run' ran same => ?_)⟩)
  have all := carried_iff.mp carried_
  dsimp only at ran
  rw [get_set] at ran
  split at ran
  · cases ran
    subst same
    rw [present] at there
    cases there
    exact goes about.2.1 (all key run held rfl)
  · exact all other run' ran same

theorem fewer_served (served_ : served sys fileId = true) (fewer : ∀ key run, runs.get key = some run → sys.runs.get key = some run) :
    served {sys with runs := runs} fileId = true :=
  served_kept served_ (fun _ job present about goes => ⟨job,present,about,carried_iff.mpr (fun key run ran same =>
    carried_iff.mp goes key run (fewer key run ran) same)⟩)

theorem removed_before (ran : (sys.runs.remove key).get other_ = some run) : other_ ≠ key ∧ sys.runs.get other_ = some run := by
  by_cases same : other_ = key
  · rw [same,get_remove_self] at ran
    cases ran
  · exact ⟨same,(get_remove_ne same).symm.trans ran⟩

theorem lose_kept (sound : Sound sys) (covered : Covered sys) : Sound {sys with runs := sys.runs.remove key} ∧
    Covered {sys with runs := sys.runs.remove key} := by
  refine ⟨⟨fun other run ran => sound.running other run (removed_before ran).2,fun a b run run' ran ran' same =>
    sound.alone a b run run' (removed_before ran).2 (removed_before ran').2 same,sound.cold⟩,fun id waits_ => ?_⟩
  rcases covered id waits_ with served_ | zipped_ | pending
  · exact .inl (fewer_served served_ (fun _ _ ran => (removed_before ran).2))
  · exact .inr (.inl zipped_)
  · exact .inr (.inr (pending_same pending rfl rfl))

theorem rerun_sound (sound : Sound sys) (held : sys.runs.get key = some run) (cold : Cold files) :
    Sound {sys with files := files,runs := sys.runs.set key {run with phase := phase}} := by
  have before : ∀ other run', (sys.runs.set key {run with phase := phase}).get other = some run' →
      ∃ old, sys.runs.get other = some old ∧ run'.jobId = old.jobId := by
    intro other run' ran
    rw [get_set] at ran
    split at ran
    · rename_i same
      cases ran
      exact ⟨run,by rw [same]; exact held,rfl⟩
    · exact ⟨run',ran,rfl⟩
  refine ⟨fun other run' ran => ?_,fun a b run' run'' ran ran' same => ?_,cold⟩
  · obtain ⟨old,there,same⟩ := before other run' ran
    rw [same]
    exact sound.running other old there
  · obtain ⟨old,there,about⟩ := before a run' ran
    obtain ⟨old',there',about'⟩ := before b run'' ran'
    exact sound.alone a b old old' there there' (by rw [← about,← about',same])

theorem changed_cold (cold : Cold sys.files) : Cold (execute sys key run job now outcome lost).files := by
  unfold execute
  dsimp only
  split
  · rename_i fileId change about changes
    refine cold_written cold (fun old there => ?_)
    cases at_ : run.phase with
    | exporting stage =>
      rw [at_] at changes
      cases stage with
      | marking => cases changes; exact fun _ => rfl
      | working => cases changes; exact outcome.cold old (cold fileId old there)
    | _ => rw [at_] at changes; cases changes
  · exact cold

theorem changed_waits (waits_ : waits (execute sys key run job now outcome lost) id = true) :
    (job.resourceId = some id ∧ run.phase = .exporting .marking) ∨ (waits sys id = true ∧
      (job.resourceId = some id → lost = none → ¬(run.phase = .exporting .working ∧ outcome.final = true))) := by
  obtain ⟨row,present,holds⟩ := waits_iff.mp waits_
  unfold execute at present
  dsimp only at present
  split at present
  · rename_i fileId change about changes
    rcases written present with ⟨rfl,kept,old,there,rfl⟩ | ⟨away,there⟩
    · cases at_ : run.phase with
      | exporting stage =>
        rw [at_] at changes
        cases stage with
        | marking => exact .inl ⟨about,rfl⟩
        | working =>
          cases changes
          cases final : outcome.final with
          | true =>
            rw [outcome.final_settles final] at holds
            cases holds
          | false =>
            rw [outcome.progress_same final] at holds
            exact .inr ⟨waits_iff.mpr ⟨old,there,holds⟩,fun _ _ both => by cases both.2⟩
      | _ => rw [at_] at changes; cases changes
    · refine .inr ⟨waits_iff.mpr ⟨row,there,holds⟩,fun same kept => ?_⟩
      rw [about] at same
      cases same
      rw [kept] at away
      simp at away
  · rename_i none_
    refine .inr ⟨waits_iff.mpr ⟨row,present,holds⟩,fun about _ both => ?_⟩
    exact none_ id outcome.write about (by rw [both.1]; rfl)

section
variable (sound : Sound sys) (covered : Covered sys)
include sound covered

theorem rerun_kept (cared : Cared sys (.execute key now outcome lost))
    (held : sys.runs.get key = some run) (present : sys.queue.jobs.get run.jobId = some job)
    (steps : run.phase.next (job.resourceId.bind sys.files.get) outcome lost = some phase) :
    Sound (execute sys key run job now outcome lost) ∧ Covered (execute sys key run job now outcome lost) := by
  obtain ⟨found,there,status,kind⟩ := sound.running key run held
  rw [present] at there
  cases there
  have queue : (execute sys key run job now outcome lost).queue = sys.queue := by
    unfold execute
    dsimp only
    split
    · rename_i update kept closes
      rw [closing_next closes] at steps
      cases steps
    · rfl
  have shape : execute sys key run job now outcome lost =
      {sys with files := (execute sys key run job now outcome lost).files,runs := sys.runs.set key {run with phase := phase}} := by
    have runs : (execute sys key run job now outcome lost).runs = sys.runs.set key {run with phase := phase} := by
      unfold execute
      rw [steps]
    rw [← runs]
    have same := queue
    unfold execute at same ⊢
    dsimp only at same ⊢
    rw [same]
  rw [shape]
  refine ⟨rerun_sound sound held (changed_cold sound.cold),fun id waits_ => ?_⟩
  have waits_ : waits (execute sys key run job now outcome lost) id = true := waits_
  rcases changed_waits waits_ with ⟨about,marking⟩ | ⟨before,open_⟩
  · rw [marking] at steps
    cases steps
    exact .inl (own_served sound present status kind about held rfl)
  · rcases covered id before with served_ | zipped_ | pending
    · by_cases goes : job.resourceId = some id → run.phase.goesOn job = true → phase.goesOn job = true
      · exact .inl (rerun_served served_ present held goes)
      · obtain ⟨about,goes⟩ := Classical.not_imp.mp goes
        obtain ⟨goes,stops⟩ := Classical.not_imp.mp goes
        have stops := Bool.not_eq_true _ ▸ stops
        rw [about,bind_some] at steps
        cases lost with
        | some error =>
          rcases cared run held job present id about phase steps goes stops rfl with quiet | zipped_
          · rw [before] at quiet
            cases quiet
          · exact .inr (.inl zipped_)
        | none =>
          rcases next_goes steps goes stops with final | ⟨_,row,there,ready⟩
          · exact absurd final (open_ about rfl)
          · obtain ⟨row',there',holds⟩ := waits_iff.mp before
            rw [there] at there'
            cases there'
            rw [sound.cold id row there holds] at ready
            cases ready
    · exact .inr (.inl zipped_)
    · exact .inr (.inr (pending_same pending rfl rfl))

theorem closed_kept (held : sys.runs.get key = some run)
    (closes : run.phase.closing now run.jobId = some update) :
    let next := {sys with queue := {sys.queue with jobs := (update.run sys.queue.jobs).1},runs := sys.runs.remove key}
    Sound next ∧ Covered next := by
  intro next
  have others : ∀ jobId job, jobId ≠ run.jobId → sys.queue.jobs.get jobId = some job → next.queue.jobs.get jobId = some job := by
    intro jobId job ne present
    change (sys.queue.jobs.mapEntries _).get jobId = _
    rw [get_mapEntries,present,map_some,if_neg (fun guard => ne (closing_guard closes guard))]
  refine ⟨⟨fun other run' ran => ?_,fun a b run' run'' ran ran' same =>
    sound.alone a b run' run'' (removed_before ran).2 (removed_before ran').2 same,sound.cold⟩,fun id waits_ => ?_⟩
  · obtain ⟨ne,ran⟩ := removed_before ran
    obtain ⟨job,present,facts⟩ := sound.running other run' ran
    exact ⟨job,others run'.jobId job (fun same => ne (sound.alone other key run' run ran held same)) present,facts⟩
  · rcases covered id waits_ with served_ | zipped_ | pending
    · refine .inl (served_kept served_ (fun jobId job present about carried_ => ?_))
      have all := carried_iff.mp carried_
      by_cases same : jobId = run.jobId
      · have goes := all key run held same.symm
        refine ⟨if update.guard jobId job then update.set job else job,?_,?_,carried_iff.mpr (fun other run' ran same' => ?_)⟩
        · change (sys.queue.jobs.mapEntries _).get jobId = _
          rw [get_mapEntries,present,map_some]
        · split
          · exact closing_requeues closes goes about
          · exact about
        · obtain ⟨ne,ran⟩ := removed_before ran
          exact absurd (sound.alone other key run' run ran held (same'.trans same)) ne
      · exact ⟨job,others jobId job same present,about,carried_iff.mpr (fun other run' ran same' =>
          all other run' (removed_before ran).2 same')⟩
    · exact .inr (.inl zipped_)
    · exact .inr (.inr (pending_same pending rfl rfl))

theorem execute_kept (cared : Cared sys (.execute key now outcome lost))
    (fired : step sys (.execute key now outcome lost) = some next) : Sound next ∧ Covered next := by
  obtain ⟨run,held,rest⟩ := bind_eq_some_iff.mp fired
  obtain ⟨job,present,rfl⟩ := map_eq_some_iff.mp rest
  cases steps : run.phase.next (job.resourceId.bind sys.files.get) outcome lost with
  | some phase => exact rerun_kept sound covered cared held present steps
  | none =>
    have files : (execute sys key run job now outcome lost).files = sys.files := by
      unfold execute
      dsimp only
      split
      · rename_i fileId change about changes
        cases at_ : run.phase with
        | exporting stage => rw [at_] at steps; cases stage <;> cases steps
        | _ => rw [at_] at changes; cases changes
      · rfl
    have runs : (execute sys key run job now outcome lost).runs = sys.runs.remove key := by
      unfold execute
      rw [steps]
    have whole : execute sys key run job now outcome lost =
        {sys with queue := (execute sys key run job now outcome lost).queue,runs := sys.runs.remove key} := by
      rw [← runs]
      have same := files
      unfold execute at same ⊢
      dsimp only at same ⊢
      rw [same]
    rw [whole]
    unfold execute
    dsimp only
    split
    · rename_i update kept closes
      exact closed_kept sound covered held closes
    · exact lose_kept sound covered

theorem claim_kept {skipped : List String}
    (fired : step sys (.claim now workerId skipped key) = some next) : Sound next ∧ Covered next := by
  simp only [step] at fired
  split at fired
  · cases fired
  rename_i free
  have unused : ∀ run, sys.runs.get key ≠ some run := by
    intro run held
    rw [KeyMap.contains,held] at free
    exact absurd rfl free
  rcases Jobs.claim_cases now workerId skipped sys.queue.jobs with nothing | ⟨jobId,job,present,claimable,handed⟩
  · rw [nothing] at fired
    cases fired
    exact ⟨sound,covered⟩
  · rw [handed] at fired
    cases fired
    -- the job was queued, and so nobody ran it
    have idle : ∀ other run, sys.runs.get other = some run → run.jobId ≠ jobId := by
      rintro other run ran rfl
      obtain ⟨job',present',status,_⟩ := sound.running other run ran
      rw [present] at present'
      cases present'
      rw [claimable.1] at status
      cases status
    have ran_cases : ∀ other run, (if job.kind = .hlsExport then sys.runs.set key ⟨jobId,.exporting .marking⟩ else sys.runs).get other = some run →
        (other = key ∧ job.kind = .hlsExport ∧ run = ⟨jobId,.exporting .marking⟩) ∨ (run.jobId ≠ jobId ∧ sys.runs.get other = some run) := by
      intro other run ran
      split at ran
      · rename_i kind
        rw [get_set] at ran
        split at ran
        · rename_i same
          cases ran
          exact .inl ⟨same,kind,rfl⟩
        · exact .inr ⟨idle other run ran,ran⟩
      · exact .inr ⟨idle other run ran,ran⟩
    refine ⟨⟨fun other run ran => ?_,fun a b run run' ran ran' same => ?_,sound.cold⟩,fun id waits_ => ?_⟩
    · rcases ran_cases other run ran with ⟨_,kind,rfl⟩ | ⟨ne,before⟩
      · exact ⟨_,get_set_self,rfl,kind⟩
      · obtain ⟨job',present',facts⟩ := sound.running other run before
        exact ⟨job',(get_set_ne ne).trans present',facts⟩
    · rcases ran_cases a run ran with ⟨rfl,_,rfl⟩ | ⟨ne,before⟩
      · rcases ran_cases b run' ran' with ⟨rfl,_,_⟩ | ⟨ne,_⟩
        · rfl
        · exact absurd same.symm ne
      · rcases ran_cases b run' ran' with ⟨_,_,rfl⟩ | ⟨_,before'⟩
        · exact absurd same ne
        · exact sound.alone a b run run' before before' same
    · rcases covered id waits_ with served_ | zipped_ | pending
      · refine .inl (served_kept served_ (fun jobId' job' present' about carried_ => ?_))
        by_cases same : jobId' = jobId
        · subst same
          rw [present] at present'
          cases present'
          refine ⟨_,get_set_self,⟨about.1,about.2.1,.inr rfl⟩,carried_iff.mpr (fun other run ran same => ?_)⟩
          rcases ran_cases other run ran with ⟨_,_,rfl⟩ | ⟨ne,_⟩
          · rfl
          · exact absurd same ne
        · refine ⟨job',(get_set_ne same).trans present',about,carried_iff.mpr (fun other run ran same' => ?_)⟩
          rcases ran_cases other run ran with ⟨_,_,rfl⟩ | ⟨_,before⟩
          · exact absurd same'.symm same
          · exact carried_iff.mp carried_ other run before same'
      · exact .inr (.inl zipped_)
      · exact .inr (.inr (pending_same pending rfl rfl))

end

theorem harms_not (spared : sys.queue.jobs.any (harms sys statement) = false) (present : sys.queue.jobs.get jobId = some job)
    (guard : statement.update.guard jobId job = true) (kind : job.kind = .hlsExport)
    (ended : (statement.update.set job).status ≠ .running) :
    (∀ other run, sys.runs.get other = some run → run.jobId ≠ jobId) ∧
      ((statement.update.set job).Live ∨ ∀ fileId, job.resourceId = some fileId → waits sys fileId = true → zipped sys.zips fileId = true) := by
  have calm : harms sys statement jobId job = false := by
    rw [← Bool.not_eq_true]
    intro harm
    rw [any_iff.mpr ⟨jobId,job,present,harm⟩] at spared
    cases spared
  simp only [harms,guard,Bool.true_and,kind,true_and,decide_eq_true ended,Bool.or_eq_false_iff,Bool.and_eq_false_iff] at calm
  constructor
  · intro other run ran same
    rw [any_iff.mpr ⟨other,run,ran,decide_eq_true same⟩] at calm
    cases calm.1
  · rcases calm.2 with live | quiet
    · exact .inl (by simpa using live)
    · refine .inr (fun fileId about waits_ => ?_)
      rw [about,any_some,waits_] at quiet
      simpa using quiet

theorem update_kept (sound : Sound sys) (covered : Covered sys) (cared : Cared sys (.update statement))
    (fired : step sys (.update statement) = some next) : Sound next ∧ Covered next := by
  cases fired
  have rows : ∀ id job, sys.queue.jobs.get id = some job →
      (statement.update.run sys.queue.jobs).1.get id = some (if statement.update.guard id job then statement.update.set job else job) := by
    intro id job present
    rw [Jobs.Update.run,get_mapEntries,present]
    rfl
  refine ⟨⟨fun key run ran => ?_,sound.alone,sound.cold⟩,fun id waits_ => ?_⟩
  · obtain ⟨job,present,status,kind⟩ := sound.running key run ran
    refine ⟨_,rows run.jobId job present,?_⟩
    split
    · rename_i guard
      refine ⟨?_,(statement_kind statement job).1.trans kind⟩
      by_contra ended
      exact (harms_not cared present guard kind ended).1 key run ran rfl
    · exact ⟨status,kind⟩
  · rcases covered id waits_ with served_ | zipped_ | pending
    · obtain ⟨jobId,job,present,about,carried_⟩ := served_iff.mp served_
      have all := carried_iff.mp carried_
      have same := rows jobId job present
      split at same
      · rename_i guard
        have moves := Jobs.statement_moves guard
        obtain ⟨kind,resource⟩ := statement_kind statement job
        have still : (statement.update.set job).Live → served {sys with queue := {sys.queue with jobs := (statement.update.run sys.queue.jobs).1}} id = true := by
          intro live
          refine served_iff.mpr ⟨jobId,_,same,⟨kind.trans about.1,resource.trans about.2.1,live⟩,carried_iff.mpr (fun key run ran same => ?_)⟩
          rw [goesOn_same run.phase moves.attempts moves.limit]
          exact all key run ran same
        by_cases runs : (statement.update.set job).status = .running
        · exact .inl (still (.inr runs))
        · rcases (harms_not cared present guard about.1 runs).2 with live | zips
          · exact .inl (still live)
          · exact .inr (.inl (zips id about.2.1 waits_))
      · exact .inl (served_iff.mpr ⟨jobId,job,same,about,carried_⟩)
    · exact .inr (.inl zipped_)
    · exact .inr (.inr (pending_same pending rfl rfl))

end Workers

section Zips
variable {sys next : System} {id fileId : String} {key : Nat} {zip : Zip} {zips : KeyMap Nat Zip} {stage : Stage} {outcome : Outcome} {lost : Bool}

section
variable (sound : Sound sys) (covered : Covered sys)
include sound covered

theorem zips_kept (others : ∀ other, other ≠ key → zips.get other = sys.zips.get other)
    (here : ∀ zip, sys.zips.get key = some zip → zip.stage.isSome = true →
      ∃ zip', zips.get key = some zip' ∧ zip'.fileId = zip.fileId ∧ zip'.stage.isSome = true) :
    Sound {sys with zips := zips} ∧ Covered {sys with zips := zips} := by
  refine ⟨⟨sound.running,sound.alone,sound.cold⟩,fun id waits_ => ?_⟩
  rcases covered id waits_ with served_ | zipped_ | pending
  · exact .inl served_
  · refine .inr (.inl (zipped_kept zipped_ (fun other zip there stage => ?_)))
    by_cases same : other = key
    · subst same
      exact here zip there stage
    · exact ⟨zip,(others other same).trans there,rfl,stage⟩
  · exact .inr (.inr (pending_same pending rfl rfl))

theorem polled_kept (held : sys.zips.get key = some zip) (polls : zip.stage = none)
    (others : ∀ other, other ≠ key → zips.get other = sys.zips.get other) : Sound {sys with zips := zips} ∧ Covered {sys with zips := zips} := by
  refine zips_kept sound covered others (fun other same stage => ?_)
  rw [held] at same
  cases same
  rw [polls] at stage
  cases stage

theorem poll_kept (held : sys.zips.get key = some zip) (polls : zip.stage = none) :
    Sound (poll sys key zip) ∧ Covered (poll sys key zip) := by
  have removed := polled_kept sound covered held polls (fun other ne => get_remove_ne ne)
  unfold poll
  split
  · exact removed
  · split
    · exact removed
    · split
      · exact removed
      · exact ⟨sound,covered⟩
      · exact ⟨sound,covered⟩
      · split
        · exact removed
        · exact polled_kept sound covered held polls (fun other ne => get_set_ne ne)

end

theorem without_kept (covered : Covered sys) (held : sys.zips.get key = some zip) (waits_ : waits sys id = true)
    (own : id = zip.fileId → settled {sys with zips := sys.zips.remove key} id = true) :
    served sys id = true ∨ zipped (sys.zips.remove key) id = true ∨ Pending sys id := by
  by_cases same : id = zip.fileId
  · rcases settled_cases (own same) waits_ with served_ | zipped_
    · exact .inl served_
    · exact .inr (.inl zipped_)
  · rcases covered id waits_ with served_ | zipped_ | pending
    · exact .inl served_
    · obtain ⟨other,zip',there,about,stage⟩ := zipped_iff.mp zipped_
      have ne : other ≠ key := by
        rintro rfl
        rw [held] at there
        cases there
        exact same about.symm
      exact .inr (.inl (zipped_iff.mpr ⟨other,zip',(get_remove_ne ne).trans there,about,stage⟩))
    · exact .inr (.inr pending)

theorem removed_zipped {zip' : Zip} (zipped_ : zipped (sys.zips.remove key) id = true) : zipped (sys.zips.set key zip') id = true := by
  obtain ⟨other,found,there,about,stage⟩ := zipped_iff.mp zipped_
  have ne : other ≠ key := by
    rintro rfl
    rw [get_remove_self] at there
    cases there
  exact zipped_iff.mpr ⟨other,found,(get_set_ne ne).trans ((get_remove_ne ne).symm.trans there),about,stage⟩

section
variable (sound : Sound sys) (covered : Covered sys)
include sound covered

theorem drop_kept (cared : Cared sys (.drop key)) (fired : step sys (.drop key) = some next) :
    Sound next ∧ Covered next := by
  obtain ⟨zip,held,rfl⟩ := map_eq_some_iff.mp fired
  cases stage : zip.stage with
  | none => exact polled_kept sound covered held stage (fun other ne => get_remove_ne ne)
  | some at_ =>
    have settled_ := cared zip held (by rw [stage]; rfl)
    refine ⟨⟨sound.running,sound.alone,sound.cold⟩,fun id waits_ => ?_⟩
    rcases without_kept covered held waits_ (fun same => by rw [same]; exact settled_) with served_ | zipped_ | pending
    · exact .inl served_
    · exact .inr (.inl zipped_)
    · exact .inr (.inr (pending_same pending rfl rfl))

theorem marking_kept (held : sys.zips.get key = some zip) :
    Sound (exportFor sys key zip outcome lost .marking) ∧ Covered (exportFor sys key zip outcome lost .marking) := by
  refine ⟨⟨sound.running,sound.alone,cold_written sound.cold (fun _ _ _ => rfl)⟩,fun id waits_ => ?_⟩
  by_cases own : id = zip.fileId
  · exact .inr (.inl (zipped_iff.mpr ⟨key,{zip with stage := some .working},get_set_self,own.symm,rfl⟩))
  · obtain ⟨row,present,holds⟩ := waits_iff.mp waits_
    rcases written present with ⟨same,_⟩ | ⟨_,there⟩
    · exact absurd same own
    · rcases covered id (waits_iff.mpr ⟨row,there,holds⟩) with served_ | zipped_ | pending
      · exact .inl served_
      · refine .inr (.inl (zipped_kept zipped_ (fun other found there' stage => ?_)))
        by_cases same : other = key
        · subst same
          rw [held] at there'
          cases there'
          exact ⟨_,get_set_self,rfl,rfl⟩
        · exact ⟨found,(get_set_ne same).trans there',rfl,stage⟩
      · exact .inr (.inr (pending_same pending rfl rfl))

theorem working_kept (cared : Cared sys (.exportZip key outcome lost))
    (held : sys.zips.get key = some zip) (stage : zip.stage = some .working) :
    Sound (exportFor sys key zip outcome lost .working) ∧ Covered (exportFor sys key zip outcome lost .working) := by
  have cold : Cold (write lost zip.fileId outcome.write sys.files) :=
    cold_written sound.cold (fun old there => outcome.cold old (sound.cold zip.fileId old there))
  refine ⟨⟨sound.running,sound.alone,cold⟩,fun id waits_ => ?_⟩
  obtain ⟨row,present,holds⟩ := waits_iff.mp waits_
  cases final : outcome.final with
  | true =>
    have before : waits sys id = true ∧ (id = zip.fileId → lost = true) := by
      rcases written present with ⟨_,_,old,_,rfl⟩ | ⟨away,there⟩
      · rw [outcome.final_settles final] at holds
        cases holds
      · exact ⟨waits_iff.mpr ⟨row,there,holds⟩,fun same => away.resolve_left (fun ne => ne same)⟩
    have rest := without_kept covered held before.1 (fun same => by rw [same]; exact cared zip held stage final (before.2 same))
    unfold exportFor
    rw [final]
    rcases rest with served_ | zipped_ | pending
    · exact .inl served_
    · exact .inr (.inl (removed_zipped zipped_))
    · exact .inr (.inr (pending_same pending rfl rfl))
  | false =>
    have before : waits sys id = true := by
      rcases written present with ⟨rfl,_,old,there,rfl⟩ | ⟨_,there⟩
      · rw [outcome.progress_same final] at holds
        exact waits_iff.mpr ⟨old,there,holds⟩
      · exact waits_iff.mpr ⟨row,there,holds⟩
    unfold exportFor
    rw [final]
    rcases covered id before with served_ | zipped_ | pending
    · exact .inl served_
    · refine .inr (.inl (zipped_kept zipped_ (fun other found there' stage' => ?_)))
      by_cases same : other = key
      · subst same
        rw [held] at there'
        cases there'
        exact ⟨_,get_set_self,rfl,stage'⟩
      · exact ⟨found,(get_set_ne same).trans there',rfl,stage'⟩
    · exact .inr (.inr (pending_same pending rfl rfl))

theorem export_kept (cared : Cared sys (.exportZip key outcome lost))
    (fired : step sys (.exportZip key outcome lost) = some next) : Sound next ∧ Covered next := by
  obtain ⟨zip,held,rest⟩ := bind_eq_some_iff.mp fired
  obtain ⟨stage,at_,rfl⟩ := map_eq_some_iff.mp rest
  cases stage with
  | marking => exact marking_kept sound covered held
  | working => exact working_kept sound covered cared held at_

end

end Zips

section Runs
variable {sys next : System} {event : Event}

theorem step_kept (sound : Sound sys) (covered : Covered sys) (cared : Cared sys event) (fired : step sys event = some next) :
    Sound next ∧ Covered next := by
  cases event with
  | store fileId row => exact store_kept sound covered fired
  | encode fileId hlsReady segmentCount =>
    cases fired
    exact rows_kept sound covered (fun _ waits_ => ⟨waits_,rfl⟩)
  | invalidate fileId =>
    cases fired
    exact rows_kept sound covered (fun _ waits_ => by cases waits_)
  | post key userId fileId => exact post_kept sound covered fired
  | advance key =>
    obtain ⟨request,held,moved⟩ := bind_eq_some_iff.mp fired
    exact advance_kept sound covered held moved
  | fail key => exact fail_kept sound covered cared fired
  | ask request => exact ask_kept sound covered fired
  | enqueue call now jobId => exact enqueue_kept sound covered cared fired
  | claim now workerId skipped key => exact claim_kept sound covered fired
  | execute key now outcome lost => exact execute_kept sound covered cared fired
  | lose key =>
    obtain ⟨run,_,rfl⟩ := map_eq_some_iff.mp fired
    exact lose_kept sound covered
  | update statement => exact update_kept sound covered cared fired
  | zip key fileId started =>
    simp only [step] at fired
    split at fired
    · cases fired
    · rename_i free
      cases fired
      refine zips_kept sound covered (fun other ne => get_set_ne ne) (fun zip held _ => ?_)
      rw [KeyMap.contains,held] at free
      exact absurd rfl free
  | poll key =>
    obtain ⟨zip,held,rfl⟩ := map_eq_some_iff.mp fired
    obtain ⟨held,polls⟩ := filter_eq_some_iff.mp held
    exact poll_kept sound covered held (isNone_iff_eq_none.mp polls)
  | exportZip key outcome lost => exact export_kept sound covered cared fired
  | drop key => exact drop_kept sound covered cared fired

theorem empty_kept : Sound empty ∧ Covered empty :=
  ⟨⟨fun _ _ ran => (by cases ran),fun _ _ _ _ ran => (by cases ran),fun _ _ present => (by cases present)⟩,
    fun _ waits_ => (by cases waits_)⟩

theorem covered_none_stuck (covered : Covered sys) : NoneStuck sys := by
  intro calm fileId row present holds
  rcases covered fileId (waits_iff.mpr ⟨row,present,holds⟩) with served_ | zipped_ | ⟨key,request,_,_,awaits⟩
  · obtain ⟨jobId,job,there,about,_⟩ := served_iff.mp served_
    exact .inl ⟨jobId,job,there,about⟩
  · exact .inr (zipped_iff.mp zipped_)
  · have held := awaits.held
    rw [calm key] at held
    cases held

theorem no_export_stuck (events : List Event) (final : System) (ran : Schedule.run step empty events = some final)
    (cared : Schedule.Along step Cared empty events) : NoneStuck final := by
  have keep : ∀ sys event next, Sound sys ∧ Covered sys → Cared sys event → step sys event = some next → Sound next ∧ Covered next :=
    fun _ _ _ held good fired => step_kept held.1 held.2 good fired
  exact covered_none_stuck (Schedule.run_along keep empty_kept cared ran).2

end Runs

section Videos

def video : ExportRow := ⟨"ann","store/v",some true,some 3,false,none,0,none,none⟩

def asked : List Event := [.store "v" video,.post 0 "ann" "v",.advance 0,.advance 0]

def exported : List Event :=
  [.enqueue 0 1 "job",.enqueue 0 2 "job",.enqueue 0 3 "job",.advance 0,.claim 4 "worker" [] 0,.execute 0 5 (.progress 0) none,
   .execute 0 6 (.failed "ffmpeg export") (some "no connection"),.execute 0 7 (.progress 0) none,.execute 0 8 (.progress 0) none,
   .claim 9 "worker" [] 0,.execute 0 10 (.progress 0) none,.execute 0 11 (.ready 5000) none,.execute 0 12 (.progress 0) none,
   .execute 0 13 (.progress 0) none]

theorem no_export_stuck_video : ∃ final, Schedule.run step empty (asked ++ exported) = some final ∧ NoneStuck final := by
  have goes : (Schedule.run step empty (asked ++ exported)).isSome = true := by decide +kernel
  obtain ⟨final,ran⟩ := isSome_iff_exists.mp goes
  exact ⟨final,ran,no_export_stuck _ final ran (by decide +kernel)⟩

theorem export_stuck : ∃ final, Schedule.run step empty (asked ++ [.fail 0]) = some final ∧ ¬NoneStuck final := by
  obtain ⟨final,ran,queued,requests,jobs,zips⟩ : ∃ final, Schedule.run step empty (asked ++ [.fail 0]) = some final ∧
      waits final "v" = true ∧ final.requests.any (fun _ _ => true) = false ∧ final.queue.jobs.any (fun _ _ => true) = false ∧
      final.zips.any (fun _ _ => true) = false := Schedule.reached_of_any (by decide +kernel)
  refine ⟨final,ran,fun none_ => ?_⟩
  have calm : ∀ key, final.requests.get key = none := by
    intro key
    cases held : final.requests.get key with
    | none => rfl
    | some request =>
      rw [any_iff.mpr ⟨key,request,held,rfl⟩] at requests
      cases requests
  obtain ⟨row,present,holds⟩ := waits_iff.mp queued
  rcases none_ calm "v" row present holds with ⟨jobId,job,there,_⟩ | ⟨key,zip,there,_⟩
  · rw [any_iff.mpr ⟨jobId,job,there,rfl⟩] at jobs
    cases jobs
  · rw [any_iff.mpr ⟨key,zip,there,rfl⟩] at zips
    cases zips

end Videos

end Ownly.Hls.Exports
