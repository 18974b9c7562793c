import Ownly.Files.Finalize
import Ownly.Jobs.Enqueue

-- Audio rows that are still processing, over uploads and jobs taken apart into their
-- statements: whether a job or an upload is still at work on each of them.
namespace Ownly.Files.Waveforms
open Jobs (JobKind BackgroundJob EnqueueRequest EnqueuePhase)
open List Option KeyMap

-- `known` is the hash declared for staged parts, if any.
inductive Finaliser where
  | spooled
  | staged (known : Option String)
  | instant
  deriving DecidableEq, Repr

-- finalize_staged_upload refuses videos.
def Finaliser.takes (upload : Upload) : Finaliser → Bool
  | .staged _ => !upload.isVideo
  | _ => true

inductive Phase where
  | finding
  | findingAgain
  | sharing (contentHash : String) (source : DedupSource)
  | inserting
  | enqueuing (call : Nat) (rest : List JobKind)
  | linking
  deriving DecidableEq, Repr

structure Task where
  upload : Upload
  contentHash : String
  finaliser : Finaliser
  phase : Phase
  deriving DecidableEq, Repr

-- A worker's execution of a job it has claimed: before and after it marks the row as
-- processing, and once it has set the row ready or failed.
inductive Run where
  | claimed
  | working
  | completing
  | failing (message : String)
  deriving DecidableEq, Repr

def Run.AtWork (run : Run) : Prop := run = .claimed ∨ run = .working

structure System where
  files : KeyMap String FileRow
  queue : Jobs.System
  tasks : KeyMap Nat Task
  runs : KeyMap String Run

inductive Event where
  | upload (key : Nat) (upload : Upload) (contentHash : String) (finaliser : Finaliser)
  | advance (key : Nat) (tie : Nat)
  | fail (key : Nat)
  | enqueue (call : Nat) (now : Int) (jobId : String)
  | claim (now : Int) (workerId : String) (skipped : List String)
  | execute (jobId : String) (now : Int) (result : Except String Unit)

def derivativeJobs (upload : Upload) : List JobKind :=
  if upload.isVideo then [.hlsEncode,.videoThumbnail]
  else if upload.isAudio then [.audioWaveform]
  else if upload.isImage then [.imageThumbnail]
  else if upload.isDocument then [.documentThumbnail]
  else []

-- The label and the payload of the job are the file's, and nothing here reads them.
def derivativeRequest (upload : Upload) (kind : JobKind) : EnqueueRequest :=
  {userId := upload.userId,kind := kind,label := "",resourceType := some "file",resourceId := some upload.fileId,payload := ""}

def System.at (sys : System) (key : Nat) (task : Task) (phase : Phase) : System :=
  {sys with tasks := sys.tasks.set key {task with phase := phase}}

def System.ended (sys : System) (key : Nat) : System := {sys with tasks := sys.tasks.remove key}

-- The next `enqueue_job` of an upload, or link_file_to_placement behind the last.
def proceed (sys : System) (key : Nat) (task : Task) : List JobKind → System
  | [] => sys.at key task .linking
  | kind :: rest =>
    {sys with
      queue := {sys.queue with enqueues := sys.queue.enqueues ++ [.counting (derivativeRequest task.upload kind)]}
      tasks := sys.tasks.set key {task with phase := .enqueuing sys.queue.enqueues.length rest}}

def Task.lookup (task : Task) : String :=
  match task.finaliser with
  | .staged (some known) => known
  | _ => task.contentHash

def missing (sys : System) (key : Nat) (task : Task) : Finaliser → System
  | .spooled => sys.at key task .inserting
  | .staged _ => sys.at key task .findingAgain
  | .instant => sys.ended key

def insertedRow (upload : Upload) (contentHash : String) : FileRow :=
  if upload.isVideo then videoRow upload contentHash else plainRow upload contentHash

def advance (sys : System) (key tie : Nat) (task : Task) : Option System :=
  match task.phase with
  | .finding =>
    match findDedupSource sys.files tie task.upload.userId task.lookup task.upload.sizeBytes task.upload.isVideo with
    | some source => some (sys.at key task (.sharing task.lookup source))
    | none => some (missing sys key task task.finaliser)
  | .findingAgain =>
    match findDedupSource sys.files tie task.upload.userId task.contentHash task.upload.sizeBytes false with
    | some source => some (sys.at key task (.sharing task.contentHash source))
    | none => some (sys.at key task .inserting)
  | .sharing contentHash source =>
    match sys.files.get task.upload.fileId with
    | some _ => some (sys.ended key)
    | none =>
      let row := dedupedRow task.upload contentHash source.row
      some ({sys with files := sys.files.set task.upload.fileId row}.at key task .linking)
  | .inserting =>
    match sys.files.get task.upload.fileId with
    | some _ => some (sys.ended key)
    | none =>
      let row := insertedRow task.upload task.contentHash
      some (proceed {sys with files := sys.files.set task.upload.fileId row} key task (derivativeJobs task.upload))
  | .enqueuing call rest =>
    match sys.queue.enqueues[call]? with
    | some (.done (.ok _)) => some (proceed sys key task rest)
    | some (.done (.error _)) => some (sys.ended key)
    | _ => none
  | .linking => some (sys.ended key)

def awaited (sys : System) (call : Nat) : Bool :=
  sys.tasks.any (fun _ task => match task.phase with
    | .enqueuing other _ => decide (other = call)
    | _ => false)

def onResource (job : BackgroundJob) (change : FileRow → FileRow) (files : KeyMap String FileRow) : KeyMap String FileRow :=
  match job.resourceId with
  | none => files
  | some fileId => files.modify fileId change

-- What jobs write of the columns the model has: waveform jobs those of the audio, encode
-- jobs those of the video.
def markProcessing (kind : JobKind) (row : FileRow) : FileRow :=
  match kind with
  | .audioWaveform => {row with audioEncodeStatus := some .processing}
  | .hlsEncode => {row with hlsEncodeStatus := some .processing}
  | _ => row

def markReady (kind : JobKind) (row : FileRow) : FileRow :=
  match kind with
  | .audioWaveform => {row with audioWaveformReady := true,audioEncodeStatus := some .ready}
  | .hlsEncode => {row with hlsReady := true,hlsEncodeStatus := some .ready}
  | _ => row

def markFailed (kind : JobKind) (row : FileRow) : FileRow :=
  match kind with
  | .audioWaveform => {row with audioWaveformReady := false,audioEncodeStatus := some .failed}
  | .hlsEncode => {row with hlsEncodeStatus := some .failed}
  | _ => row

def isWaveformCancelled (files : KeyMap String FileRow) (job : BackgroundJob) : Bool :=
  (job.resourceId.bind files.get).any (fun row => decide (row.audioEncodeStatus = some .cancelled))

def execute (sys : System) (jobId : String) (job : BackgroundJob) (now : Int) (result : Except String Unit) : Run → System
  | .claimed =>
    if job.kind = .audioWaveform ∧ isWaveformCancelled sys.files job then {sys with runs := sys.runs.set jobId .completing}
    else {sys with files := onResource job (markProcessing job.kind) sys.files,runs := sys.runs.set jobId .working}
  | .working =>
    match result with
    | .ok () => {sys with files := onResource job (markReady job.kind) sys.files,runs := sys.runs.set jobId .completing}
    | .error message =>
      {sys with files := onResource job (markFailed job.kind) sys.files,runs := sys.runs.set jobId (.failing message)}
  | .completing =>
    {sys with
      queue := {sys.queue with jobs := ((Jobs.completeJob now jobId).run sys.queue.jobs).1}
      runs := sys.runs.remove jobId}
  | .failing message =>
    {sys with
      queue := {sys.queue with jobs := ((Jobs.failJob now jobId message).run sys.queue.jobs).1}
      runs := sys.runs.remove jobId}

-- An upload can fail at any of its statements, or its client go away. Jobs have fresh ids.
def step (sys : System) : Event → Option System
  | .upload key upload contentHash finaliser =>
    if sys.tasks.contains key || !finaliser.takes upload then none
    else some {sys with tasks := sys.tasks.set key ⟨upload,contentHash,finaliser,
      if finaliser = .staged none then .findingAgain else .finding⟩}
  | .advance key tie => (sys.tasks.get key).bind (advance sys key tie)
  | .fail key => (sys.tasks.get key).map (fun _ => sys.ended key)
  | .enqueue call now jobId =>
    if awaited sys call ∧ sys.queue.jobs.get jobId = none then
      (Jobs.step sys.queue (.advance call now jobId)).map (fun queue => {sys with queue := queue})
    else none
  | .claim now workerId skipped =>
    match Jobs.claimNextJob now workerId skipped sys.queue.jobs with
    | (_,none) => some sys
    | (jobs,some (jobId,_)) =>
      some {sys with
        queue := {sys.queue with jobs := jobs,claims := sys.queue.claims ++ [(jobId,workerId)]}
        runs := sys.runs.set jobId .claimed}
  | .execute jobId now result =>
    match sys.queue.jobs.get jobId,sys.runs.get jobId with
    | some job,some run => some (execute sys jobId job now result run)
    | _,_ => none

def empty : System := ⟨KeyMap.empty,Jobs.empty,KeyMap.empty,KeyMap.empty⟩

def Attended (sys : System) : Prop :=
  ∀ id row, sys.files.get id = some row → row.Active → mimeStartsWith "audio/" row.mimeType = true → isFileProcessing row = true →
    (∃ jobId job, sys.queue.jobs.get jobId = some job ∧ job.Live ∧ job.resourceId = some id) ∨
    ∃ key task, sys.tasks.get key = some task ∧ task.upload.fileId = id

def waiting : EnqueuePhase → Option EnqueueRequest
  | .counting request => some request
  | .looking request => some request
  | .inserting request => some request
  | .done _ => none

-- What a task is about to insert is not an audio row that nobody will process: one
-- shared from a row that was processing as it was read, or that of a file taken for a video.
def Task.heard (task : Task) : Bool :=
  match task.phase with
  | .sharing contentHash source => !isAudioProcessing (dedupedRow task.upload contentHash source.row)
  | .inserting => !(task.upload.isVideo && task.upload.isAudio)
  | _ => true

def Task.awaitsWaveform (calls : List EnqueuePhase) (task : Task) : Bool :=
  match task.phase with
  | .enqueuing call _ => (calls[call]?.bind waiting).any (fun request => decide (request.kind = .audioWaveform))
  | _ => false

def admitted (jobs : Jobs.Table) : EnqueuePhase → Bool
  | .counting request => decide (request.kind = .audioWaveform → Jobs.queuedCount jobs request.userId < Jobs.maxQueuedJobsPerUser)
  | _ => true

-- Behind the INSERT of an audio row, the call of enqueue_job finds its user below the cap,
-- and the upload goes on until it is answered.
def Cared (sys : System) : Event → Prop
  | .advance key _ => ∀ task ∈ sys.tasks.get key, task.heard = true
  | .enqueue call _ _ => ∀ phase ∈ sys.queue.enqueues[call]?, admitted sys.queue.jobs phase = true
  | .fail key => ∀ task ∈ sys.tasks.get key, task.awaitsWaveform sys.queue.enqueues = false
  | _ => True

instance (sys : System) : (event : Event) → Decidable (Cared sys event)
  | .advance _ _ => inferInstanceAs (Decidable (∀ task ∈ _, _))
  | .enqueue _ _ _ => inferInstanceAs (Decidable (∀ phase ∈ _, _))
  | .fail _ => inferInstanceAs (Decidable (∀ task ∈ _, _))
  | .upload _ _ _ _ => .isTrue trivial
  | .claim _ _ _ => .isTrue trivial
  | .execute _ _ _ => .isTrue trivial

def audioResource (fileId : String) : Option (JobKind × String × String) := some (.audioWaveform,"file",fileId)

def Processing (sys : System) (fileId : String) : Prop := ∃ row, sys.files.get fileId = some row ∧ isAudioProcessing row = true

def Served (sys : System) (fileId : String) : Prop :=
  ∃ jobId job, sys.queue.jobs.get jobId = some job ∧ job.Live ∧ job.resource = audioResource fileId ∧
    ∀ run, sys.runs.get jobId = some run → run.AtWork

structure Awaits (sys : System) (fileId : String) (key : Nat) (task : Task) (call : Nat) (rest : List JobKind) (phase : EnqueuePhase)
    (request : EnqueueRequest) : Prop where
  held : sys.tasks.get key = some task
  about : task.upload.fileId = fileId
  at_ : task.phase = .enqueuing call rest
  asked : sys.queue.enqueues[call]? = some phase
  waits : waiting phase = some request
  resource : request.resource = audioResource fileId

def Pending (sys : System) (fileId : String) : Prop := ∃ key task call rest phase request, Awaits sys fileId key task call rest phase request

structure Sound (sys : System) : Prop where
  consistent : Jobs.Consistent sys.queue
  running : ∀ jobId run, sys.runs.get jobId = some run → ∃ job, sys.queue.jobs.get jobId = some job ∧ job.status = .running
  named : ∀ jobId job, sys.queue.jobs.get jobId = some job → job.kind = .audioWaveform →
    ∃ fileId, job.resource = audioResource fileId ∧ (sys.files.get fileId).isSome = true
  called : ∀ (call : Nat) phase request, sys.queue.enqueues[call]? = some phase → waiting phase = some request →
    request.kind = .audioWaveform → ∃ fileId, request.resource = audioResource fileId ∧ (sys.files.get fileId).isSome = true
  last : ∀ key task call rest, sys.tasks.get key = some task → task.phase = .enqueuing call rest → .audioWaveform ∉ rest
  written : ∀ jobId run job fileId, sys.runs.get jobId = some run → ¬run.AtWork → sys.queue.jobs.get jobId = some job →
    job.resource = audioResource fileId → ¬Processing sys fileId

def Covered (sys : System) : Prop := ∀ fileId, Processing sys fileId → Served sys fileId ∨ Pending sys fileId

section Uploads
variable {sys : System} {fileId id contentHash : String} {row : FileRow} {job : BackgroundJob} {kind : JobKind} {request : EnqueueRequest}
  {key : Nat} {task task' : Task} {tasks : KeyMap Nat Task} {upload : Upload} {kinds rest : List JobKind} {next : System}
  {call : Nat}

theorem audio_job : job.resource = audioResource fileId ↔
    job.kind = .audioWaveform ∧ job.resourceType = some "file" ∧ job.resourceId = some fileId := Jobs.resource_exact

theorem processing_audio (processing : isAudioProcessing row = true) : mimeStartsWith "audio/" row.mimeType = true := by
  unfold isAudioProcessing at processing
  rw [Bool.and_eq_true,Bool.and_eq_true,Bool.and_eq_true] at processing
  exact processing.1.1.1

theorem Awaits.same {phase : EnqueuePhase} (awaits : Awaits sys fileId key task call rest phase request)
    (held : next.tasks.get key = some task) (asked : next.queue.enqueues[call]? = some phase) :
    Awaits next fileId key task call rest phase request :=
  ⟨held,awaits.about,awaits.at_,asked,awaits.waits,awaits.resource⟩

theorem pending_same (pending : Pending sys fileId) (tasks : next.tasks = sys.tasks)
    (calls : next.queue.enqueues = sys.queue.enqueues) : Pending next fileId := by
  obtain ⟨key,task,call,rest,phase,request,awaits⟩ := pending
  exact ⟨key,task,call,rest,phase,request,awaits.same (by rw [tasks]; exact awaits.held) (by rw [calls]; exact awaits.asked)⟩

def Idle (sys : System) (key : Nat) : Prop := ∀ fileId task call rest phase request, ¬Awaits sys fileId key task call rest phase request

theorem idle_phase (held : sys.tasks.get key = some task) (other : ∀ call rest, task.phase ≠ .enqueuing call rest) : Idle sys key := by
  intro fileId task' call rest phase request awaits
  have same := awaits.held
  rw [held] at same
  cases same
  exact other call rest awaits.at_

theorem Idle.same (idle : Idle sys key) (tasks : next.tasks = sys.tasks) (queue : next.queue = sys.queue) : Idle next key := by
  intro fileId task call rest phase request awaits
  exact idle fileId task call rest phase request
    (awaits.same (by rw [← tasks]; exact awaits.held) (by rw [← queue]; exact awaits.asked))

theorem retasked_sound (sound : Sound sys) (others : ∀ other, other ≠ key → tasks.get other = sys.tasks.get other)
    (here : ∀ task call rest, tasks.get key = some task → task.phase = .enqueuing call rest → .audioWaveform ∉ rest) :
    Sound {sys with tasks := tasks} := by
  refine ⟨sound.consistent,sound.running,sound.named,sound.called,?_,sound.written⟩
  intro other task call rest held at_
  by_cases same : other = key
  · subst same
    exact here task call rest held at_
  · exact sound.last other task call rest ((others other same).symm.trans held) at_

theorem retasked_covered (covered : Covered sys) (idle : Idle sys key)
    (others : ∀ other, other ≠ key → tasks.get other = sys.tasks.get other) : Covered {sys with tasks := tasks} := by
  intro fileId processing
  rcases covered fileId processing with served | ⟨other,task,call,rest,phase,request,awaits⟩
  · exact .inl served
  · have ne : other ≠ key := by
      rintro rfl
      exact idle _ _ _ _ _ _ awaits
    exact .inr ⟨other,task,call,rest,phase,request,awaits.same ((others other ne).trans awaits.held) awaits.asked⟩

theorem at_kept (sound : Sound sys) (covered : Covered sys) (idle : Idle sys key) {phase : Phase}
    (other : ∀ call rest, phase ≠ .enqueuing call rest) : Sound (sys.at key task phase) ∧ Covered (sys.at key task phase) := by
  have others : ∀ other, other ≠ key → (sys.tasks.set key {task with phase := phase}).get other = sys.tasks.get other :=
    fun _ ne => get_set_ne ne
  refine ⟨retasked_sound sound others ?_,retasked_covered covered idle others⟩
  intro task' call rest held at_
  rw [get_set_self] at held
  cases held
  exact absurd at_ (other call rest)

theorem ended_kept (sound : Sound sys) (covered : Covered sys) (idle : Idle sys key) :
    Sound (sys.ended key) ∧ Covered (sys.ended key) := by
  have others : ∀ other, other ≠ key → (sys.tasks.remove key).get other = sys.tasks.get other := fun _ ne => get_remove_ne ne
  refine ⟨retasked_sound sound others ?_,retasked_covered covered idle others⟩
  intro task' call rest held
  rw [get_remove_self] at held
  cases held

theorem inserted_processing (processing : Processing {sys with files := sys.files.set fileId row} id) :
    (id = fileId ∧ isAudioProcessing row = true) ∨ Processing sys id := by
  obtain ⟨found,present,holds⟩ := processing
  rw [get_set] at present
  split at present
  · rename_i same
    cases present
    exact .inl ⟨same,holds⟩
  · exact .inr ⟨found,present,holds⟩

theorem inserted_sound (sound : Sound sys) (fresh : sys.files.get fileId = none) : Sound {sys with files := sys.files.set fileId row} := by
  have still : ∀ id, (sys.files.get id).isSome = true → ((sys.files.set fileId row).get id).isSome = true := by
    intro id present
    rw [get_set]
    split
    · rfl
    · exact present
  refine ⟨sound.consistent,sound.running,?_,?_,sound.last,?_⟩
  · intro jobId job present audio
    obtain ⟨id,about,there⟩ := sound.named jobId job present audio
    exact ⟨id,about,still id there⟩
  · intro call phase request asked waits audio
    obtain ⟨id,about,there⟩ := sound.called call phase request asked waits audio
    exact ⟨id,about,still id there⟩
  · intro jobId run job id ran past present about processing
    rcases inserted_processing processing with ⟨rfl,_⟩ | before
    · obtain ⟨other,same,there⟩ := sound.named jobId job present (audio_job.mp about).1
      rw [about] at same
      cases same
      rw [fresh] at there
      cases there
    · exact sound.written jobId run job id ran past present about before

theorem inserted_covered (covered : Covered sys) (ready : isAudioProcessing row = false) :
    Covered {sys with files := sys.files.set fileId row} := by
  intro id processing
  rcases inserted_processing processing with ⟨_,holds⟩ | before
  · rw [ready] at holds
    cases holds
  · rcases covered id before with served | pending
    · exact .inl served
    · exact .inr (pending_same pending rfl rfl)

theorem proceed_sound (sound : Sound sys) (there : .audioWaveform ∈ kinds → (sys.files.get task.upload.fileId).isSome = true)
    (once : ∀ kind rest, kinds = kind :: rest → .audioWaveform ∉ rest) : Sound (proceed sys key task kinds) := by
  cases kinds with
  | nil =>
    have others : ∀ other, other ≠ key → (sys.tasks.set key {task with phase := .linking}).get other = sys.tasks.get other :=
      fun _ ne => get_set_ne ne
    refine retasked_sound sound others ?_
    intro task' call rest held at_
    rw [get_set_self] at held
    cases held
    cases at_
  | cons kind rest =>
    refine ⟨sound.consistent.same rfl rfl,sound.running,sound.named,?_,?_,sound.written⟩
    · intro call phase request asked waits audio
      unfold proceed at asked
      dsimp only at asked
      rw [getElem?_append] at asked
      split at asked
      · exact sound.called call phase request asked waits audio
      · rw [getElem?_singleton] at asked
        split at asked
        · cases asked
          cases waits
          refine ⟨task.upload.fileId,?_,there (mem_cons.mpr (.inl audio.symm))⟩
          rw [EnqueueRequest.resource,audio]
          rfl
        · cases asked
    · intro other task' call rest' held at_
      unfold proceed at held
      dsimp only at held
      rw [get_set] at held
      split at held
      · cases held
        cases at_
        exact once kind rest rfl
      · exact sound.last other task' call rest' held at_

theorem proceed_covered (covered : ∀ id, Processing sys id → Served sys id ∨ Pending sys id ∨
      (id = task.upload.fileId ∧ ∃ rest, kinds = .audioWaveform :: rest)) (idle : Idle sys key) :
    Covered (proceed sys key task kinds) := by
  intro id processing
  cases kinds with
  | nil =>
    rcases covered id processing with served | ⟨other,task',call,rest,phase,request,awaits⟩ | ⟨_,_,none⟩
    · exact .inl served
    · have ne : other ≠ key := by
        rintro rfl
        exact idle _ _ _ _ _ _ awaits
      exact .inr ⟨other,task',call,rest,phase,request,awaits.same ((get_set_ne ne).trans awaits.held) awaits.asked⟩
    · cases none
  | cons kind rest =>
    rcases covered id processing with served | ⟨other,task',call,rest',phase,request,awaits⟩ | ⟨rfl,_,same⟩
    · exact .inl served
    · have ne : other ≠ key := by
        rintro rfl
        exact idle _ _ _ _ _ _ awaits
      have before : call < sys.queue.enqueues.length := (List.getElem?_eq_some_iff.mp awaits.asked).1
      exact .inr ⟨other,task',call,rest',phase,request,
        awaits.same ((get_set_ne ne).trans awaits.held) ((getElem?_append_left before).trans awaits.asked)⟩
    · cases same
      exact .inr ⟨key,_,_,_,_,_,get_set_self,rfl,rfl,getElem?_concat_length,rfl,rfl⟩

theorem derivativeJobs_once : ∀ kind rest, derivativeJobs upload = kind :: rest → .audioWaveform ∉ rest := by
  intro kind rest jobs
  unfold derivativeJobs at jobs
  split_ifs at jobs <;> cases jobs <;> decide

theorem insertedRow_jobs (heard : upload.isVideo = true → upload.isAudio = false)
    (processing : isAudioProcessing (insertedRow upload contentHash) = true) : derivativeJobs upload = [.audioWaveform] := by
  have audio : upload.isAudio = true := by
    have mime := processing_audio processing
    unfold insertedRow at mime
    split at mime
    · exact mime
    · exact mime
  have still : upload.isVideo = false := by
    cases video : upload.isVideo with
    | false => rfl
    | true =>
      rw [heard video] at audio
      cases audio
  rw [derivativeJobs,still,audio]
  rfl

theorem insertion_kept (sound : Sound sys) (covered : Covered sys) (idle : Idle sys key) (fresh : sys.files.get task.upload.fileId = none)
    (heard : task.upload.isVideo = true → task.upload.isAudio = false) :
    let inserted := {sys with files := sys.files.set task.upload.fileId (insertedRow task.upload task.contentHash)}
    Sound (proceed inserted key task (derivativeJobs task.upload)) ∧ Covered (proceed inserted key task (derivativeJobs task.upload)) := by
  refine ⟨proceed_sound (inserted_sound sound fresh) ?_ derivativeJobs_once,proceed_covered ?_ (idle.same rfl rfl)⟩
  · intro _
    dsimp only
    rw [get_set_self]
    rfl
  · intro id processing
    rcases inserted_processing processing with ⟨same,holds⟩ | before
    · exact .inr (.inr ⟨same,[],insertedRow_jobs heard holds⟩)
    · rcases covered id before with served | pending
      · exact .inl served
      · exact .inr (.inl (pending_same pending rfl rfl))

theorem answered_idle {result : Except AppError String} (held : sys.tasks.get key = some task)
    (at_ : task.phase = .enqueuing call rest) (answered : sys.queue.enqueues[call]? = some (.done result)) : Idle sys key := by
  intro fileId task' call' rest' phase request awaits
  have same := awaits.held
  rw [held] at same
  cases same
  have here := awaits.at_
  rw [at_] at here
  cases here
  have asked := awaits.asked
  rw [answered] at asked
  cases asked
  cases awaits.waits

theorem answered_kept {id : String} (sound : Sound sys) (covered : Covered sys) (held : sys.tasks.get key = some task)
    (at_ : task.phase = .enqueuing call rest) (answered : sys.queue.enqueues[call]? = some (.done (.ok id))) :
    Sound (proceed sys key task rest) ∧ Covered (proceed sys key task rest) := by
  have last := sound.last key task call rest held at_
  refine ⟨proceed_sound sound (fun audio => absurd audio last) ?_,proceed_covered ?_ (answered_idle held at_ answered)⟩
  · intro kind later same audio
    exact last (by rw [same]; exact mem_cons_of_mem _ audio)
  · intro id processing
    rcases covered id processing with served | pending
    · exact .inl served
    · exact .inr (.inl pending)

theorem heard_shared {source : DedupSource} (heard : task.heard = true) (at_ : task.phase = .sharing contentHash source) :
    isAudioProcessing (dedupedRow task.upload contentHash source.row) = false := by
  rw [Task.heard,at_] at heard
  simpa using heard

theorem heard_inserted (heard : task.heard = true) (at_ : task.phase = .inserting) :
    task.upload.isVideo = true → task.upload.isAudio = false := by
  intro video
  rw [Task.heard,at_] at heard
  simpa [video] using heard

theorem advance_kept {tie : Nat} (sound : Sound sys) (covered : Covered sys) (held : sys.tasks.get key = some task)
    (cared : Cared sys (.advance key tie)) (fired : advance sys key tie task = some next) : Sound next ∧ Covered next := by
  have heard : task.heard = true := cared task held
  have idle : (∀ call rest, task.phase ≠ .enqueuing call rest) → Idle sys key := idle_phase held
  unfold advance at fired
  split at fired
  · rename_i at_
    have idle := idle (fun _ _ same => by rw [at_] at same; cases same)
    split at fired
    · cases fired
      exact at_kept sound covered idle (fun _ _ same => by cases same)
    · cases fired
      unfold missing
      split
      · exact at_kept sound covered idle (fun _ _ same => by cases same)
      · exact at_kept sound covered idle (fun _ _ same => by cases same)
      · exact ended_kept sound covered idle
  · rename_i at_
    have idle := idle (fun _ _ same => by rw [at_] at same; cases same)
    split at fired
    · cases fired
      exact at_kept sound covered idle (fun _ _ same => by cases same)
    · cases fired
      exact at_kept sound covered idle (fun _ _ same => by cases same)
  · rename_i contentHash source at_
    have idle := idle (fun _ _ same => by rw [at_] at same; cases same)
    split at fired
    · cases fired
      exact ended_kept sound covered idle
    · rename_i fresh
      cases fired
      exact at_kept (inserted_sound sound fresh) (inserted_covered covered (heard_shared heard at_)) (idle.same rfl rfl)
        (fun _ _ same => by cases same)
  · rename_i at_
    have idle := idle (fun _ _ same => by rw [at_] at same; cases same)
    split at fired
    · cases fired
      exact ended_kept sound covered idle
    · rename_i fresh
      cases fired
      exact insertion_kept sound covered idle fresh (heard_inserted heard at_)
  · rename_i call rest at_
    split at fired
    · rename_i answered
      cases fired
      exact answered_kept sound covered held at_ answered
    · rename_i answered
      cases fired
      exact ended_kept sound covered (answered_idle held at_ answered)
    · cases fired
  · rename_i at_
    cases fired
    exact ended_kept sound covered (idle (fun _ _ same => by rw [at_] at same; cases same))

end Uploads

section Calls
variable {sys next : System} {fileId jobId : String} {job : BackgroundJob} {request : EnqueueRequest} {call : Nat} {now : Int}
  {phase phase' : EnqueuePhase} {jobs after : Jobs.Table}

-- What one statement of an `enqueue_job` call comes to.
inductive Answers (now : Int) (jobId : String) (jobs : Jobs.Table) : EnqueuePhase → EnqueuePhase → Jobs.Table → Prop
  | waits (phase phase' : EnqueuePhase) (request : EnqueueRequest) (before : waiting phase = some request)
      (still : waiting phase' = some request) : Answers now jobId jobs phase phase' jobs
  | full (request : EnqueueRequest) (result : Except AppError String)
      (many : Jobs.maxQueuedJobsPerUser ≤ Jobs.queuedCount jobs request.userId) :
      Answers now jobId jobs (.counting request) (.done result) jobs
  | there (phase : EnqueuePhase) (request : EnqueueRequest) (result : Except AppError String) (id : String) (job : BackgroundJob)
      (before : waiting phase = some request) (present : jobs.get id = some job) (live : job.Live)
      (same : job.resource = request.resource) : Answers now jobId jobs phase (.done result) jobs
  | inserted (request : EnqueueRequest) (result : Except AppError String) :
      Answers now jobId jobs (.inserting request) (.done result) (jobs.set jobId (Jobs.queuedJob now request))

theorem advance_answers (unused : jobs.get jobId = none) (ran : Jobs.advance now jobId jobs phase = some (phase',after)) :
    Answers now jobId jobs phase phase' after := by
  cases phase with
  | counting request =>
    simp only [Jobs.advance] at ran
    split at ran
    · rename_i many
      cases ran
      exact .full request _ many
    · split at ran <;> cases ran <;> exact .waits _ _ request rfl rfl
  | looking request =>
    simp only [Jobs.advance] at ran
    split at ran
    · rename_i rt rid isType isId
      split at ran
      · rename_i id job found
        cases ran
        obtain ⟨present,holds⟩ := Jobs.mem_rows.mp (Jobs.first_mem found)
        obtain ⟨kind,typed,named,live⟩ := of_decide_eq_true holds
        refine .there _ request _ id job rfl present live ?_
        rw [Jobs.resource_exact.mpr ⟨kind,typed,named⟩,EnqueueRequest.resource,isType,isId]
      · cases ran
        exact .waits _ _ request rfl rfl
    · cases ran
      exact .waits _ _ request rfl rfl
  | inserting request =>
    simp only [Jobs.advance] at ran
    split at ran
    · rename_i inserted
      cases ran
      obtain ⟨_,rfl,_⟩ := Jobs.insert_cases inserted
      exact .inserted request _
    · rename_i refused
      cases ran
      unfold Jobs.insertJob at refused
      dsimp only at refused
      split at refused
      · rename_i used
        rw [KeyMap.contains,unused] at used
        cases used
      · split at refused
        · rename_i taken
          obtain ⟨id,job,present,holds⟩ := any_iff.mp taken
          obtain ⟨live,_,same⟩ := of_decide_eq_true holds
          exact .there _ request _ id job rfl present live same
        · cases refused
  | done result => cases ran

theorem Answers.kept (answers : Answers now jobId jobs phase phase' after) (unused : jobs.get jobId = none) :
    ∀ id job, jobs.get id = some job → after.get id = some job := by
  intro id job present
  cases answers with
  | inserted request result =>
    have ne : id ≠ jobId := by
      rintro rfl
      rw [unused] at present
      cases present
    exact (get_set_ne ne).trans present
  | _ => exact present

theorem served_live (sound : Sound sys) (present : sys.queue.jobs.get jobId = some job) (live : job.Live)
    (about : job.resource = audioResource fileId) (processing : Processing sys fileId) : Served sys fileId := by
  refine ⟨jobId,job,present,live,about,?_⟩
  intro run ran
  by_contra past
  exact sound.written jobId run job fileId ran past present about processing

theorem request_resource {fileId : String} (about : request.resource = audioResource fileId) : request.kind = .audioWaveform := by
  have job : (Jobs.queuedJob 0 request).resource = audioResource fileId := about
  exact (audio_job.mp job).1

theorem called_sound (sound : Sound sys) (consistent : Jobs.Consistent ⟨after,sys.queue.enqueues.set call phase',sys.queue.claims⟩)
    (asked : sys.queue.enqueues[call]? = some phase) (answers : Answers now jobId sys.queue.jobs phase phase' after)
    (unused : sys.queue.jobs.get jobId = none) :
    Sound {sys with queue := ⟨after,sys.queue.enqueues.set call phase',sys.queue.claims⟩} := by
  have rows : ∀ id job, after.get id = some job → sys.queue.jobs.get id = some job ∨
      (id = jobId ∧ ∃ request, phase = .inserting request ∧ job = Jobs.queuedJob now request) := by
    intro id job present
    cases answers with
    | inserted request result =>
      rw [get_set] at present
      split at present
      · rename_i same
        cases present
        exact .inr ⟨same,request,rfl,rfl⟩
      · exact .inl present
    | _ => exact .inl present
  refine ⟨consistent,?_,?_,?_,sound.last,?_⟩
  · intro id run ran
    obtain ⟨job,present,status⟩ := sound.running id run ran
    exact ⟨job,answers.kept unused id job present,status⟩
  · intro id job present audio
    rcases rows id job present with before | ⟨_,request,rfl,rfl⟩
    · exact sound.named id job before audio
    · exact sound.called call _ request asked rfl audio
  · intro other phase'' request here waits audio
    rw [getElem?_set] at here
    split at here
    · split at here
      · cases here
        cases answers with
        | waits _ _ request waited still =>
          rw [still] at waits
          cases waits
          exact sound.called call _ _ asked waited audio
        | _ => cases waits
      · cases here
    · exact sound.called other phase'' request here waits audio
  · intro id run job fileId ran past present about
    rcases rows id job present with before | ⟨rfl,_⟩
    · exact sound.written id run job fileId ran past before about
    · obtain ⟨_,before,_⟩ := sound.running id run ran
      rw [unused] at before
      cases before

theorem called_covered (sound : Sound sys) (covered : Covered sys) (asked : sys.queue.enqueues[call]? = some phase)
    (answers : Answers now jobId sys.queue.jobs phase phase' after) (unused : sys.queue.jobs.get jobId = none)
    (cared : Cared sys (.enqueue call now jobId)) :
    Covered {sys with queue := ⟨after,sys.queue.enqueues.set call phase',sys.queue.claims⟩} := by
  have serve : ∀ fileId, Served sys fileId →
      Served {sys with queue := ⟨after,sys.queue.enqueues.set call phase',sys.queue.claims⟩} fileId := by
    rintro fileId ⟨id,job,present,live,about,working⟩
    exact ⟨id,job,answers.kept unused id job present,live,about,working⟩
  intro fileId processing
  rcases covered fileId processing with served | ⟨key,task,other,rest,phase'',request,awaits⟩
  · exact .inl (serve fileId served)
  · by_cases same : call = other
    · subst same
      have here := awaits.asked
      rw [asked] at here
      cases here
      have waits := awaits.waits
      have audio := request_resource awaits.resource
      cases answers with
      | waits _ _ request' waited still =>
        rw [waited] at waits
        cases waits
        have placed : (sys.queue.enqueues.set call phase')[call]? = some phase' := by
          rw [getElem?_set_self (List.getElem?_eq_some_iff.mp asked).1]
        exact .inr ⟨key,task,call,rest,phase',request,awaits.held,awaits.about,awaits.at_,placed,still,awaits.resource⟩
      | full request' result many =>
        cases waits
        have room := of_decide_eq_true (cared _ asked) audio
        omega
      | there _ request' result id job waited present live same =>
        rw [waited] at waits
        cases waits
        exact .inl (serve fileId (served_live sound present live (same.trans awaits.resource) processing))
      | inserted request' result =>
        cases waits
        refine .inl ⟨jobId,Jobs.queuedJob now request,get_set_self,.inl rfl,awaits.resource,?_⟩
        intro run ran
        obtain ⟨_,before,_⟩ := sound.running jobId run ran
        rw [unused] at before
        cases before
    · refine .inr ⟨key,task,other,rest,phase'',request,awaits.same awaits.held ?_⟩
      rw [getElem?_set_ne same]
      exact awaits.asked

theorem enqueue_kept (sound : Sound sys) (covered : Covered sys) (cared : Cared sys (.enqueue call now jobId))
    (fired : step sys (.enqueue call now jobId) = some next) : Sound next ∧ Covered next := by
  unfold step at fired
  dsimp only at fired
  split at fired
  · rename_i enabled
    obtain ⟨queue,moved,rfl⟩ := map_eq_some_iff.mp fired
    have consistent := Jobs.step_consistent sound.consistent moved
    unfold Jobs.step at moved
    dsimp only at moved
    split at moved
    · cases moved
    · rename_i phase asked
      split at moved
      · cases moved
      · rename_i phase' after ran
        cases moved
        have answers := advance_answers enabled.2 ran
        exact ⟨called_sound sound consistent asked answers enabled.2,
          called_covered sound covered asked answers enabled.2 cared⟩
  · cases fired

end Calls

section Workers
variable {sys next : System} {id fileId jobId workerId : String} {job : BackgroundJob} {kind : JobKind} {now : Int} {run before : Run}
  {result : Except String Unit} {files : KeyMap String FileRow} {row : FileRow} {change : FileRow → FileRow} {update : Jobs.Update}
  {after : Jobs.Table}

def Alike (jobs after : Jobs.Table) : Prop :=
  ∀ id found, after.get id = some found → ∃ old, jobs.get id = some old ∧ found.kind = old.kind ∧ found.resource = old.resource

theorem Alike.named (alike : Alike sys.queue.jobs after) (sound : Sound sys) :
    ∀ id found, after.get id = some found → found.kind = .audioWaveform →
      ∃ fileId, found.resource = audioResource fileId ∧ (sys.files.get fileId).isSome = true := by
  intro id found there audio
  obtain ⟨old,present,kind,resource⟩ := alike id found there
  obtain ⟨fileId,about,row⟩ := sound.named id old present (kind.symm.trans audio)
  exact ⟨fileId,resource.trans about,row⟩

theorem Alike.written (alike : Alike sys.queue.jobs after) (sound : Sound sys) :
    ∀ id run found fileId, sys.runs.get id = some run → ¬run.AtWork → after.get id = some found →
      found.resource = audioResource fileId → ¬Processing sys fileId := by
  intro id run found fileId ran past there about
  obtain ⟨old,present,_,resource⟩ := alike id found there
  exact sound.written id run old fileId ran past present (resource.symm.trans about)

section
variable (sound : Sound sys) (covered : Covered sys)
include sound covered

theorem claim_kept {skipped : List String}
    (fired : step sys (.claim now workerId skipped) = some next) : Sound next ∧ Covered next := by
  rcases Jobs.claim_cases now workerId skipped sys.queue.jobs with nothing | ⟨jobId,job,present,claimable,handed⟩
  · simp only [step,nothing] at fired
    cases fired
    exact ⟨sound,covered⟩
  · simp only [step,handed] at fired
    cases fired
    have alike : Alike sys.queue.jobs (sys.queue.jobs.set jobId (Jobs.claimed now workerId job)) := by
      intro id found there
      rw [get_set] at there
      split at there
      · rename_i same
        cases there
        exact ⟨job,by rw [same]; exact present,rfl,rfl⟩
      · exact ⟨found,there,rfl,rfl⟩
    refine ⟨⟨Jobs.claim_consistent now workerId present claimable sound.consistent,?_,alike.named sound,sound.called,sound.last,?_⟩,?_⟩
    · intro id run ran
      dsimp only at ran ⊢
      rw [get_set] at ran
      split at ran
      · rename_i same
        exact ⟨Jobs.claimed now workerId job,by rw [same,get_set_self],rfl⟩
      · rename_i other
        rw [get_set_ne other]
        exact sound.running id run ran
    · intro id run found fileId ran past there about
      dsimp only at ran
      rw [get_set] at ran
      split at ran
      · cases ran
        exact absurd (.inl rfl) past
      · exact alike.written sound id run found fileId ran past there about
    · intro fileId processing
      rcases covered fileId processing with ⟨id,found,there,live,about,working⟩ | pending
      · by_cases same : id = jobId
        · subst same
          rw [present] at there
          cases there
          refine .inl ⟨id,Jobs.claimed now workerId job,get_set_self,.inr rfl,about,?_⟩
          intro run ran
          rw [get_set_self] at ran
          cases ran
          exact .inl rfl
        · refine .inl ⟨id,found,(get_set_ne same).trans there,live,about,?_⟩
          intro run ran
          exact working run ((get_set_ne same).symm.trans ran)
      · exact .inr (pending_same pending rfl rfl)

theorem executed_kept (present : sys.queue.jobs.get jobId = some job)
    (held : sys.runs.get jobId = some before) (there : ∀ id, (sys.files.get id).isSome = true → (files.get id).isSome = true)
    (others : ∀ id, job.resource ≠ audioResource id → Processing {sys with files := files} id → Processing sys id)
    (own : run.AtWork ∨ ∀ id, job.resource = audioResource id → ¬Processing {sys with files := files} id) :
    Sound {sys with files := files,runs := sys.runs.set jobId run} ∧ Covered {sys with files := files,runs := sys.runs.set jobId run} := by
  obtain ⟨_,same,active⟩ := sound.running jobId before held
  rw [present] at same
  cases same
  refine ⟨⟨sound.consistent,?_,?_,?_,sound.last,?_⟩,?_⟩
  · intro id run ran
    dsimp only at ran
    rw [get_set] at ran
    split at ran
    · rename_i same
      exact ⟨job,by rw [same]; exact present,active⟩
    · exact sound.running id run ran
  · intro id found here audio
    obtain ⟨fileId,about,row⟩ := sound.named id found here audio
    exact ⟨fileId,about,there fileId row⟩
  · intro call phase request asked waits audio
    obtain ⟨fileId,about,row⟩ := sound.called call phase request asked waits audio
    exact ⟨fileId,about,there fileId row⟩
  · intro id other found fileId ran past here about processing
    dsimp only at ran
    rw [get_set] at ran
    split at ran
    · rename_i same
      subst same
      cases ran
      rw [present] at here
      cases here
      rcases own with working | done
      · exact past working
      · exact done fileId about processing
    · rename_i ne
      have apart : job.resource ≠ audioResource fileId := by
        intro mine
        obtain ⟨_,same,running⟩ := sound.running id other ran
        rw [here] at same
        cases same
        refine ne (sound.consistent.index id jobId found job here present (.inr running) (.inr active) ?_ (about.trans mine.symm))
        rw [about]
        rfl
      exact sound.written id other found fileId ran past here about (others fileId apart processing)
  · intro fileId processing
    by_cases mine : job.resource = audioResource fileId
    · rcases own with working | done
      · refine .inl ⟨jobId,job,present,.inr active,mine,?_⟩
        intro other ran
        rw [get_set_self] at ran
        cases ran
        exact working
      · exact absurd processing (done fileId mine)
    · rcases covered fileId (others fileId mine processing) with ⟨id,found,here,live,about,working⟩ | pending
      · have ne : id ≠ jobId := by
          rintro rfl
          rw [present] at here
          cases here
          exact mine about
        refine .inl ⟨id,found,here,live,about,?_⟩
        intro other ran
        exact working other ((get_set_ne ne).symm.trans ran)
      · exact .inr (pending_same pending rfl rfl)

theorem released_kept (held : sys.runs.get jobId = some run) (past : ¬run.AtWork)
    (consistent : Jobs.Consistent {sys.queue with jobs := (update.run sys.queue.jobs).1})
    (only : ∀ id job, update.guard id job = true → id = jobId)
    (same : ∀ job, (update.set job).kind = job.kind ∧ (update.set job).resource = job.resource) :
    Sound {sys with queue := {sys.queue with jobs := (update.run sys.queue.jobs).1},runs := sys.runs.remove jobId} ∧
      Covered {sys with queue := {sys.queue with jobs := (update.run sys.queue.jobs).1},runs := sys.runs.remove jobId} := by
  have alike : Alike sys.queue.jobs (update.run sys.queue.jobs).1 := by
    intro id found there
    rw [Jobs.Update.run,get_mapEntries] at there
    obtain ⟨old,here,rfl⟩ := map_eq_some_iff.mp there
    refine ⟨old,here,?_⟩
    split
    · exact same old
    · exact ⟨rfl,rfl⟩
  have others : ∀ id, id ≠ jobId → (update.run sys.queue.jobs).1.get id = sys.queue.jobs.get id := by
    intro id ne
    rw [Jobs.Update.run,get_mapEntries]
    cases sys.queue.jobs.get id with
    | none => rfl
    | some old =>
      rw [map_some,if_neg]
      exact fun guard => ne (only id old guard)
  have remain : ∀ id run, (sys.runs.remove jobId).get id = some run → id ≠ jobId ∧ sys.runs.get id = some run := by
    intro id run ran
    have ne : id ≠ jobId := by
      rintro rfl
      rw [get_remove_self] at ran
      cases ran
    rw [get_remove_ne ne] at ran
    exact ⟨ne,ran⟩
  refine ⟨⟨consistent,?_,alike.named sound,sound.called,sound.last,?_⟩,?_⟩
  · intro id run ran
    obtain ⟨ne,ran⟩ := remain id run ran
    obtain ⟨job,present,status⟩ := sound.running id run ran
    exact ⟨job,(others id ne).trans present,status⟩
  · exact fun id run found fileId ran => alike.written sound id run found fileId (remain id run ran).2
  · intro fileId processing
    rcases covered fileId processing with ⟨id,found,here,live,about,working⟩ | pending
    · have ne : id ≠ jobId := by
        rintro rfl
        exact past (working run held)
      exact .inl ⟨id,found,(others id ne).trans here,live,about,fun run ran => working run (remain id run ran).2⟩
    · exact .inr (pending_same pending rfl rfl)

end

theorem get_onResource : (onResource job change files).get id =
    if job.resourceId = some id then (files.get id).map change else files.get id := by
  unfold onResource
  cases job.resourceId with
  | none => rfl
  | some fileId =>
    dsimp only
    by_cases same : fileId = id
    · subst same
      rw [if_pos rfl,get_modify_self]
    · rw [if_neg (fun here => same (Option.some.inj here)),KeyMap.modify,get_mapEntries]
      cases files.get id with
      | none => rfl
      | some row => exact congrArg some (if_neg (Ne.symm same))

theorem onResource_there (id : String) (present : (files.get id).isSome = true) : ((onResource job change files).get id).isSome = true := by
  rw [get_onResource]
  split
  · rw [isSome_map]
    exact present
  · exact present

theorem onResource_others (named : job.kind = .audioWaveform → ∃ fileId, job.resource = audioResource fileId)
    (columns : job.kind ≠ .audioWaveform → ∀ row, isAudioProcessing (change row) = isAudioProcessing row) :
    ∀ id, job.resource ≠ audioResource id → Processing {sys with files := onResource job change sys.files} id → Processing sys id := by
  rintro id apart ⟨row,present,holds⟩
  dsimp only at present
  rw [get_onResource] at present
  split at present
  · rename_i here
    obtain ⟨old,there,rfl⟩ := map_eq_some_iff.mp present
    have quiet : job.kind ≠ .audioWaveform := by
      intro audio
      obtain ⟨fileId,about⟩ := named audio
      have same := (audio_job.mp about).2.2
      rw [here] at same
      cases same
      exact apart about
    rw [columns quiet] at holds
    exact ⟨old,there,holds⟩
  · exact ⟨row,present,holds⟩

theorem onResource_own (done : job.kind = .audioWaveform → ∀ row, isAudioProcessing (change row) = false) :
    ∀ id, job.resource = audioResource id → ¬Processing {sys with files := onResource job change sys.files} id := by
  rintro id about ⟨row,present,holds⟩
  obtain ⟨audio,_,here⟩ := audio_job.mp about
  dsimp only at present
  rw [get_onResource,if_pos here] at present
  obtain ⟨old,_,rfl⟩ := map_eq_some_iff.mp present
  rw [done audio old] at holds
  cases holds

theorem markProcessing_columns (other : kind ≠ .audioWaveform) (row : FileRow) : isAudioProcessing (markProcessing kind row) = isAudioProcessing row := by
  cases kind with
  | audioWaveform => exact absurd rfl other
  | _ => rfl

theorem markReady_columns (other : kind ≠ .audioWaveform) (row : FileRow) : isAudioProcessing (markReady kind row) = isAudioProcessing row := by
  cases kind with
  | audioWaveform => exact absurd rfl other
  | _ => rfl

theorem markFailed_columns (other : kind ≠ .audioWaveform) (row : FileRow) : isAudioProcessing (markFailed kind row) = isAudioProcessing row := by
  cases kind with
  | audioWaveform => exact absurd rfl other
  | _ => rfl

theorem markReady_done (audio : kind = .audioWaveform) (row : FileRow) : isAudioProcessing (markReady kind row) = false := by
  subst audio
  simp [markReady,isAudioProcessing]

theorem markFailed_done (audio : kind = .audioWaveform) (row : FileRow) : isAudioProcessing (markFailed kind row) = false := by
  subst audio
  simp [markFailed,isAudioProcessing]

theorem cancelled_done (cancelled : isWaveformCancelled sys.files job = true) (about : job.resource = audioResource fileId) :
    ¬Processing sys fileId := by
  rintro ⟨row,present,holds⟩
  rw [isWaveformCancelled,(audio_job.mp about).2.2,bind_some,present] at cancelled
  have status : row.audioEncodeStatus = some .cancelled := of_decide_eq_true cancelled
  simp [isAudioProcessing,status] at holds

theorem execute_kept (sound : Sound sys) (covered : Covered sys) (fired : step sys (.execute jobId now result) = some next) :
    Sound next ∧ Covered next := by
  unfold step at fired
  dsimp only at fired
  split at fired
  · rename_i job run present held
    cases fired
    have named : job.kind = .audioWaveform → ∃ fileId, job.resource = audioResource fileId := by
      intro audio
      obtain ⟨fileId,about,_⟩ := sound.named jobId job present audio
      exact ⟨fileId,about⟩
    have only : ∀ id job, Jobs.running jobId id job = true → id = jobId := fun _ _ guard => (of_decide_eq_true guard).1
    unfold execute
    split
    · split
      · rename_i cancelled
        exact executed_kept sound covered present held (fun _ there => there) (fun _ _ processing => processing)
          (.inr (fun _ about => cancelled_done cancelled.2 about))
      · exact executed_kept sound covered present held onResource_there (onResource_others named markProcessing_columns) (.inl (.inr rfl))
    · split
      · exact executed_kept sound covered present held onResource_there (onResource_others named markReady_columns)
          (.inr (onResource_own markReady_done))
      · exact executed_kept sound covered present held onResource_there (onResource_others named markFailed_columns)
          (.inr (onResource_own markFailed_done))
    · have past : ¬Run.completing.AtWork := by
        rintro (same | same) <;> cases same
      have consistent := Jobs.update_consistent (Jobs.statement_orderly (.completeJob now jobId) _) sound.consistent
      exact released_kept sound covered held past consistent only (fun _ => ⟨rfl,rfl⟩)
    · rename_i message
      have past : ¬(Run.failing message).AtWork := by
        rintro (same | same) <;> cases same
      have consistent := Jobs.update_consistent (Jobs.statement_orderly (.failJob now jobId message) _) sound.consistent
      exact released_kept sound covered held past consistent only (fun _ => ⟨rfl,rfl⟩)
  · cases fired

end Workers

section Runs
variable {sys next : System} {key : Nat} {event : Event} {mimeType : Option String}

section
variable (sound : Sound sys) (covered : Covered sys)
include sound covered

theorem upload_kept {upload : Upload} {contentHash : String} {finaliser : Finaliser}
    (fired : step sys (.upload key upload contentHash finaliser) = some next) : Sound next ∧ Covered next := by
  unfold step at fired
  dsimp only at fired
  split at fired
  · cases fired
  · rename_i enabled
    cases fired
    have unused : sys.tasks.get key = none := by
      rw [Bool.or_eq_true,not_or,KeyMap.contains] at enabled
      exact not_isSome_iff_eq_none.mp enabled.1
    have idle : Idle sys key := by
      intro fileId task call rest phase request awaits
      have held := awaits.held
      rw [unused] at held
      cases held
    have others : ∀ task other, other ≠ key → (sys.tasks.set key task).get other = sys.tasks.get other :=
      fun _ _ ne => get_set_ne ne
    refine ⟨retasked_sound sound (others _) ?_,retasked_covered covered idle (others _)⟩
    intro task call rest held at_
    rw [get_set_self] at held
    cases held
    dsimp only at at_
    split at at_ <;> cases at_

theorem fail_kept (cared : Cared sys (.fail key)) (fired : step sys (.fail key) = some next) :
    Sound next ∧ Covered next := by
  obtain ⟨task,held,rfl⟩ := map_eq_some_iff.mp fired
  apply ended_kept sound covered
  intro fileId other call rest phase request awaits
  have same := awaits.held
  rw [held] at same
  cases same
  have quiet := cared task held
  rw [Task.awaitsWaveform,awaits.at_] at quiet
  dsimp only at quiet
  rw [awaits.asked,bind_some,awaits.waits] at quiet
  exact of_decide_eq_false quiet (request_resource awaits.resource)

theorem step_kept (cared : Cared sys event) (fired : step sys event = some next) :
    Sound next ∧ Covered next := by
  cases event with
  | upload key upload contentHash finaliser => exact upload_kept sound covered fired
  | advance key tie =>
    obtain ⟨task,held,moved⟩ := bind_eq_some_iff.mp fired
    exact advance_kept sound covered held cared moved
  | fail key => exact fail_kept sound covered cared fired
  | enqueue call now jobId => exact enqueue_kept sound covered cared fired
  | claim now workerId skipped => exact claim_kept sound covered fired
  | execute jobId now result => exact execute_kept sound covered fired

end

theorem empty_sound : Sound empty :=
  ⟨Jobs.empty_consistent,fun _ _ ran => (by cases ran),fun _ _ present => (by cases present),fun _ _ _ asked => (by cases asked),
    fun _ _ _ _ held => (by cases held),fun _ _ _ _ ran => (by cases ran)⟩

theorem empty_covered : Covered empty := by
  rintro fileId ⟨row,present,_⟩
  cases present

theorem audio_not_video (audio : mimeStartsWith "audio/" mimeType = true) : mimeStartsWith "video/" mimeType = false := by
  cases mimeType with
  | none => rfl
  | some text =>
    rw [mimeStartsWith,any_some,startsWith] at audio ⊢
    have first : "audio/".toList = 'a' :: "udio/".toList := by decide
    have other : "video/".toList = 'v' :: "ideo/".toList := by decide
    rw [first] at audio
    rw [other]
    cases letters : text.toList with
    | nil => rfl
    | cons letter rest =>
      rw [letters,isPrefixOf_cons_cons,Bool.and_eq_true,beq_iff_eq] at audio
      rw [← audio.1]
      rfl

theorem covered_attended (covered : Covered sys) : Attended sys := by
  intro id row present _ audio processing
  have holds : isAudioProcessing row = true := by
    rw [isFileProcessing,isVideoProcessing,audio_not_video audio] at processing
    exact processing
  rcases covered id ⟨row,present,holds⟩ with ⟨jobId,job,there,live,about,_⟩ | ⟨key,task,_,_,_,_,awaits⟩
  · exact .inl ⟨jobId,job,there,live,(audio_job.mp about).2.2⟩
  · exact .inr ⟨key,task,awaits.held,awaits.about⟩

theorem no_row_stuck (events : List Event) (final : System) (ran : Schedule.run step empty events = some final)
    (cared : Schedule.Along step Cared empty events) : Attended final := by
  have keep : ∀ sys event next, Sound sys ∧ Covered sys → Cared sys event → step sys event = some next → Sound next ∧ Covered next :=
    fun _ _ _ held good fired => step_kept held.1 held.2 good fired
  have kept := Schedule.run_along keep ⟨empty_sound,empty_covered⟩ cared ran
  exact covered_attended kept.2

end Runs

section Songs

def song (fileId : String) : Upload := ⟨fileId,"ann","audio/mpeg",false,false,3,0⟩

def uploaded : List Event :=
  [.upload 0 (song "a") "hash" .spooled,.advance 0 0,.advance 0 0,.enqueue 0 1 "job",.enqueue 0 2 "job",.enqueue 0 3 "job",
   .advance 0 0,.advance 0 0]

def processed : List Event := .claim 4 "worker" [] :: List.replicate 3 (.execute "job" 5 (.ok ()))

def uploadedAgain : List Event := [.upload 1 (song "b") "hash" .spooled,.advance 1 0,.advance 1 0,.advance 1 0]

theorem no_row_stuck_song : ∃ final, Schedule.run step empty (uploaded ++ processed ++ uploadedAgain) = some final ∧ Attended final := by
  have goes : (Schedule.run step empty (uploaded ++ processed ++ uploadedAgain)).isSome = true := by decide +kernel
  obtain ⟨final,ran⟩ := isSome_iff_exists.mp goes
  exact ⟨final,ran,no_row_stuck _ final ran (by decide +kernel)⟩

-- Uploaded again while its job waits, the song is there twice, and once for good as processing.
theorem row_stuck : ∃ final, Schedule.run step empty (uploaded ++ uploadedAgain ++ processed) = some final ∧ ¬Attended final := by
  obtain ⟨final,ran,processing,jobs,tasks⟩ : ∃ final, Schedule.run step empty (uploaded ++ uploadedAgain ++ processed) = some final ∧
      (final.files.get "b").any (fun row => decide (row.Active) && mimeStartsWith "audio/" row.mimeType && isFileProcessing row) = true ∧
      final.queue.jobs.any (fun _ job => decide job.Live) = false ∧ final.tasks.any (fun _ _ => true) = false :=
    Schedule.reached_of_any (by decide +kernel)
  refine ⟨final,ran,fun attended => ?_⟩
  obtain ⟨row,present,holds⟩ := (Option.any_eq_true _ _).mp processing
  rw [Bool.and_eq_true,Bool.and_eq_true,decide_eq_true_iff] at holds
  rcases attended "b" row present holds.1.1 holds.1.2 holds.2 with ⟨jobId,job,there,live,_⟩ | ⟨key,task,held,_⟩
  · have working : final.queue.jobs.any (fun _ job => decide job.Live) = true :=
      any_iff.mpr ⟨jobId,job,there,decide_eq_true live⟩
    rw [jobs] at working
    cases working
  · have uploading : final.tasks.any (fun _ _ => true) = true := any_iff.mpr ⟨key,task,held,rfl⟩
    rw [tasks] at uploading
    cases uploading

end Songs

end Ownly.Files.Waveforms
