import Ownly.Files.Waveforms

-- backend/src/hls/handlers.rs post_export, hls/export_job.rs and the exports of
-- files/zip_job.rs, taken apart into their statements, each of which may fail.
namespace Ownly.Hls.Exports
open Jobs (JobKind BackgroundJob EnqueueRequest EnqueuePhase)
open Files.Waveforms (waiting)

inductive ExportStatus where
  | queued
  | processing
  | ready
  | failed
  deriving DecidableEq, Repr

def ExportStatus.text : ExportStatus → String
  | .queued => "queued"
  | .processing => "processing"
  | .ready => "ready"
  | .failed => "failed"

-- The `download_export_*` columns of a row of `files`, and what else post_export reads.
structure ExportRow where
  userId : String
  storageKey : String
  hlsReady : Option Bool
  segmentCount : Option Int
  exportReady : Bool
  status : Option ExportStatus
  progress : Int
  error : Option String
  sizeBytes : Option Int
  deriving DecidableEq, Repr

abbrev Files := KeyMap String ExportRow

def minExportMp4Bytes : Int := 4096

def exportCacheIsValid (exportReady : Bool) (sizeBytes : Option Int) : Bool :=
  exportReady && sizeBytes.any (fun size => decide (minExportMp4Bytes ≤ size))

structure ExportStatusResponse where
  status : String
  progress : Int
  ready : Bool
  sizeBytes : Option Int
  error : Option String
  deriving DecidableEq, Repr

def exportStatusJson (ready : Bool) (status : Option ExportStatus) (progress : Int) (sizeBytes : Option Int) (error : Option String) :
    ExportStatusResponse :=
  {status := if ready then "ready" else (status.map ExportStatus.text).getD "idle"
   progress := if ready then 100 else progress
   ready := ready
   sizeBytes := sizeBytes
   error := error}

def loadExportRow (files : Files) (fileId userId : String) : Except AppError ExportRow :=
  match files.get fileId with
  | some row => if row.userId = userId then .ok row else .error .notFound
  | none => .error .notFound

-- What post_export answers from the row alone, if it does.
def answer (row : ExportRow) : Option (Except AppError ExportStatusResponse) :=
  if row.hlsReady.getD false = false then some (.error (.badRequest "file is not stored as HLS video"))
  else if exportCacheIsValid row.exportReady row.sizeBytes then some (.ok (exportStatusJson true (some .ready) 100 row.sizeBytes none))
  else match row.status with
    | some .processing => some (.ok (exportStatusJson false row.status row.progress row.sizeBytes none))
    | some .queued => some (.ok (exportStatusJson false row.status row.progress row.sizeBytes none))
    | some .failed => some (.ok (exportStatusJson false (some .failed) 0 row.sizeBytes row.error))
    | _ => none

def queue (row : ExportRow) : ExportRow :=
  {row with status := some .queued,error := none,progress := 0,exportReady := false}

def markExportProcessing (row : ExportRow) : ExportRow :=
  {row with status := some .processing,error := none,progress := 0,exportReady := false}

def markExportFailed (message : String) (row : ExportRow) : ExportRow :=
  {row with status := some .failed,error := some message,progress := 0,exportReady := false}

def setExportProgress (progress : Int) (row : ExportRow) : ExportRow := {row with progress := progress}

def markExportReady (size : Int) (row : ExportRow) : ExportRow :=
  {row with exportReady := true,status := some .ready,error := none,sizeBytes := some size}

-- backend/src/hls/encode_job.rs
def invalidateDownloadExport (row : ExportRow) : ExportRow :=
  {row with exportReady := false,status := none,error := none,progress := 0,sizeBytes := none}

-- The payload of the job names the file and its storage, and nothing here reads it: the
-- worker takes the file from the resource.
def exportRequest (userId fileId : String) : EnqueueRequest :=
  {userId := userId,kind := .hlsExport,label := "Video export",resourceType := some "file",resourceId := some fileId,payload := ""}

inductive Phase where
  | loading
  | queueing
  | enqueuing (call : Nat)
  deriving DecidableEq, Repr

structure Request where
  userId : String
  fileId : String
  phase : Phase
  deriving DecidableEq, Repr

inductive Stage where
  | marking
  | working
  deriving DecidableEq, Repr

inductive Outcome where
  | progress (percent : Int)
  | ready (size : Int)
  | failed (message : String)
  deriving DecidableEq, Repr

def Outcome.final : Outcome → Bool
  | .progress _ => false
  | _ => true

def Outcome.write : Outcome → ExportRow → ExportRow
  | .progress percent => setExportProgress percent
  | .ready size => markExportReady size
  | .failed message => markExportFailed message

-- execute_job on a job it was handed: the export, the row run_hls_export reads after it,
-- and what it then says of the job; `erring` once it has come back with an error.
inductive RunPhase where
  | exporting (stage : Stage)
  | reading
  | completing
  | failing (message : String)
  | erring (message : String)
  deriving DecidableEq, Repr

structure Run where
  jobId : String
  phase : RunPhase
  deriving DecidableEq, Repr

-- ensure_hls_export_ready of a zip job on one of its videos: no stage while it polls.
structure Zip where
  fileId : String
  started : Bool
  stage : Option Stage
  deriving DecidableEq, Repr

structure System where
  files : Files
  queue : Jobs.System
  requests : KeyMap Nat Request
  runs : KeyMap Nat Run
  zips : KeyMap Nat Zip

inductive Event where
  | store (fileId : String) (row : ExportRow)
  | encode (fileId : String) (hlsReady : Option Bool) (segmentCount : Option Int)
  | invalidate (fileId : String)
  | post (key : Nat) (userId fileId : String)
  | advance (key : Nat)
  | fail (key : Nat)
  -- somebody else's call of enqueue_job
  | ask (request : EnqueueRequest)
  | enqueue (call : Nat) (now : Int) (jobId : String)
  | claim (now : Int) (workerId : String) (skipped : List String) (key : Nat)
  -- with the text of its error where the statement fails
  | execute (key : Nat) (now : Int) (outcome : Outcome) (lost : Option String)
  | lose (key : Nat)
  | update (statement : Jobs.Statement)
  | zip (key : Nat) (fileId : String) (started : Bool)
  | poll (key : Nat)
  | exportZip (key : Nat) (outcome : Outcome) (lost : Bool)
  | drop (key : Nat)

-- An UPDATE of the row whose error nobody looks at.
def write (lost : Bool) (fileId : String) (change : ExportRow → ExportRow) (files : Files) : Files :=
  if lost then files else files.modify fileId change

def System.ended (sys : System) (key : Nat) : System := {sys with requests := sys.requests.remove key}

def advance (sys : System) (key : Nat) (request : Request) : Option System :=
  match request.phase with
  | .loading =>
    match loadExportRow sys.files request.fileId request.userId with
    | .error _ => some (sys.ended key)
    | .ok row =>
      match answer row with
      | some _ => some (sys.ended key)
      | none => some {sys with requests := sys.requests.set key {request with phase := .queueing}}
  | .queueing =>
    some {sys with
      files := sys.files.modify request.fileId Exports.queue
      queue := {sys.queue with enqueues := sys.queue.enqueues ++ [.counting (exportRequest request.userId request.fileId)]}
      requests := sys.requests.set key {request with phase := .enqueuing sys.queue.enqueues.length}}
  | .enqueuing call =>
    match sys.queue.enqueues[call]? with
    | some (.done _) => some (sys.ended key)
    | _ => none

def awaited (sys : System) (call : Nat) : Bool := sys.requests.any (fun _ request => decide (request.phase = .enqueuing call))

def foreign : EnqueuePhase → Bool
  | phase => (waiting phase).any (fun request => decide (request.kind ≠ .hlsExport))

def contains (text pattern : String) : Bool := decide (pattern.toList <:+: text.toList)

def isPermanentJobFailure (message : String) : Bool :=
  let lower := message.toLower
  decide (lower = "not found") || contains lower "not found" || contains lower "forbidden" || contains lower "unauthorized" ||
    contains lower "invalid " || contains lower "bad request" || contains lower "no files"

def judge : Option ExportRow → RunPhase
  | some row => if row.exportReady then .completing else .failing (row.error.getD "video export failed")
  | none => .failing "file not found after export"

def RunPhase.next (row : Option ExportRow) (outcome : Outcome) (lost : Option String) : RunPhase → Option RunPhase
  | .exporting .marking => some (.exporting .working)
  | .exporting .working => some (if outcome.final then .reading else .exporting .working)
  | .reading =>
    match lost with
    | some error => some (.erring error)
    | none => some (judge row)
  | .completing => lost.map .erring
  | .failing _ => lost.map .erring
  | .erring _ => none

def RunPhase.change (outcome : Outcome) : RunPhase → Option (ExportRow → ExportRow)
  | .exporting .marking => some markExportProcessing
  | .exporting .working => some outcome.write
  | _ => none

def RunPhase.closing (now : Int) (jobId : String) : RunPhase → Option Jobs.Update
  | .completing => some (Jobs.completeJob now jobId)
  | .failing message => some (Jobs.failJob now jobId message)
  | .erring message => some (if isPermanentJobFailure message then Jobs.failJobPermanent now jobId message else Jobs.failJob now jobId message)
  | _ => none

def execute (sys : System) (key : Nat) (run : Run) (job : BackgroundJob) (now : Int) (outcome : Outcome) (lost : Option String) : System :=
  {sys with
    files := match job.resourceId,run.phase.change outcome with
      | some fileId,some change => write lost.isSome fileId change sys.files
      | _,_ => sys.files
    queue := match lost,run.phase.closing now run.jobId with
      | none,some update => {sys.queue with jobs := (update.run sys.queue.jobs).1}
      | _,_ => sys.queue
    runs := match run.phase.next (job.resourceId.bind sys.files.get) outcome lost with
      | some phase => sys.runs.set key {run with phase := phase}
      | none => sys.runs.remove key}

def poll (sys : System) (key : Nat) (zip : Zip) : System :=
  match sys.files.get zip.fileId with
  | none => {sys with zips := sys.zips.remove key}
  | some row =>
    if row.exportReady then {sys with zips := sys.zips.remove key}
    else match row.status with
      | some .failed => {sys with zips := sys.zips.remove key}
      | some .processing => sys
      | some .queued => sys
      | _ =>
        if zip.started then {sys with zips := sys.zips.remove key}
        else {sys with zips := sys.zips.set key {zip with stage := some .marking}}

def exportFor (sys : System) (key : Nat) (zip : Zip) (outcome : Outcome) (lost : Bool) : Stage → System
  | .marking =>
    {sys with
      files := write lost zip.fileId markExportProcessing sys.files
      zips := sys.zips.set key {zip with stage := some .working}}
  | .working =>
    {sys with
      files := write lost zip.fileId outcome.write sys.files
      zips := sys.zips.set key (if outcome.final then {zip with started := true,stage := none} else zip)}

def step (sys : System) : Event → Option System
  | .store fileId row =>
    if sys.files.contains fileId || row.status.isSome then none else some {sys with files := sys.files.set fileId row}
  | .encode fileId hlsReady segmentCount =>
    some {sys with files := sys.files.modify fileId (fun row => {row with hlsReady := hlsReady,segmentCount := segmentCount})}
  | .invalidate fileId => some {sys with files := sys.files.modify fileId invalidateDownloadExport}
  | .post key userId fileId =>
    if sys.requests.contains key then none else some {sys with requests := sys.requests.set key ⟨userId,fileId,.loading⟩}
  | .advance key => (sys.requests.get key).bind (advance sys key)
  | .fail key => (sys.requests.get key).map (fun _ => sys.ended key)
  | .ask request =>
    if request.kind = .hlsExport then none
    else some {sys with queue := {sys.queue with enqueues := sys.queue.enqueues ++ [.counting request]}}
  | .enqueue call now jobId =>
    if (awaited sys call ∨ (sys.queue.enqueues[call]?).any foreign) ∧ sys.queue.jobs.get jobId = none then
      (Jobs.step sys.queue (.advance call now jobId)).map (fun queue => {sys with queue := queue})
    else none
  | .claim now workerId skipped key =>
    if sys.runs.contains key then none
    else match Jobs.claimNextJob now workerId skipped sys.queue.jobs with
      | (_,none) => some sys
      | (jobs,some (jobId,job)) =>
        some {sys with
          queue := {sys.queue with jobs := jobs,claims := sys.queue.claims ++ [(jobId,workerId)]}
          runs := if job.kind = .hlsExport then sys.runs.set key ⟨jobId,.exporting .marking⟩ else sys.runs}
  | .execute key now outcome lost =>
    (sys.runs.get key).bind (fun run => (sys.queue.jobs.get run.jobId).map (fun job => execute sys key run job now outcome lost))
  | .lose key => (sys.runs.get key).map (fun _ => {sys with runs := sys.runs.remove key})
  | .update statement => some {sys with queue := {sys.queue with jobs := (statement.update.run sys.queue.jobs).1}}
  | .zip key fileId started =>
    if sys.zips.contains key then none else some {sys with zips := sys.zips.set key ⟨fileId,started,none⟩}
  | .poll key => ((sys.zips.get key).filter (fun zip => zip.stage.isNone)).map (poll sys key)
  | .exportZip key outcome lost => (sys.zips.get key).bind (fun zip => zip.stage.map (exportFor sys key zip outcome lost))
  | .drop key => (sys.zips.get key).map (fun _ => {sys with zips := sys.zips.remove key})

def empty : System := ⟨KeyMap.empty,Jobs.empty,KeyMap.empty,KeyMap.empty,KeyMap.empty⟩

def ExportRow.waits (row : ExportRow) : Bool := decide (row.status = some .queued ∨ row.status = some .processing)

def isExportOf (fileId : String) (job : BackgroundJob) : Prop :=
  job.kind = .hlsExport ∧ job.resourceId = some fileId ∧ job.Live

instance (fileId : String) (job : BackgroundJob) : Decidable (isExportOf fileId job) := inferInstanceAs (Decidable (_ ∧ _ ∧ _))

def NoneStuck (sys : System) : Prop :=
  (∀ key, sys.requests.get key = none) → ∀ fileId row, sys.files.get fileId = some row → row.waits = true →
    (∃ jobId job, sys.queue.jobs.get jobId = some job ∧ isExportOf fileId job) ∨
    ∃ key zip, sys.zips.get key = some zip ∧ zip.fileId = fileId ∧ zip.stage.isSome = true

def waits (sys : System) (fileId : String) : Bool := (sys.files.get fileId).any ExportRow.waits

def RunPhase.goesOn (job : BackgroundJob) : RunPhase → Bool
  | .exporting _ => true
  | .completing => false
  | .erring message => decide (job.attempts < job.maxAttempts) && !isPermanentJobFailure message
  | _ => decide (job.attempts < job.maxAttempts)

def carried (runs : KeyMap Nat Run) (jobId : String) (job : BackgroundJob) : Bool :=
  !runs.any (fun _ run => decide (run.jobId = jobId) && !run.phase.goesOn job)

def served (sys : System) (fileId : String) : Bool :=
  sys.queue.jobs.any (fun jobId job => decide (isExportOf fileId job) && carried sys.runs jobId job)

def zipped (zips : KeyMap Nat Zip) (fileId : String) : Bool :=
  zips.any (fun _ zip => decide (zip.fileId = fileId) && zip.stage.isSome)

def settled (sys : System) (fileId : String) : Bool := !waits sys fileId || served sys fileId || zipped sys.zips fileId

def adds (now : Int) (jobId : String) (jobs : Jobs.Table) (phase : EnqueuePhase) : Bool :=
  match Jobs.advance now jobId jobs phase with
  | some (.done (.ok id),after) => decide (id = jobId) && after.contains jobId
  | some (.done (.error _),_) => false
  | _ => true

def Request.awaits (calls : List EnqueuePhase) (request : Request) : Bool :=
  match request.phase with
  | .enqueuing call => (calls[call]?.bind waiting).isSome
  | _ => false

def harms (sys : System) (statement : Jobs.Statement) (jobId : String) (job : BackgroundJob) : Bool :=
  let after := statement.update.set job
  statement.update.guard jobId job && decide (job.kind = .hlsExport ∧ after.status ≠ .running) &&
    (sys.runs.any (fun _ run => decide (run.jobId = jobId)) ||
      (decide ¬after.Live && job.resourceId.any (fun fileId => waits sys fileId && !zipped sys.zips fileId)))

-- Where a statement fails or a job ends, its file does not wait any more, or somebody
-- else is still to write its status.
def Cared (sys : System) : Event → Prop
  | .enqueue call now jobId => ∀ phase ∈ sys.queue.enqueues[call]?,∀ request ∈ waiting phase,∀ fileId ∈ request.resourceId,
    request.kind = .hlsExport → adds now jobId sys.queue.jobs phase = true ∨ settled sys fileId = true
  | .fail key => ∀ request ∈ sys.requests.get key,request.awaits sys.queue.enqueues = true → settled sys request.fileId = true
  | .execute key _ outcome lost => ∀ run ∈ sys.runs.get key,∀ job ∈ sys.queue.jobs.get run.jobId,∀ fileId ∈ job.resourceId,
    ∀ phase ∈ run.phase.next (sys.files.get fileId) outcome lost,run.phase.goesOn job = true → phase.goesOn job = false →
      lost.isSome = true → waits sys fileId = false ∨ zipped sys.zips fileId = true
  | .update statement => sys.queue.jobs.any (harms sys statement) = false
  | .exportZip key outcome lost => ∀ zip ∈ sys.zips.get key,zip.stage = some .working → outcome.final = true → lost = true →
    settled {sys with zips := sys.zips.remove key} zip.fileId = true
  | .drop key => ∀ zip ∈ sys.zips.get key,zip.stage.isSome = true → settled {sys with zips := sys.zips.remove key} zip.fileId = true
  | _ => True

instance (sys : System) : (event : Event) → Decidable (Cared sys event)
  | .enqueue _ _ _ => inferInstanceAs (Decidable (∀ phase ∈ _,∀ request ∈ _,∀ fileId ∈ _,_ → _))
  | .fail _ => inferInstanceAs (Decidable (∀ request ∈ _,_ → _))
  | .execute _ _ _ _ => inferInstanceAs (Decidable (∀ run ∈ _,∀ job ∈ _,∀ fileId ∈ _,∀ phase ∈ _,_ → _ → _ → _))
  | .update _ => inferInstanceAs (Decidable (_ = _))
  | .exportZip _ _ _ => inferInstanceAs (Decidable (∀ zip ∈ _,_ → _ → _ → _))
  | .drop _ => inferInstanceAs (Decidable (∀ zip ∈ _,_ → _))
  | .store _ _ => .isTrue trivial
  | .encode _ _ _ => .isTrue trivial
  | .invalidate _ => .isTrue trivial
  | .post _ _ _ => .isTrue trivial
  | .advance _ => .isTrue trivial
  | .ask _ => .isTrue trivial
  | .claim _ _ _ _ => .isTrue trivial
  | .lose _ => .isTrue trivial
  | .zip _ _ _ => .isTrue trivial
  | .poll _ => .isTrue trivial

end Ownly.Hls.Exports
