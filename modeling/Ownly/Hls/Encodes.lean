import Ownly.Hls.Exports

-- backend/src/hls/encode_job.rs run_hls_encode_job under jobs/executor.rs run_hls_encode, and the
-- requests on the stream of one file, taken apart into their statements and PUTs.
namespace Ownly.Hls.Encodes
open Jobs (BackgroundJob)

inductive EncodeStatus where
  | queued
  | processing
  | reprocessing
  | ready
  | failed
  | cancelled
  deriving DecidableEq, Repr

structure FileRow where
  userId : String
  name : String
  hlsReady : Bool
  segmentCount : Option Int
  status : Option EncodeStatus
  error : Option String
  sourceMaster : Bool
  exportReady : Bool
  exportSizeBytes : Option Int
  deriving DecidableEq, Repr

inductive ObjectName where
  | playlist
  | init
  | segment (index : Nat)
  | ts (index : Nat)
  | sourceMaster
  | exportMp4
  deriving DecidableEq, Repr

def ObjectName.packaged : ObjectName → Bool
  | .sourceMaster => false
  | .exportMp4 => false
  | _ => true

def ObjectName.isSegment : ObjectName → Bool
  | .segment _ => true
  | _ => false

-- Which attempt wrote it, and what it names if it is a playlist.
structure Object where
  attempt : Nat
  names : List ObjectName
  deriving DecidableEq, Repr

abbrev Objects := KeyMap ObjectName Object

-- What ffmpeg left in the work directory: the segments its playlist names are there,
-- with those that a session before it may have left behind them.
structure Output where
  named : Nat
  produced : Nat
  listed : named ≤ produced
  deriving DecidableEq

def Output.object (output : Output) (key : Nat) : ObjectName → Object
  | .playlist => ⟨key,(List.range output.named).map .segment⟩
  | _ => ⟨key,[]⟩

def storageHasHlsMedia (objects : Objects) : Bool := objects.contains (.segment 0) || objects.contains (.ts 0)

def countStoredHlsSegments (objects : Objects) : Nat := (objects.entries.filter (fun entry => entry.1.isSegment)).length

def hlsSourceUnavailable : String := "upload source is no longer available; re-upload the video to finish processing"

def isPermanentEncodeFailure (message : String) : Bool := decide (message = hlsSourceUnavailable)

namespace FileRow

def segments (row : FileRow) : Int := row.segmentCount.getD 0

def loadPriorSegmentCount (row : FileRow) : Option Int := row.segmentCount.filter (fun count => decide (0 < count))

def isEncodeCancelled (row : FileRow) : Bool := decide (row.status = some .cancelled)

def markFailed (message : String) (row : FileRow) : FileRow := {row with status := some .failed,error := some message}

def markCancelled (row : FileRow) : FileRow :=
  if row.hlsReady then row else {row with status := some .cancelled,error := none}

-- The WHERE of restore_package_after_failed_reprocess.
def restorable (row : FileRow) : Bool :=
  decide (0 < row.segments ∧ row.status ∈ [some .reprocessing,some .processing,some .queued,some .failed,some .cancelled])

def restorePackage (message : String) (row : FileRow) : FileRow :=
  if row.restorable then {row with hlsReady := true,status := some .ready,error := some message} else row

def invalidateDownloadExport (row : FileRow) : FileRow := {row with exportReady := false,exportSizeBytes := none}

def publish (produced : Nat) (master : Bool) (row : FileRow) : FileRow :=
  {row with hlsReady := true,segmentCount := some produced,status := some .ready,error := none,sourceMaster := master}

-- The first UPDATE of cancel_hls_reprocess_for_file.
def rebuilding (row : FileRow) : Bool := decide (row.status = some .reprocessing ∧ 0 < row.segments)

def restoreRebuilding (row : FileRow) : FileRow := {row with hlsReady := true,status := some .ready,error := none}

def hide (row : FileRow) : FileRow := {row with hlsReady := false,status := some .reprocessing,error := none}

-- hls/handlers.rs, once the first segment is not found.
def withdraw (message : String) (row : FileRow) : FileRow :=
  if row.hlsReady then {row with hlsReady := false,status := some .failed,error := some message} else row

def orphaned (row : FileRow) : Bool :=
  !row.hlsReady && decide (row.status.getD .queued ∈ [EncodeStatus.queued,.processing,.reprocessing])

def recoverOrphan (spoolOk : Bool) (row : FileRow) : FileRow :=
  if !row.orphaned then row
  else if !spoolOk && decide (row.segments ≤ 0) then row.markFailed hlsSourceUnavailable
  else if decide (row.status = some .reprocessing) || (decide (0 < row.segments) && !spoolOk) then
    {row with status := some .reprocessing,error := none}
  else {row with status := some .queued,error := none}

end FileRow

inductive Source where
  | spool
  | master
  | cachedExport
  | materialized
  deriving DecidableEq, Repr

inductive Phase where
  | reading
  | manifests
  | uploading (skipped failed : List Nat)
  | verified
  | purgingStale
  | invalidating
  | persisting
  | publishing (master : Bool)
  deriving DecidableEq, Repr

abbrev Result := Except String Unit

inductive Stage where
  | asking
  | loading
  | resolving
  | starting (source : Source)
  | marking (source : Source)
  | marked (source : Source) (status : EncodeStatus)
  | keying (source : Source)
  | transcoding (source : Source)
  | packaging (source : Source) (output : Output) (phase : Phase)
  | failing (message : String) (purge : Bool) (result : Result)
  | purging (result : Result)
  | restoring (message : String) (result : Result)
  | reviving (message : String) (result : Result)
  | leaving (result : Result)
  -- run_hls_encode after the job
  | settling (result : Result)
  | closing (result : Result)
  | erring (message : String)

-- A claim of the job. `written` are its PUTs that were answered, and `alone` says that
-- nobody else wrote the package from its first PUT on.
structure Attempt where
  jobId : String
  prior : Option Int
  written : List ObjectName
  alone : Bool
  stage : Stage

def Stage.running : Stage → Bool
  | .asking => false
  | .settling _ => false
  | .closing _ => false
  | .erring _ => false
  | _ => true

def Attempt.running (attempt : Attempt) : Bool := attempt.stage.running

def Attempt.isReprocess (attempt : Attempt) : Bool := decide (0 < attempt.prior.getD 0)

def Attempt.uploaded (attempt : Attempt) (produced : Nat) : Nat :=
  ((List.range produced).filter (fun index => decide (.segment index ∈ attempt.written))).length

inductive RequestPhase where
  | loading
  | looking
  | hiding
  | cancelling
  | restoring
  | marking
  | purging
  deriving DecidableEq, Repr

inductive RequestKind where
  | cancelIngest
  | cancelReprocess
  | reprocess
  deriving DecidableEq, Repr

structure Request where
  kind : RequestKind
  userId : String
  phase : RequestPhase
  deriving DecidableEq, Repr

-- `touched`: an object of the package was written or deleted since an attempt last
-- published one.
structure System where
  fileId : String
  row : FileRow
  objects : Objects
  queue : Jobs.System
  attempts : KeyMap Nat Attempt
  requests : KeyMap Nat Request
  touched : Bool

inductive PutOutcome where
  | stored
  -- it landed, and its answer was lost
  | unanswered
  | refused (error : String)
  deriving DecidableEq, Repr

inductive Reply where
  | done
  | lost (error : String)
  | found (source : Source)
  | encoded (output : Output)
  | put (name : ObjectName) (outcome : PutOutcome)
  | skip (index : Nat)
  | erase (name : ObjectName)

def Reply.answered : Reply → Bool
  | .done => true
  | _ => false

inductive Event where
  | queue (event : Jobs.Event)
  | claim (now : Int) (workerId : String) (skipped : List String)
  | work (key : Nat) (now : Int) (reply : Reply)
  | lose (key : Nat)
  | request (key : Nat) (kind : RequestKind) (userId : String)
  | serve (key : Nat) (now : Int) (reply : Reply)
  | drop (key : Nat)
  | withdraw (message : String)
  | recoverOrphan (spoolOk : Bool)

def overtake (attempts : KeyMap Nat Attempt) (key : Option Nat) : KeyMap Nat Attempt :=
  attempts.mapEntries (fun other attempt => if some other = key then attempt else {attempt with alone := false})

namespace System

def working (sys : System) : Bool := sys.attempts.any (fun _ attempt => attempt.running)

def hold (sys : System) (key : Nat) (attempt : Attempt) : System := {sys with attempts := sys.attempts.set key attempt}

def ends (sys : System) (key : Nat) : System := {sys with attempts := sys.attempts.remove key}

def put (sys : System) (key : Nat) (name : ObjectName) (object : Object) : System :=
  if name.packaged then
    {sys with objects := sys.objects.set name object,attempts := overtake sys.attempts (some key),touched := true}
  else {sys with objects := sys.objects.set name object}

-- An erased object is one that was there.
def erase (sys : System) (key : Option Nat) (name : ObjectName) : System :=
  if name.packaged && sys.objects.contains name then
    {sys with objects := sys.objects.remove name,attempts := overtake sys.attempts key,touched := true}
  else {sys with objects := sys.objects.remove name}

def write (sys : System) (reply : Reply) (change : FileRow → FileRow) : System :=
  match reply with
  | .lost _ => sys
  | _ => {sys with row := change sys.row}

def update (sys : System) (update : Jobs.Update) : System :=
  {sys with queue := {sys.queue with jobs := (update.run sys.queue.jobs).1}}

def isJobCancelled (sys : System) (jobId : String) : Bool :=
  (sys.queue.jobs.get jobId).any (fun job => decide (job.status = .cancelled))

-- mark_cancelled and finalize_cancelled_running
def finalize (sys : System) (now : Int) (jobId : String) : System :=
  {sys with row := sys.row.markCancelled}.update (Jobs.finalizeCancelledRunning now jobId)

end System

def available (sys : System) (attempt : Attempt) : Source → Bool
  | .spool => true
  | .master => sys.objects.contains .sourceMaster
  | .cachedExport => Exports.exportCacheIsValid sys.row.exportReady sys.row.exportSizeBytes && sys.objects.contains .exportMp4
  | .materialized => attempt.isReprocess

def segmentUploadFailureMessage (expected uploaded failed : Nat) : String :=
  if expected = 0 then "no HLS segments were produced"
  else "uploaded " ++ toString uploaded ++ " of " ++ toString expected ++ " video segments (" ++ toString failed ++
    " failed); object storage may be unavailable — try re-uploading"

def validateSegmentUploadOutcome (expected uploaded failed : Nat) : Result :=
  if uploaded = expected ∧ failed = 0 ∧ 0 < expected then .ok () else .error (segmentUploadFailureMessage expected uploaded failed)

def verifyHlsSegmentsInStorage (objects : Objects) (expected uploaded failed : Nat) (reply : Reply) : Result :=
  match validateSegmentUploadOutcome expected uploaded failed,reply with
  | .error message,_ => .error message
  | .ok _,.lost error => .error ("verify HLS segments in storage: " ++ error)
  | .ok _,_ =>
    let stored := countStoredHlsSegments objects
    if stored = expected then .ok () else .error (segmentUploadFailureMessage expected stored (expected - stored))

def Attempt.pending (attempt : Attempt) (output : Output) (skipped failed : List Nat) (index : Nat) : Bool :=
  decide (index < output.produced ∧ .segment index ∉ attempt.written ∧ index ∉ skipped ∧ index ∉ failed)

def stale (attempt : Attempt) (output : Output) (name : ObjectName) : Bool :=
  match attempt.prior,name with
  | some old,.segment index => decide (output.produced ≤ index ∧ (index : Int) < old)
  | some old,.ts index => decide (output.produced ≤ index ∧ (index : Int) < old)
  | _,_ => false

def System.fails (sys : System) (key : Nat) (attempt : Attempt) (message : String) : System :=
  sys.hold key {attempt with stage := .failing message false (.error message)}

def readArtifacts (sys : System) (key : Nat) (attempt : Attempt) (source : Source) (output : Output) : Reply → Option System
  | .done => some (sys.hold key {attempt with written := [],alone := true,stage := .packaging source output .manifests})
  | .lost error => some (sys.fails key attempt ("read HLS manifest artifacts: " ++ error))
  | _ => none

def manifested (written : List ObjectName) : Phase :=
  if .playlist ∈ written ∧ .init ∈ written then .uploading [] [] else .manifests

-- The two PUTs of the manifests are joined, and the first that fails ends the attempt.
def uploadManifests (sys : System) (key : Nat) (attempt : Attempt) (source : Source) (output : Output) : Reply → Option System
  | .put name outcome =>
    if (name = .playlist ∨ name = .init) ∧ name ∉ attempt.written then
      match outcome with
      | .stored => some ((sys.put key name (output.object key name)).hold key {attempt with
          written := attempt.written ++ [name],stage := .packaging source output (manifested (attempt.written ++ [name]))})
      | .unanswered => some (sys.put key name (output.object key name))
      | .refused error => some (sys.fails key attempt ("upload HLS manifest artifacts: " ++ error))
    else none
  | _ => none

def joinSegments (sys : System) (key : Nat) (attempt : Attempt) (source : Source) (output : Output) (skipped failed : List Nat)
    (reply : Reply) : Option System :=
  if (List.range output.produced).any (attempt.pending output skipped failed) && !sys.row.isEncodeCancelled then none
  else match verifyHlsSegmentsInStorage sys.objects output.produced (attempt.uploaded output.produced) failed.length reply with
    | .ok _ => some (sys.hold key {attempt with stage := .packaging source output .verified})
    | .error message =>
      if attempt.isReprocess then
        some (sys.hold key {attempt with stage := .failing ("Stream rebuild partially overwrote the package and was stopped — " ++
          "re-upload the original or rebuild again from a retained source. (" ++ message ++ ")") false (.error message)})
      else some (sys.hold key {attempt with stage := .failing message true (.error message)})

def uploadHlsSegments (sys : System) (key : Nat) (attempt : Attempt) (source : Source) (output : Output) (skipped failed : List Nat) :
    Reply → Option System
  | .put (.segment index) outcome =>
    if attempt.pending output skipped failed index then
      match outcome with
      | .stored => some ((sys.put key (.segment index) (output.object key (.segment index))).hold key {attempt with
          written := attempt.written ++ [.segment index],stage := .packaging source output (.uploading skipped failed)})
      | .unanswered => some (sys.put key (.segment index) (output.object key (.segment index)))
      | .refused _ => some (sys.hold key {attempt with stage := .packaging source output (.uploading skipped (failed ++ [index]))})
    else none
  | .skip index =>
    if attempt.pending output skipped failed index && sys.row.isEncodeCancelled then
      some (sys.hold key {attempt with stage := .packaging source output (.uploading (skipped ++ [index]) failed)})
    else none
  | .done => joinSegments sys key attempt source output skipped failed .done
  | .lost error => joinSegments sys key attempt source output skipped failed (.lost error)
  | _ => none

def askCancelled (sys : System) (key : Nat) (attempt : Attempt) (source : Source) (output : Output) (reply : Reply) : System :=
  match reply,sys.row.isEncodeCancelled with
  | .done,true =>
    if attempt.isReprocess then
      sys.hold key {attempt with stage := .failing ("Stream rebuild cancelled after partial upload — " ++
        "re-upload the original or rebuild again from a retained source.") false (.ok ())}
    else sys.hold key {attempt with stage := .purging (.ok ())}
  | _,_ => sys.hold key {attempt with stage := .packaging source output .purgingStale}

def purgeStaleHlsSegments (sys : System) (key : Nat) (attempt : Attempt) (source : Source) (output : Output) : Reply → Option System
  | .erase name => if stale attempt output name then some (sys.erase (some key) name) else none
  | .done => some (sys.hold key {attempt with stage := .packaging source output .invalidating})
  | _ => none

def persistSourceMaster (sys : System) (key : Nat) (attempt : Attempt) (source : Source) (output : Output) : Reply → Option System
  | .put .sourceMaster .stored =>
    if source = .spool then some ((sys.put key .sourceMaster (output.object key .sourceMaster)).hold key
      {attempt with stage := .packaging source output (.publishing true)})
    else none
  | .put .sourceMaster .unanswered =>
    if source = .spool then some (sys.put key .sourceMaster (output.object key .sourceMaster)) else none
  | .put .sourceMaster (.refused _) =>
    if source = .spool then some (sys.hold key {attempt with stage := .packaging source output (.publishing sys.row.sourceMaster)}) else none
  | .done =>
    if source = .spool then none
    else some (sys.hold key {attempt with stage := .packaging source output (.publishing sys.row.sourceMaster)})
  | .lost _ => some (sys.hold key {attempt with stage := .packaging source output (.publishing false)})
  | _ => none

def publish (sys : System) (key : Nat) (attempt : Attempt) (output : Output) (master : Bool) : Reply → Option System
  | .done =>
    some ({sys with row := sys.row.publish output.produced master,touched := false}.hold key {attempt with stage := .leaving (.ok ())})
  | .lost error => some (sys.fails key attempt ("update hls status: " ++ error))
  | _ => none

def package (sys : System) (key : Nat) (attempt : Attempt) (source : Source) (output : Output) (reply : Reply) : Phase → Option System
  | .reading => readArtifacts sys key attempt source output reply
  | .manifests => uploadManifests sys key attempt source output reply
  | .uploading skipped failed => uploadHlsSegments sys key attempt source output skipped failed reply
  | .verified => some (askCancelled sys key attempt source output reply)
  | .purgingStale => purgeStaleHlsSegments sys key attempt source output reply
  | .invalidating =>
    some ((sys.write reply FileRow.invalidateDownloadExport).hold key {attempt with stage := .packaging source output .persisting})
  | .persisting => persistSourceMaster sys key attempt source output reply
  | .publishing master => publish sys key attempt output master reply

def askJob (sys : System) (key : Nat) (now : Int) (attempt : Attempt) (goesOn : Stage) : Reply → Option System
  | .done =>
    if sys.isJobCancelled attempt.jobId then some ((sys.finalize now attempt.jobId).ends key)
    else some (sys.hold key {attempt with stage := goesOn})
  | .lost error => some (sys.hold key {attempt with stage := .erring error})
  | _ => none

def resolveEncodeVideoSource (sys : System) (key : Nat) (attempt : Attempt) : Reply → Option System
  | .found source => if available sys attempt source then some (sys.hold key {attempt with stage := .starting source}) else none
  | .lost error =>
    if attempt.isReprocess then
      let message := "could not rebuild from stored stream package: " ++ error
      let detail := "Stream rebuild failed — previous package restored. (" ++ message ++ ")"
      some (sys.hold key {attempt with stage := .restoring detail (.error message)})
    else some (sys.fails key attempt hlsSourceUnavailable)
  | _ => none

def start (sys : System) (key : Nat) (attempt : Attempt) (source : Source) (reply : Reply) : System :=
  match reply,sys.row.isEncodeCancelled with
  | .done,true =>
    if attempt.isReprocess then
      sys.hold key {attempt with stage := .restoring "Stream rebuild cancelled — previous package restored." (.ok ())}
    else sys.hold key {attempt with stage := .purging (.ok ())}
  | _,_ => sys.hold key {attempt with stage := .marking source}

def restore (sys : System) (key : Nat) (attempt : Attempt) (message : String) (result : Result) (reply : Reply) : System :=
  match reply,storageHasHlsMedia sys.objects with
  | .done,true => sys.hold key {attempt with stage := .reviving message result}
  | _,_ => sys.hold key {attempt with stage := .failing "Stream package is missing from storage — re-upload the video." false result}

def failWith (permanent : Bool) (now : Int) (jobId message : String) : Jobs.Update :=
  if permanent then Jobs.failJobPermanent now jobId message else Jobs.failJob now jobId message

def Result.closing (now : Int) (jobId : String) : Result → Jobs.Update
  | .ok _ => Jobs.completeJob now jobId
  | .error message => failWith (isPermanentEncodeFailure message) now jobId message

def work (sys : System) (key : Nat) (now : Int) (attempt : Attempt) (reply : Reply) : Stage → Option System
  | .asking => askJob sys key now attempt .loading reply
  | .loading =>
    some (sys.hold key {attempt with prior := if reply.answered then sys.row.loadPriorSegmentCount else none,stage := .resolving})
  | .resolving => resolveEncodeVideoSource sys key attempt reply
  | .starting source => some (start sys key attempt source reply)
  | .marking source =>
    let rebuilt := reply.answered && decide (0 < sys.row.segments)
    some (sys.hold key {attempt with stage := .marked source (if rebuilt then .reprocessing else .processing)})
  | .marked source status =>
    some ((sys.write reply (fun row => {row with status := some status,error := none})).hold key {attempt with stage := .keying source})
  | .keying source =>
    match reply with
    | .done => some (sys.hold key {attempt with stage := .transcoding source})
    | .lost error => some (sys.fails key attempt ("create encryption key: " ++ error))
    | _ => none
  | .transcoding source =>
    match reply with
    | .encoded output => some (sys.hold key {attempt with stage := .packaging source output .reading})
    | .lost error => some (sys.fails key attempt ("ffmpeg transcode: " ++ error))
    | _ => none
  | .packaging source output phase => package sys key attempt source output reply phase
  | .failing message purge result =>
    some ((sys.write reply (FileRow.markFailed message)).hold key {attempt with stage := if purge then .purging result else .leaving result})
  | .purging result =>
    match reply with
    | .erase name => some (sys.erase (some key) name)
    | _ => some (sys.hold key {attempt with stage := .leaving result})
  | .restoring message result => some (restore sys key attempt message result reply)
  | .reviving message result =>
    some ((sys.write reply (FileRow.restorePackage message)).hold key {attempt with stage := .leaving result})
  | .leaving result => some (sys.hold key {attempt with stage := .settling result})
  | .settling result => askJob sys key now attempt (.closing result) reply
  | .closing result =>
    match reply with
    | .lost error => some (sys.hold key {attempt with stage := .erring error})
    | _ => some ((sys.update (Result.closing now attempt.jobId result)).ends key)
  | .erring message =>
    match reply with
    | .lost _ => some (sys.ends key)
    | _ => some ((sys.update (failWith (Exports.isPermanentJobFailure message) now attempt.jobId message)).ends key)

def System.respond (sys : System) (key : Nat) : System := {sys with requests := sys.requests.remove key}

def System.go (sys : System) (key : Nat) (request : Request) (phase : RequestPhase) : System :=
  {sys with requests := sys.requests.set key {request with phase := phase}}

def rebuildRequest (sys : System) (userId : String) : Jobs.EnqueueRequest :=
  {userId := userId,kind := .hlsEncode,label := "Rebuild stream — " ++ sys.row.name,resourceType := some "file",
   resourceId := some sys.fileId,payload := ""}

-- A request whose statement fails is dropped.
def serve (sys : System) (key : Nat) (now : Int) (request : Request) : RequestKind → RequestPhase → Reply → Option System
  | .cancelIngest,.loading,.done => if sys.row.hlsReady then some (sys.respond key) else some (sys.go key request .cancelling)
  | .cancelIngest,.cancelling,.done =>
    some ((sys.update (Jobs.cancelJobByResource now request.userId .hlsEncode "file" sys.fileId)).go key request .marking)
  | .cancelIngest,.marking,.done =>
    if sys.row.userId = request.userId ∧ sys.row.hlsReady = false then
      some ({sys with row := sys.row.markCancelled}.go key request .purging)
    else some (sys.respond key)
  | .cancelIngest,.purging,.erase name => some (sys.erase none name)
  | .cancelIngest,.purging,.done => some (sys.respond key)
  | .cancelReprocess,.loading,.done =>
    if sys.row.status = some .reprocessing then some (sys.go key request .cancelling) else some (sys.respond key)
  | .cancelReprocess,.cancelling,.done =>
    some ((sys.update (Jobs.cancelJobByResource now request.userId .hlsEncode "file" sys.fileId)).go key request .restoring)
  | .cancelReprocess,.restoring,.done =>
    if sys.row.userId = request.userId ∧ sys.row.rebuilding then
      some ({sys with row := sys.row.restoreRebuilding}.respond key)
    else some (sys.go key request .marking)
  | .cancelReprocess,.marking,.done =>
    if sys.row.userId = request.userId ∧ sys.row.status = some .reprocessing then
      some ({sys with row := sys.row.markCancelled}.respond key)
    else some (sys.respond key)
  | .reprocess,.loading,.done =>
    if !sys.row.hlsReady ∧ sys.row.segments ≤ 0 then some (sys.respond key) else some (sys.go key request .looking)
  | .reprocess,.looking,.done =>
    if (Jobs.findActiveJob sys.queue.jobs .hlsEncode "file" sys.fileId).isSome then some (sys.respond key)
    else some (sys.go key request .hiding)
  | .reprocess,.hiding,.done =>
    some ({sys with
      row := sys.row.hide
      queue := {sys.queue with enqueues := sys.queue.enqueues ++ [Jobs.EnqueuePhase.counting (rebuildRequest sys request.userId)]}}.respond key)
  | _,_,_ => none

def queueStep (queue : Jobs.System) : Jobs.Event → Option Jobs.System
  | .claim _ _ _ => none
  | event => Jobs.step queue event

-- An attempt goes by the number of claims before it, so that no two share one.
def step (sys : System) : Event → Option System
  | .queue event => (queueStep sys.queue event).map (fun queue => {sys with queue := queue})
  | .claim now workerId skipped =>
    match Jobs.claimNextJob now workerId skipped sys.queue.jobs with
    | (_,none) => some sys
    | (jobs,some (jobId,job)) =>
      let after := {sys with queue := {sys.queue with jobs := jobs,claims := sys.queue.claims ++ [(jobId,workerId)]}}
      if job.kind = .hlsEncode ∧ job.resourceId = some sys.fileId ∧ !sys.attempts.contains sys.queue.claims.length then
        some (after.hold sys.queue.claims.length ⟨jobId,none,[],false,.asking⟩)
      else some after
  | .work key now reply => (sys.attempts.get key).bind (fun attempt => work sys key now attempt reply attempt.stage)
  | .lose key => (sys.attempts.get key).map (fun _ => sys.ends key)
  | .request key kind userId =>
    if sys.requests.contains key then none else some {sys with requests := sys.requests.set key ⟨kind,userId,.loading⟩}
  | .serve key now reply => (sys.requests.get key).bind (fun request => serve sys key now request request.kind request.phase reply)
  | .drop key => (sys.requests.get key).map (fun _ => sys.respond key)
  | .withdraw message => some {sys with row := sys.row.withdraw message}
  | .recoverOrphan spoolOk => some {sys with row := sys.row.recoverOrphan spoolOk}

-- The row as an upload inserts it, before anything is stored.
def inserted (fileId userId name : String) : System :=
  ⟨fileId,⟨userId,name,false,none,some .queued,none,false,false,none⟩,KeyMap.empty,Jobs.empty,KeyMap.empty,KeyMap.empty,true⟩

def OnePackage (objects : Objects) (count : Option Int) : Prop :=
  ∃ key names,objects.get .playlist = some ⟨key,names⟩ ∧ (objects.get .init).map Object.attempt = some key ∧
    (∀ name ∈ names,(objects.get name).map Object.attempt = some key) ∧ count = some (names.length : Int)

def Coherent (sys : System) : Prop :=
  sys.row.hlsReady = true → sys.working = false → OnePackage sys.objects sys.row.segmentCount

def System.spared (sys : System) (key : Nat) : Bool := !sys.touched || (sys.ends key).working

def Attempt.cares (sys : System) (key : Nat) (attempt : Attempt) (reply : Reply) : Bool :=
  match attempt.stage,reply with
  | .packaging _ output (.publishing _),.done => attempt.alone && decide (output.named = output.produced)
  | .leaving _,_ => !sys.row.hlsReady || sys.spared key
  | _,_ => true

def Request.cares (sys : System) (request : Request) (reply : Reply) : Bool :=
  match request.kind,request.phase,reply with
  | .cancelReprocess,.restoring,_ => !sys.row.rebuilding || !sys.touched || sys.working
  | .cancelIngest,.purging,.erase _ => !sys.row.hlsReady || sys.working
  | _,_,_ => true

def cares (sys : System) : Event → Bool
  | .work key _ reply => (sys.attempts.get key).all (fun attempt => attempt.cares sys key reply)
  | .lose key => (sys.attempts.get key).all (fun attempt => !attempt.running || !sys.row.hlsReady || sys.spared key)
  | .serve key _ reply => (sys.requests.get key).all (fun request => request.cares sys reply)
  | _ => true

def Cared (sys : System) (event : Event) : Prop := cares sys event = true

instance (sys : System) (event : Event) : Decidable (Cared sys event) := inferInstanceAs (Decidable (_ = _))

end Ownly.Hls.Encodes
