import Ownly.AppError
import Ownly.Lib.KeyMap
import Mathlib.Algebra.Group.Int.Defs
import Mathlib.Algebra.Group.Nat.Defs
import Mathlib.Tactic.Common

-- backend/src/jobs/store.rs: the rows of the job queue and the statements on them.
namespace Ownly.Jobs

inductive JobKind where
  | hlsEncode
  | hlsExport
  | audioWaveform
  | videoThumbnail
  | imageThumbnail
  | documentThumbnail
  | zipBulk
  | zipFolder
  deriving DecidableEq, Repr

inductive JobStatus where
  | queued
  | running
  | complete
  | failed
  | cancelled
  deriving DecidableEq, Repr

-- The payload is JSON that no statement looks into. Times are seconds.
structure BackgroundJob where
  userId : String
  kind : JobKind
  status : JobStatus
  progress : Int
  error : Option String
  payload : String
  resourceType : Option String
  resourceId : Option String
  label : String
  lockedBy : Option String
  lockedAt : Option Int
  attempts : Nat
  maxAttempts : Nat
  createdAt : Int
  updatedAt : Int
  completedAt : Option Int
  deriving DecidableEq, Repr

-- `background_jobs` by its primary key.
abbrev Table := KeyMap String BackgroundJob

namespace BackgroundJob

-- `status IN ('queued', 'running')`
def Live (job : BackgroundJob) : Prop := job.status = .queued ∨ job.status = .running

instance (job : BackgroundJob) : Decidable job.Live := inferInstanceAs (Decidable (_ ∨ _))

-- `attempts < max_attempts` on a queued row.
def Claimable (job : BackgroundJob) : Prop := job.status = .queued ∧ job.attempts < job.maxAttempts

instance (job : BackgroundJob) : Decidable job.Claimable := inferInstanceAs (Decidable (_ ∧ _))

-- What the unique index on live rows compares; null columns never collide.
def resource (job : BackgroundJob) : Option (JobKind × String × String) :=
  match job.resourceType,job.resourceId with
  | some rt,some rid => some (job.kind,rt,rid)
  | _,_ => none

-- `CASE WHEN attempts >= max_attempts THEN 'failed' ELSE 'queued' END`
def retryStatus (job : BackgroundJob) : JobStatus := if job.maxAttempts ≤ job.attempts then .failed else .queued

def released (now : Int) (status : JobStatus) (error : Option String) (job : BackgroundJob) : BackgroundJob :=
  {job with status := status,error := error,lockedBy := none,lockedAt := none,updatedAt := now}

-- `COALESCE(error, message)` once the attempts are used up.
def lastError (message : String) (job : BackgroundJob) : Option String :=
  if job.maxAttempts ≤ job.attempts then job.error <|> some message else job.error

end BackgroundJob

-- `UPDATE background_jobs SET .. WHERE ..`: which rows, and what becomes of each.
structure Update where
  guard : String → BackgroundJob → Bool
  set : BackgroundJob → BackgroundJob

def Update.run (update : Update) (jobs : Table) : Table × Nat :=
  (jobs.mapEntries (fun id job => if update.guard id job then update.set job else job),
   (jobs.entries.filter (fun entry => update.guard entry.1 entry.2)).length)

def running (jobId id : String) (job : BackgroundJob) : Bool := decide (id = jobId ∧ job.status = .running)

def setJobProgress (now : Int) (jobId : String) (progress : Int) : Update :=
  ⟨running jobId,fun job => {job with progress := progress,updatedAt := now}⟩

def touchJobHeartbeat (now : Int) (jobId workerId : String) : Update :=
  ⟨fun id job => running jobId id job && decide (job.lockedBy = some workerId),
   fun job => {job with lockedAt := some now,updatedAt := now}⟩

def completeJob (now : Int) (jobId : String) : Update :=
  ⟨running jobId,fun job => {job.released now .complete none with progress := 100,completedAt := some now}⟩

def failJobPermanent (now : Int) (jobId message : String) : Update :=
  ⟨running jobId,BackgroundJob.released now .failed (some message)⟩

def failJob (now : Int) (jobId message : String) : Update :=
  ⟨running jobId,fun job => job.released now job.retryStatus (some message)⟩

def finalizeCancelledRunning (now : Int) (jobId : String) : Update :=
  ⟨running jobId,fun job => job.released now .cancelled job.error⟩

def cancelJob (now : Int) (userId jobId : String) : Update :=
  ⟨fun id job => decide (id = jobId ∧ job.userId = userId ∧ job.Live),
   fun job => job.released now .cancelled job.error⟩

def cancelJobByResource (now : Int) (userId : String) (kind : JobKind) (resourceType resourceId : String) : Update :=
  ⟨fun _ job => decide (job.userId = userId ∧ job.kind = kind ∧ job.resourceType = some resourceType ∧
     job.resourceId = some resourceId ∧ job.Live),
   fun job => job.released now .cancelled job.error⟩

def ensureWorkerReleasedJob (now : Int) (jobId workerId : String) : Update :=
  ⟨fun id job => running jobId id job && decide (job.lockedBy = some workerId),
   fun job => job.released now job.retryStatus (job.error <|> some "worker exited before job finished")⟩

def clampMinutes (staleMinutes : Int) : Int := max 1 (min staleMinutes (2^31 - 1))

def recoverStaleJobs (now staleMinutes : Int) : Update :=
  ⟨fun _ job => decide (job.status = .running ∧ job.updatedAt < now - clampMinutes staleMinutes * 60),
   fun job => job.released now job.retryStatus (job.lastError "job timed out waiting for worker")⟩

def recoverRunningJobsOnStartup (now : Int) : Update :=
  ⟨fun _ job => decide (job.status = .running),
   fun job => job.released now job.retryStatus (job.lastError "worker lost on restart")⟩

def failExhaustedQueuedJobs (now : Int) : Update :=
  ⟨fun _ job => decide (job.status = .queued ∧ job.maxAttempts ≤ job.attempts),
   fun job => job.released now .failed (job.error <|> some "exceeded max attempts")⟩

def first (before : BackgroundJob → BackgroundJob → Bool) : List (String × BackgroundJob) → Option (String × BackgroundJob)
  | [] => none
  | entry :: rest => match first before rest with
    | none => some entry
    | some other => if before other.2 entry.2 then some other else some entry

def rows (jobs : Table) (keep : String → BackgroundJob → Bool) : List (String × BackgroundJob) :=
  (jobs.entries.filter (fun entry => keep entry.1 entry.2)).map (fun entry => (entry.1,entry.2))

-- `ORDER BY created_at DESC LIMIT 1`
def findActiveJob (jobs : Table) (kind : JobKind) (resourceType resourceId : String) : Option (String × BackgroundJob) :=
  first (fun other job => decide (job.createdAt < other.createdAt)) (rows jobs (fun _ job => decide (job.kind = kind ∧
    job.resourceType = some resourceType ∧ job.resourceId = some resourceId ∧ job.Live)))

-- The oldest claimable row that no other statement has locked; `skipped` are those,
-- and, between rows of one age, the ones the planner does not come upon first.
def nextClaim (jobs : Table) (skipped : List String) : Option (String × BackgroundJob) :=
  first (fun other job => decide (other.createdAt < job.createdAt))
    (rows jobs (fun id job => decide (job.Claimable ∧ id ∉ skipped)))

def claimed (now : Int) (workerId : String) (job : BackgroundJob) : BackgroundJob :=
  {job with
    status := .running
    lockedBy := some workerId
    lockedAt := some now
    updatedAt := now
    attempts := job.attempts + 1}

def claimNextJob (now : Int) (workerId : String) (skipped : List String) (jobs : Table) :
    Table × Option (String × BackgroundJob) :=
  match nextClaim jobs skipped with
  | none => (jobs,none)
  | some (id,job) => (jobs.set id (claimed now workerId job),some (id,claimed now workerId job))

structure EnqueueRequest where
  userId : String
  kind : JobKind
  label : String
  resourceType : Option String
  resourceId : Option String
  payload : String

def maxQueuedJobsPerUser : Nat := 64

def queuedCount (jobs : Table) (userId : String) : Nat :=
  (rows jobs (fun _ job => decide (job.userId = userId ∧ job.Live))).length

def queuedJob (now : Int) (request : EnqueueRequest) : BackgroundJob :=
  {userId := request.userId,kind := request.kind,status := .queued,progress := 0,error := none,payload := request.payload,
   resourceType := request.resourceType,resourceId := request.resourceId,label := request.label,lockedBy := none,
   lockedAt := none,attempts := 0,maxAttempts := 3,createdAt := now,updatedAt := now,completedAt := none}

-- The INSERT meets the primary key and the unique index on live resources.
def insertJob (now : Int) (id : String) (request : EnqueueRequest) (jobs : Table) : Except AppError Table :=
  let job := queuedJob now request
  if jobs.contains id then .error (.database "background_jobs_pkey")
  else if jobs.any (fun _ other => decide (other.Live ∧ job.resource.isSome ∧ other.resource = job.resource)) then
    .error (.database "idx_background_jobs_active_resource")
  else .ok (jobs.set id job)

end Ownly.Jobs
