import Ownly.Lib.KeyTotal
import Ownly.Lib.Schedule
import Ownly.Uploads.Store

-- backend/src/quota.rs under the calls that charge a user: create_session reserves
-- bytes, complete_session turns a reservation into a file. Each SQL statement is one
-- step.
namespace Ownly.Uploads.Quota

def gib : Int := 1024 * 1024 * 1024
def i64Max : Int := 2^63 - 1

def saturating (x : Int) : Int := max (-2^63) (min i64Max x)

structure FileRow where
  userId : String
  sizeBytes : Int
  deriving DecidableEq, Repr

-- `users` has `storage_quota_gb` of each user, `setting` the parsed instance default.
structure Directory where
  users : KeyMap String (Option Int)
  setting : Option Int

def loadDefaultQuotaBytes (setting : Option Int) : Int := saturating (max (setting.getD 50) 1 * gib)

def resolveUserQuotaBytes (directory : Directory) (userId : String) : Except AppError Int :=
  match directory.users.get userId with
  | none => .error .notFound
  | some (some gb) => .ok (saturating (max gb 1 * gib))
  | some none => .ok (loadDefaultQuotaBytes directory.setting)

def fileShare (userId : String) (file : FileRow) : Int := if file.userId = userId then file.sizeBytes else 0

def reservedShare (userId : String) (session : SessionRow) : Int :=
  if session.quotaOwnerId = userId ∧ session.status.InFlight ∧ 0 < session.quotaReservedBytes then
    session.quotaReservedBytes
  else 0

def usedBytes (files : KeyMap String FileRow) (userId : String) : Int := files.total (fun _ file => fileShare userId file)

def reservedBytes (sessions : KeyMap String SessionRow) (userId : String) : Int :=
  sessions.total (fun _ session => reservedShare userId session)

-- `COALESCE(SUM(…), 0)::BIGINT`
def bigint (sum : Int) : Except AppError Int :=
  if -2^63 ≤ sum ∧ sum ≤ i64Max then .ok sum else .error (.database "bigint out of range")

def loadUserUsedBytes (files : KeyMap String FileRow) (userId : String) : Except AppError Int :=
  bigint (usedBytes files userId)

def loadUserReservedBytes (sessions : KeyMap String SessionRow) (userId : String) : Except AppError Int :=
  bigint (reservedBytes sessions userId)

def quotaExceeded : AppError := .payloadTooLarge "storage quota exceeded — delete files or contact an administrator"

-- The comparison of `ensure_within_quota`, on what its statements have read.
def ensureWithinQuota (quota used reserved incoming : Int) : Except AppError Unit :=
  if quota < saturating (saturating (used + reserved) + incoming) then .error quotaExceeded else .ok ()

inductive Call where
  | create (id userId fileOwnerId : String) (isVideo : Bool) (totalSize chunkSize : Int) (contentHash : Option String)
  | complete (sessionId userId fileId : String) (file : FileRow)
  deriving DecidableEq, Repr

def Call.owner : Call → String
  | .create _ _ fileOwnerId _ _ _ _ => fileOwnerId
  | .complete _ _ _ file => file.userId

def Call.incoming : Call → Int
  | .create _ _ _ _ totalSize _ _ => totalSize
  | .complete _ _ _ file => file.sizeBytes

-- The statement a call is about to run. `inserting` keeps the two sums of the check
-- that was passed, or none where nothing was to be checked.
inductive Phase where
  | marking
  | counting
  | summing (quota used : Int)
  | inserting (read : Option (Int × Int))
  | completing
  | reverting (error : AppError)
  | done (result : Except AppError Unit)
  | dropped
  deriving DecidableEq, Repr

-- `missed`: another call has inserted a row charged to the same user since this one
-- read the sum that the row counts in. The code has no such flag.
structure Task where
  call : Call
  phase : Phase
  missed : Bool

structure System where
  files : KeyMap String FileRow
  sessions : KeyMap String SessionRow
  tasks : List Task

inductive Event where
  | create (id userId fileOwnerId : String) (isVideo : Bool) (totalSize chunkSize : Int) (contentHash : Option String)
  | complete (now : Int) (sessionId userId fileId fileOwnerId : String) (spooled : Option Int) (refusal : Option AppError)
  | advance (task : Nat) (now : Int)
  | fail (task : Nat) (error : AppError)
  | drop (task : Nat)

-- A completion that fails after it was marked writes the status back.
def Call.failing : Call → AppError → Phase
  | .create _ _ _ _ _ _ _,error => .done (.error error)
  | .complete _ _ _ _,error => .reverting error

def Call.answer (call : Call) : Except AppError Phase → Phase
  | .ok phase => phase
  | .error error => call.failing error

def beginCreate (totalSize : Int) : Phase :=
  if totalSize ≤ 0 then .done (.error (.badRequest "total_size must be positive")) else .counting

-- What stands before `mark_completing`; `refusal` is the answer of the completeness test.
def beginComplete (now : Int) (userId : String) (refusal : Option AppError) : Option SessionRow → Phase
  | none => .done (.error .notFound)
  | some session =>
    if session.userId ≠ userId then .done (.error .notFound)
    else match ensureSessionActive now session,refusal with
      | .error e,_ => .done (.error e)
      | .ok (),some e => .done (.error e)
      | .ok (),none => .marking

-- Where the finalisers begin: `ensure_within_quota` reads nothing for a size that is not positive.
def finalize (incoming : Int) : Phase :=
  if incoming = 0 then .reverting (.badRequest "file is required")
  else if incoming < 0 then .inserting none
  else .counting

def countUsed (directory : Directory) (files : KeyMap String FileRow) (owner : String) : Except AppError Phase :=
  match resolveUserQuotaBytes directory owner,loadUserUsedBytes files owner with
  | .error e,_ => .error e
  | .ok _,.error e => .error e
  | .ok quota,.ok used => .ok (.summing quota used)

def sumReserved (sessions : KeyMap String SessionRow) (owner : String) (quota used incoming : Int) : Except AppError Phase :=
  match loadUserReservedBytes sessions owner with
  | .error e => .error e
  | .ok reserved =>
    match ensureWithinQuota quota used reserved incoming with
    | .error e => .error e
    | .ok () => .ok (.inserting (some (used,reserved)))

-- Since its first sum, or since its second, a call misses the rows others insert.
def Phase.hasCounted : Phase → Bool
  | .summing _ _ => true
  | .inserting _ => true
  | _ => false

def Phase.hasSummed : Phase → Bool
  | .inserting _ => true
  | _ => false

def overtake (owner : String) (reads : Phase → Bool) (tasks : List Task) : List Task :=
  tasks.map (fun task => if task.call.owner = owner ∧ reads task.phase = true then {task with missed := true} else task)

def duplicateKey : AppError := .database "duplicate key value violates unique constraint"

def advance (directory : Directory) (now : Int) (sys : System) (call : Call) : Phase → Option (Phase × System)
  | .marking =>
    match call with
    | .create _ _ _ _ _ _ _ => none
    | .complete sessionId userId _ file =>
      match (sys.sessions.get sessionId).bind (SessionRow.markCompleting now userId) with
      | none => some (.done (.error (.conflict "upload session is not active")),sys)
      | some session => some (finalize file.sizeBytes,{sys with sessions := sys.sessions.set sessionId session})
  | .counting => some (call.answer (countUsed directory sys.files call.owner),sys)
  | .summing quota used => some (call.answer (sumReserved sys.sessions call.owner quota used call.incoming),sys)
  | .inserting _ =>
    match call with
    | .create id userId fileOwnerId isVideo totalSize chunkSize contentHash =>
      match sys.sessions.get id with
      | some _ => some (.done (.error duplicateKey),sys)
      | none =>
        let session := insertSession now id userId fileOwnerId isVideo totalSize chunkSize contentHash
        some (.done (.ok ()),⟨sys.files,sys.sessions.set id session,overtake fileOwnerId Phase.hasSummed sys.tasks⟩)
    | .complete _ _ fileId file =>
      match sys.files.get fileId with
      | some _ => some (.reverting duplicateKey,sys)
      | none => some (.completing,⟨sys.files.set fileId file,sys.sessions,overtake file.userId Phase.hasCounted sys.tasks⟩)
  | .completing =>
    match call with
    | .create _ _ _ _ _ _ _ => none
    | .complete sessionId _ _ _ =>
      match sys.sessions.get sessionId with
      | none => some (.done (.ok ()),sys)
      | some session => some (.done (.ok ()),{sys with sessions := sys.sessions.set sessionId (session.markComplete now)})
  | .reverting e =>
    match call with
    | .create _ _ _ _ _ _ _ => none
    | .complete sessionId _ _ _ =>
      match sys.sessions.get sessionId with
      | none => some (.done (.error e),sys)
      | some session => some (.done (.error e),{sys with sessions := sys.sessions.set sessionId (session.reactivated now)})
  | .done _ => none
  | .dropped => none

-- An error of the database, of the storage or of a check outside these tables. After
-- the file row is there, a later statement of the finaliser may still fail.
def failed (call : Call) (error : AppError) : Phase → Option Phase
  | .marking => some (.done (.error error))
  | .counting => some (call.failing error)
  | .summing _ _ => some (call.failing error)
  | .inserting _ => some (call.failing error)
  | .completing => some (call.failing error)
  | .reverting first => some (.done (.error first))
  | .done _ => none
  | .dropped => none

def step (directory : Directory) (sys : System) : Event → Option System
  | .create id userId fileOwnerId isVideo totalSize chunkSize contentHash =>
    some {sys with tasks := sys.tasks ++
      [⟨.create id userId fileOwnerId isVideo totalSize chunkSize contentHash,beginCreate totalSize,false⟩]}
  | .complete now sessionId userId fileId fileOwnerId spooled refusal =>
    let session := sys.sessions.get sessionId
    let size := spooled.getD ((session.map SessionRow.totalSize).getD 0)
    some {sys with tasks := sys.tasks ++
      [⟨.complete sessionId userId fileId ⟨fileOwnerId,size⟩,beginComplete now userId refusal session,false⟩]}
  | .advance i now =>
    match sys.tasks[i]? with
    | none => none
    | some task =>
      match advance directory now sys task.call task.phase with
      | none => none
      | some (phase,next) => some {next with tasks := next.tasks.set i {task with phase := phase}}
  | .fail i error =>
    match sys.tasks[i]? with
    | none => none
    | some task =>
      match failed task.call error task.phase with
      | none => none
      | some phase => some {sys with tasks := sys.tasks.set i {task with phase := phase}}
  | .drop i =>
    match sys.tasks[i]? with
    | none => none
    | some task =>
      match failed task.call .notFound task.phase with
      | none => none
      | some _ => some {sys with tasks := sys.tasks.set i {task with phase := .dropped}}

theorem step_advance (fired : step directory sys (.advance i now) = some next) :
    ∃ task phase after, sys.tasks[i]? = some task ∧ advance directory now sys task.call task.phase = some (phase,after) ∧
      next = {after with tasks := after.tasks.set i {task with phase := phase}} := by
  dsimp only [step] at fired
  split at fired
  · cases fired
  · split at fired
    · cases fired
    · cases fired
      exact ⟨_,_,_,‹_›,‹_›,rfl⟩

theorem step_fail (fired : step directory sys (.fail i error) = some next) : ∃ task phase, sys.tasks[i]? = some task ∧
    failed task.call error task.phase = some phase ∧ next = {sys with tasks := sys.tasks.set i {task with phase := phase}} := by
  dsimp only [step] at fired
  split at fired
  · cases fired
  · split at fired
    · cases fired
    · cases fired
      exact ⟨_,_,‹_›,‹_›,rfl⟩

theorem step_drop (fired : step directory sys (.drop i) = some next) : ∃ task, sys.tasks[i]? = some task ∧
    next = {sys with tasks := sys.tasks.set i {task with phase := .dropped}} := by
  dsimp only [step] at fired
  split at fired
  · cases fired
  · split at fired
    · cases fired
    · cases fired
      exact ⟨_,‹_›,rfl⟩

end Ownly.Uploads.Quota
