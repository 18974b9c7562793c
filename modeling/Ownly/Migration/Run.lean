import Ownly.Migration.Batch

-- backend/src/admin/storage_migration_run.rs: the row of a run, and what its worker makes of it.
namespace Ownly.Migration

inductive RunKind where
  | preview
  | migrate
  deriving DecidableEq, Repr

inductive RunStatus where
  | running
  | complete
  | error
  | cancelled
  deriving DecidableEq, Repr

def RunStatus.terminal (status : RunStatus) : Bool := decide (status ≠ .running)

structure RunProgress where
  nodeIds : List String
  currentNodeIndex : Nat
  cursors : KeyMap String String

structure Run where
  kind : RunKind
  status : RunStatus
  nodeId : Option String
  keyPrefix : String
  totalTarget : Nat
  migrated : Nat
  skipped : Nat
  failed : Nat
  scanned : Nat
  currentNodeId : Option String
  batchNumber : Nat
  progress : RunProgress
  errorMessage : Option String

def batchLimit : Nat := 25

-- `error.to_string()`
def describe : AppError → String
  | .database message => "database error: " ++ message
  | .notFound => "not found"
  | .forbidden message => "forbidden: " ++ message
  | .badRequest message => "bad request: " ++ message
  | .rateLimited _ => "rate limit exceeded"
  | .conflict message => "conflict: " ++ message
  | .payloadTooLarge message => "payload too large: " ++ message
  | .internal message => "internal error: " ++ message
  | .storage message => "storage error: " ++ message

def Run.dryRun (run : Run) : Bool := decide (run.kind = .preview)

def scopedIds (nodeId : Option String) (nodes : List Node) : List String :=
  match nodeId with
  | some id => [id]
  | none => nodes.map Node.id

-- The row that spawn_run inserts behind ensure_no_running_run.
def spawnRun (registry : Registry) (kind : RunKind) (nodeId : Option String) (keyPrefix : String) (totalTarget : Nat) : Except AppError Run :=
  match loadMigrationNodeRows registry nodeId with
  | .error e => .error e
  | .ok [] => .error (.badRequest "No enabled storage nodes match the request.")
  | .ok nodes =>
    .ok {kind := kind,status := .running,nodeId := nodeId,keyPrefix := keyPrefix,totalTarget := totalTarget,migrated := 0,skipped := 0,
         failed := 0,scanned := 0,currentNodeId := none,batchNumber := 0,
         progress := {nodeIds := scopedIds nodeId nodes,currentNodeIndex := 0,cursors := KeyMap.empty},errorMessage := none}

def finishRun (status : RunStatus) (totalTarget : Option Nat) (errorMessage : Option String) (run : Run) : Run :=
  {run with
    status := status
    totalTarget := totalTarget.getD run.totalTarget
    errorMessage := errorMessage
    currentNodeId := none}

def stalledMessage : String :=
  "Run stalled (no progress for 30 minutes). Check object-storage disk space and logs, cancel if needed, then start a new migration."

def stall (run : Run) : Run := {run with status := .error,errorMessage := some stalledMessage}

-- The UPDATE of the counts by what the worker holds.
def updateRunCounts (held run : Run) : Run :=
  {run with
    migrated := held.migrated
    skipped := held.skipped
    failed := held.failed
    scanned := held.scanned
    batchNumber := held.batchNumber
    currentNodeId := held.currentNodeId
    progress := held.progress}

def RunProgress.leave (progress : RunProgress) (nodeId : String) : RunProgress :=
  {progress with currentNodeIndex := progress.currentNodeIndex + 1,cursors := progress.cursors.remove nodeId}

def RunProgress.advance (progress : RunProgress) (nodeId : String) (report : Report) : RunProgress :=
  if report.isTruncated then
    match report.nextStartAfter with
    | some next => {progress with cursors := progress.cursors.set nodeId next}
    | none => progress.leave nodeId
  else progress.leave nodeId

def Run.add (run : Run) (nodeId : String) (report : Report) : Run :=
  {run with
    migrated := run.migrated + report.migrated
    skipped := run.skipped + report.skipped
    failed := run.failed + report.failed
    scanned := run.scanned + report.scanned
    currentNodeId := some nodeId
    batchNumber := run.batchNumber + 1
    progress := run.progress.advance nodeId report}

def failedMessage : String := "One or more objects failed to migrate. See the run log for details."

-- The UPDATE that ends a run.
structure Ending where
  status : RunStatus
  totalTarget : Option Nat
  errorMessage : Option String
  deriving DecidableEq, Repr

def Ending.write (ending : Ending) : Run → Run := finishRun ending.status ending.totalTarget ending.errorMessage

def Run.conclusion (held : Run) : Ending :=
  if held.dryRun then ⟨.complete,some held.migrated,none⟩
  else if 0 < held.failed then ⟨.error,some held.totalTarget,some failedMessage⟩
  else ⟨.complete,some held.totalTarget,none⟩

def Run.conclude (held : Run) : Run → Run := held.conclusion.write

def Run.current (run : Run) : Option String := run.progress.nodeIds[run.progress.currentNodeIndex]?

def Run.request (run : Run) (nodeId : String) : NodeMigrationBatchRequest :=
  {keyPrefix := run.keyPrefix,limit := batchLimit,startAfter := run.progress.cursors.get nodeId,dryRun := run.dryRun,preferServer := true}

end Ownly.Migration
