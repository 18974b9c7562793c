import Mathlib.Data.List.Dedup
import Ownly.Files.Finalize
import Ownly.Lib.Schedule
import Ownly.Lib.Slots

-- Calls that share and purge storage keys side by side: uploads that found a duplicate,
-- permanent deletes, and cancel_video_ingest. Each SQL statement is one step, and so is
-- the purge of one key.
namespace Ownly.Files.Purge
open Storage (Key)

-- `inserted` has the rows that were inserted on the key since its references were
-- counted. The code keeps no such list.
structure Pending where
  key : Key
  inserted : List String
  deriving DecidableEq, Repr

-- A delete of one file is a batch of one: both read the rows, delete them, ask for
-- remaining references and purge.
inductive Call where
  | upload (upload : Upload) (contentHash : String)
  | delete (fileIds : List String)
  | cancel (fileId userId : String)
  deriving DecidableEq, Repr

inductive Phase where
  | finding
  | sharing (source : DedupSource)
  | selecting
  | deleting (keys : List Key)
  | checking (keys : List Key)
  | purging (pending : List Pending)
  | loading
  | cancelling (key : Key)
  | dropping (key : Key)
  | done
  deriving DecidableEq, Repr

structure Task where
  call : Call
  phase : Phase
  deriving DecidableEq, Repr

-- `objects` says of each key whose blob was ever stored whether it is still there;
-- `minted` has the file ids whose keys are in use.
structure System where
  files : KeyMap String FileRow
  objects : KeyMap Key Bool
  minted : List String
  tasks : List Task

inductive Event where
  -- an upload of new bytes; its key is unknown to everyone before its row is there
  | store (upload : Upload) (contentHash : String)
  | begin (call : Call)
  | advance (task pick : Nat)
  | fail (task : Nat)
  | reprocess (fileId : String) (packaged : Bool)
  | encoded (fileId : String)
  | trash (fileId : String) (now : Int)
  | restore (fileId : String)
  deriving DecidableEq, Repr

def Call.start : Call → Phase
  | .upload _ _ => .finding
  | .delete _ => .selecting
  | .cancel _ _ => .loading

def purgeObject (key : Key) (objects : KeyMap Key Bool) : KeyMap Key Bool :=
  if objects.get key = some true then objects.set key false else objects

def unreferenced (files : KeyMap String FileRow) (keys : List Key) : List Pending :=
  (keys.dedup.filter (fun key => !storageKeyStillReferenced files key)).map (fun key => ⟨key,[]⟩)

def Pending.overtake (key : Key) (id : String) (pending : Pending) : Pending :=
  if pending.key = key then {pending with inserted := id :: pending.inserted} else pending

def Phase.overtake (key : Key) (id : String) : Phase → Phase
  | .purging pending => .purging (pending.map (Pending.overtake key id))
  | phase => phase

def overtake (key : Key) (id : String) (tasks : List Task) : List Task :=
  tasks.map (fun task => {task with phase := task.phase.overtake key id})

def isVideoMime (row : FileRow) : Bool := mimeStartsWith "video/" row.mimeType

-- The statement a call is at; `pick` is the order the database or the scheduler chooses.
def advance (sys : System) (pick : Nat) : Call → Phase → Option (Phase × System)
  | .upload upload contentHash,.finding =>
    match findDedupSource sys.files pick upload.userId contentHash upload.sizeBytes upload.isVideo with
    | none => some (.done,sys)
    | some source => some (.sharing source,sys)
  | .upload upload contentHash,.sharing source =>
    match sys.files.get upload.fileId with
    | some _ => some (.done,sys)
    | none =>
      some (.done,{sys with
        files := sys.files.set upload.fileId (dedupedRow upload contentHash source.row)
        tasks := overtake source.row.storageKey upload.fileId sys.tasks})
  | .delete fileIds,.selecting =>
    match loadKeysForPurge sys.files fileIds with
    | none => some (.done,sys)
    | some keys => some (.deleting keys,sys)
  | .delete fileIds,.deleting keys =>
    some (.checking keys,{sys with files := sys.files.retain (fun id _ => decide (id ∉ fileIds))})
  | .delete _,.checking keys => some (.purging (unreferenced sys.files keys),sys)
  | .delete _,.purging pending =>
    match pending[pick % pending.length]? with
    | none => some (.done,sys)
    | some entry =>
      some (.purging (pending.eraseIdx (pick % pending.length)),{sys with objects := purgeObject entry.key sys.objects})
  | .cancel fileId _,.loading =>
    match sys.files.get fileId with
    | none => some (.done,sys)
    | some row =>
      if row.Active ∧ isVideoMime row = true ∧ row.hlsReady = false then some (.cancelling row.storageKey,sys) else some (.done,sys)
  -- `WHERE id = $1 AND user_id = $2 AND NOT hls_ready`
  | .cancel fileId userId,.cancelling key =>
    match sys.files.get fileId with
    | none => some (.done,sys)
    | some row =>
      if row.userId = userId ∧ row.hlsReady = false then
        some (.dropping key,{sys with files := sys.files.set fileId {row with hlsEncodeStatus := some .cancelled}})
      else some (.done,sys)
  | .cancel _ _,.dropping key => some (.done,{sys with objects := purgeObject key sys.objects})
  | _,_ => none

def update (fileId : String) (change : FileRow → Option FileRow) (sys : System) : System :=
  match (sys.files.get fileId).bind change with
  | none => sys
  | some row => {sys with files := sys.files.set fileId row}

def reprocessed (packaged : Bool) (row : FileRow) : Option FileRow :=
  if row.Active ∧ isVideoMime row = true ∧ (row.hlsReady || packaged) = true then
    some {row with hlsReady := false,hlsEncodeStatus := some .reprocessing}
  else none

def step (sys : System) : Event → Option System
  | .store upload contentHash =>
    if upload.fileId ∈ sys.minted ∨ sys.files.contains upload.fileId then none
    else some {sys with
      files := sys.files.set upload.fileId (if upload.isVideo then videoRow upload contentHash else plainRow upload contentHash)
      objects := if upload.isVideo then sys.objects else sys.objects.set upload.key true
      minted := upload.fileId :: sys.minted}
  | .begin call => some {sys with tasks := sys.tasks ++ [⟨call,call.start⟩]}
  | .advance i pick =>
    match sys.tasks[i]? with
    | none => none
    | some task =>
      match advance sys pick task.call task.phase with
      | none => none
      | some (phase,next) => some {next with tasks := next.tasks.set i ⟨task.call,phase⟩}
  -- a failed statement ends a call; a failed count of the references leaves the blobs
  | .fail i =>
    match sys.tasks[i]? with
    | none => none
    | some task => some {sys with tasks := sys.tasks.set i ⟨task.call,.done⟩}
  | .reprocess fileId packaged => some (update fileId (reprocessed packaged) sys)
  | .encoded fileId =>
    match sys.files.get fileId with
    | none => none
    | some row =>
      some {sys with
        files := sys.files.set fileId {row with hlsReady := true,hlsEncodeStatus := some .ready}
        objects := sys.objects.set row.storageKey true}
  | .trash fileId now => some (update fileId (trashed now) sys)
  | .restore fileId => some (update fileId restored sys)

def Safe (sys : System) : Prop :=
  ∀ id row, sys.files.get id = some row → sys.objects.get row.storageKey ≠ some false

def SafeNext (sys : System) (e : Event) : Prop := ∀ next, step sys e = some next → Safe next

-- An INSERT finds the blob of its source unpurged, a purge meets none of the rows that
-- came after its count, and a cancelled ingest has stored nothing or lost its rows.
def CallFits (sys : System) (pick : Nat) : Call → Phase → Prop
  | .upload upload _,.sharing source =>
    sys.files.get upload.fileId = none → sys.objects.get source.row.storageKey ≠ some false
  | .delete _,.purging pending => ∀ entry ∈ pending[pick % pending.length]?, sys.objects.get entry.key = some true →
    ∀ id ∈ entry.inserted, ∀ row ∈ sys.files.get id, row.storageKey ≠ entry.key
  | .cancel _ _,.dropping key => sys.objects.get key = some true → storageKeyStillReferenced sys.files key = false
  | _,_ => True

instance (sys : System) (pick : Nat) : ∀ call phase, Decidable (CallFits sys pick call phase) := by
  intro call phase
  unfold CallFits
  split
  · infer_instance
  · infer_instance
  · infer_instance
  · infer_instance

def Fits (sys : System) : Event → Prop
  | .advance i pick => ∀ task ∈ sys.tasks[i]?, CallFits sys pick task.call task.phase
  | _ => True

instance (sys : System) : ∀ e, Decidable (Fits sys e)
  | .advance i pick => inferInstanceAs (Decidable (∀ task ∈ sys.tasks[i]?, CallFits sys pick task.call task.phase))
  | .store _ _ => .isTrue trivial
  | .begin _ => .isTrue trivial
  | .fail _ => .isTrue trivial
  | .reprocess _ _ => .isTrue trivial
  | .encoded _ => .isTrue trivial
  | .trash _ _ => .isTrue trivial
  | .restore _ => .isTrue trivial

end Ownly.Files.Purge
