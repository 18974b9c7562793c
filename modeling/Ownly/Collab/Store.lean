import Ownly.Collab.Engine

-- `CollabStore`: the memory map of one replica and the Redis it may share.
namespace Ownly.Collab.Store
open Option

structure MemoryState where
  sessions : KeyMap String CollabSession
  byFile : KeyMap (RoomKind × String) String

def MemoryState.empty : MemoryState := ⟨KeyMap.empty,KeyMap.empty⟩

def pruneParticipants (now : Nat) (session : CollabSession) : CollabSession :=
  {session with participants := session.participants.retain (fun _ p => decide (now - p.lastSeen ≤ participantTtlSecs))}

def idle (now : Nat) (session : CollabSession) : Bool := decide (sessionIdleTtlSecs < now - session.lastActiveAt)

def fileKey (session : CollabSession) : RoomKind × String := (session.roomKind,session.fileId)

-- Idle sessions go, and with each of them the index entry of its file, whichever
-- session that entry names.
def pruneMemory (now : Nat) (state : MemoryState) : MemoryState :=
  {sessions := (state.sessions.retain (fun _ s => !idle now s)).mapValues (pruneParticipants now)
   byFile := state.byFile.retain (fun key _ => !state.sessions.any (fun _ s => idle now s && decide (fileKey s = key)))}

def insert (memory : MemoryState) (session : CollabSession) : MemoryState :=
  ⟨memory.sessions.set session.id session,memory.byFile.set (fileKey session) session.id⟩

-- What Redis holds under a session key: a session, or text that does not parse.
inductive Raw where
  | json (session : CollabSession)
  | garbled (error : String)

structure Redis where
  sessions : String → Option Raw
  files : RoomKind × String → Option String

-- A command ran and was answered, ran while its answer was lost, or did not run.
inductive Reply where
  | ok
  | lost (error : String)
  | failed (error : String)
  deriving DecidableEq, Repr

inductive CasError where
  | versionMismatch
  | storage (error : String)
  deriving DecidableEq, Repr

structure Stores where
  redis : Option Redis
  memory : MemoryState

def redisGet (now : Nat) (redis : Redis) (reply : Reply) (sessionId : String) : Option CollabSession :=
  match reply,redis.sessions sessionId with
  | .ok,some (.json session) => if idle now session then none else some (pruneParticipants now session)
  | _,_ => none

def memoryGet (now : Nat) (memory : MemoryState) (sessionId : String) : Option CollabSession × MemoryState :=
  let memory := pruneMemory now memory
  (memory.sessions.get sessionId,memory)

-- Redis first; whatever goes wrong there, the copy in memory answers.
def get (now : Nat) (reply : Reply) (stores : Stores) (sessionId : String) : Option CollabSession × Stores :=
  match stores.redis.bind (fun redis => redisGet now redis reply sessionId) with
  | some session => (some session,stores)
  | none =>
    let (found,memory) := memoryGet now stores.memory sessionId
    (found,{stores with memory := memory})

def memoryGetByFile (now : Nat) (memory : MemoryState) (kind : RoomKind) (fileId : String) :
    Option CollabSession × MemoryState :=
  let memory := pruneMemory now memory
  ((memory.byFile.get (kind,fileId)).bind memory.sessions.get,memory)

def getByFile (now : Nat) (fileReply reply : Reply) (stores : Stores) (kind : RoomKind) (fileId : String) :
    Option CollabSession × Stores :=
  match stores.redis.bind (fun redis =>
    (if fileReply = .ok then redis.files (kind,fileId) else none).bind (redisGet now redis reply)) with
  | some session => (some session,stores)
  | none =>
    let (found,memory) := memoryGetByFile now stores.memory kind fileId
    (found,{stores with memory := memory})

-- `SETEX` of the serialized session, then `SETEX` of the file key.
def setSession (redis : Redis) (session : CollabSession) : Redis :=
  {redis with sessions := Function.update redis.sessions session.id (some (.json session))}

def setFile (redis : Redis) (session : CollabSession) : Redis :=
  {redis with files := Function.update redis.files (fileKey session) (some session.id)}

structure Replies where
  get : Reply
  setSession : Reply
  setFile : Reply

def redisSave (redis : Redis) (session : CollabSession) (replies : Replies) : Except CasError Unit × Redis :=
  match replies.setSession with
  | .failed e => (.error (.storage e),redis)
  | .lost e => (.error (.storage e),setSession redis session)
  | .ok =>
    match replies.setFile with
    | .failed e => (.error (.storage e),setSession redis session)
    | .lost e => (.error (.storage e),setFile (setSession redis session) session)
    | .ok => (.ok (),setFile (setSession redis session) session)

-- The version comparison on what GET returned.
def casCheck (found : Option Raw) (expectedVersion : Nat) : Except CasError Unit :=
  match found with
  | some (.garbled e) => .error (.storage e)
  | some (.json prev) => if prev.version ≠ expectedVersion then .error .versionMismatch else .ok ()
  | none => if expectedVersion ≠ 0 then .error .versionMismatch else .ok ()

def redisSaveCas (redis : Redis) (session : CollabSession) (expectedVersion : Nat) (replies : Replies) :
    Except CasError Unit × Redis :=
  match replies.get with
  | .failed e | .lost e => (.error (.storage e),redis)
  | .ok =>
    match casCheck (redis.sessions session.id) expectedVersion with
    | .error e => (.error e,redis)
    | .ok () => redisSave redis session replies

-- The memory half of `save_cas`, on the session that already carries its new version.
def memorySaveCas (now : Nat) (memory : MemoryState) (session : CollabSession) (expectedVersion : Nat) :
    Except CasError CollabSession × MemoryState :=
  let memory := pruneMemory now memory
  match memory.sessions.get session.id with
  | some existing =>
    if existing.version ≠ expectedVersion then (.error .versionMismatch,memory)
    else (.ok session,insert memory session)
  | none => (.ok session,insert memory session)

def stamped (now : Nat) (session : CollabSession) : CollabSession :=
  {session with version := session.version + 1,lastActiveAt := now}

def saveCas (now : Nat) (replies : Replies) (stores : Stores) (session : CollabSession) (expectedVersion : Nat) :
    Except CasError CollabSession × Stores :=
  if session.version ≠ expectedVersion then (.error .versionMismatch,stores)
  else
    let session := stamped now session
    match stores.redis with
    | none =>
      let (result,memory) := memorySaveCas now stores.memory session expectedVersion
      (result,{stores with memory := memory})
    | some redis =>
      match redisSaveCas redis session expectedVersion replies with
      | (.error e,redis) => (.error e,{stores with redis := some redis})
      | (.ok (),redis) =>
        let (result,memory) := memorySaveCas now stores.memory session expectedVersion
        (result,⟨some redis,memory⟩)

theorem pruneMemory_get (now : Nat) (state : MemoryState) (sid : String) :
    (pruneMemory now state).sessions.get sid =
      ((state.sessions.get sid).filter (fun s => !idle now s)).map (pruneParticipants now) := by
  simp [pruneMemory]

theorem pruneMemory_live (found : state.sessions.get sid = some session) (live : idle now session = false) :
    (pruneMemory now state).sessions.get sid = some (pruneParticipants now session) := by
  rw [pruneMemory_get,found]
  simp [Option.filter,live]

theorem prune_found (found : (pruneMemory now memory).sessions.get k = some s) :
    ∃ older, memory.sessions.get k = some older ∧ s = pruneParticipants now older := by
  rw [pruneMemory_get] at found
  obtain ⟨older,kept,rfl⟩ := map_eq_some_iff.mp found
  exact ⟨older,(filter_eq_some_iff.mp kept).1,rfl⟩

-- A map that keeps sessions under their own ids, one of them with a property, and
-- indexes that one by no other file.
structure Kept (own : CollabSession → Prop) (sessionId : String) (file : RoomKind × String) (memory : MemoryState) : Prop where
  keyed : ∀ k s, memory.sessions.get k = some s → s.id = k
  stored : ∀ s, memory.sessions.get sessionId = some s → own s
  indexed : ∀ key, memory.byFile.get key = some sessionId → key = file

section
variable (kept : Kept own sessionId file memory)
include kept

theorem Kept.prune (now : Nat) (closed : ∀ s, own s → own (pruneParticipants now s)) :
    Kept own sessionId file (pruneMemory now memory) := by
  refine ⟨?_,?_,?_⟩
  · intro k s found
    obtain ⟨older,present,rfl⟩ := prune_found found
    exact kept.keyed k older present
  · intro s found
    obtain ⟨older,present,rfl⟩ := prune_found found
    exact closed older (kept.stored older present)
  · intro key found
    simp only [pruneMemory,KeyMap.get_retain,filter_eq_some_iff] at found
    exact kept.indexed key found.1

theorem Kept.insert
    (mine : session.id = sessionId → own session ∧ fileKey session = file) :
    Kept own sessionId file (insert memory session) := by
  refine ⟨?_,?_,?_⟩
  · intro k s found
    rw [Store.insert,KeyMap.get_set] at found
    split at found
    · rename_i same
      cases found
      exact same.symm
    · exact kept.keyed k s found
  · intro s found
    rw [Store.insert,KeyMap.get_set] at found
    split at found
    · rename_i same
      cases found
      exact (mine same.symm).1
    · exact kept.stored s found
  · intro key found
    rw [Store.insert,KeyMap.get_set] at found
    split at found
    · rename_i same
      rw [same]
      exact (mine (Option.some.inj found)).2
    · exact kept.indexed key found

theorem Kept.weaken (weaker : ∀ s, own s → other s) :
    Kept other sessionId file memory :=
  ⟨kept.keyed,fun s found => weaker s (kept.stored s found),kept.indexed⟩

theorem Kept.replace (mine : session.id = sessionId) (now : other session)
    (same : fileKey session = file) : Kept other sessionId file (Store.insert memory session) := by
  refine ⟨?_,?_,?_⟩
  · intro k s found
    rw [Store.insert,KeyMap.get_set] at found
    split at found
    · rename_i same
      cases found
      exact same.symm
    · exact kept.keyed k s found
  · intro s found
    rw [Store.insert,mine,KeyMap.get_set_self] at found
    cases found
    exact now
  · intro key found
    rw [Store.insert,KeyMap.get_set] at found
    split at found
    · rename_i equal
      exact equal.trans same
    · exact kept.indexed key found

end

def staleCopy (now : Nat) (memory : MemoryState) (sessionId : String) (expectedVersion : Nat) : Bool :=
  match (pruneMemory now memory).sessions.get sessionId with
  | some existing => decide (existing.version ≠ expectedVersion)
  | none => false

theorem fresh_version (fresh : staleCopy now memory sessionId expectedVersion = false)
    (found : (pruneMemory now memory).sessions.get sessionId = some existing) : existing.version = expectedVersion := by
  rw [staleCopy,found] at fresh
  exact Decidable.not_not.mp (of_decide_eq_false fresh)

theorem memorySaveCas_exact (now : Nat) (memory : MemoryState) (session : CollabSession) (expectedVersion : Nat) :
    memorySaveCas now memory session expectedVersion =
      if staleCopy now memory session.id expectedVersion then (.error .versionMismatch,pruneMemory now memory)
      else (.ok session,insert (pruneMemory now memory) session) := by
  unfold memorySaveCas staleCopy
  dsimp only
  cases (pruneMemory now memory).sessions.get session.id with
  | none => rfl
  | some existing =>
    by_cases same : existing.version = expectedVersion
    · simp [same]
    · simp [same]

end Ownly.Collab.Store
