import Ownly.Collab.Concurrent

-- Replicas that share one Redis. Every GET and SETEX of a save is a step of its own,
-- and so is the memory half behind them.
namespace Ownly.Collab.Replicas
open Store
open Concurrent (contention load joins on Current current_tracks fresh_tracks step_file)

inductive Phase where
  | waiting (left : Nat)
  | loaded (left : Nat) (copy : CollabSession)
  | computed (left : Nat) (added : Option OpEnvelope) (copy : CollabSession)
  | compared (left : Nat) (added : Option OpEnvelope) (copy : CollabSession) (savedAt : Nat)
  | swapped (left : Nat) (added : Option OpEnvelope) (copy : CollabSession) (savedAt : Nat)
  | filed (left : Nat) (added : Option OpEnvelope) (copy : CollabSession) (savedAt : Nat)
  | saved (sessionId : String) (expectedVersion : Nat) (added : Option OpEnvelope)
  | failed (e : CollabError)

structure Task where
  replica : Nat
  call : Call
  phase : Phase

def advance (now : Nat) (fresh : String) (fileReply reply : Reply) (redis : Redis) (memory : MemoryState) (call : Call) :
    Phase → Option (Phase × Redis × MemoryState)
  | .waiting 0 => some (.failed (.conflict (contention call)),redis,memory)
  | .waiting (left + 1) =>
    match load now fresh fileReply reply ⟨some redis,memory⟩ call with
    | (some copy,stores) => some (.loaded left copy,redis,stores.memory)
    | (none,stores) => some (.failed .notFound,redis,stores.memory)
  | .loaded left copy =>
    match call.compute now fresh copy with
    | .ok (added,copy) => some (.computed left added copy,redis,memory)
    | .error e => some (.failed e,redis,memory)
  | .computed left added copy =>
    match reply with
    | .ok =>
      match casCheck (redis.sessions copy.id) copy.version with
      | .ok () => some (.compared left added copy now,redis,memory)
      | .error .versionMismatch => some (.waiting left,redis,memory)
      | .error (.storage e) => some (.failed (.storage e),redis,memory)
    | .lost e | .failed e => some (.failed (.storage e),redis,memory)
  | .compared left added copy savedAt =>
    match reply with
    | .ok => some (.swapped left added copy savedAt,setSession redis (stamped savedAt copy),memory)
    | .lost e => some (.failed (.storage e),setSession redis (stamped savedAt copy),memory)
    | .failed e => some (.failed (.storage e),redis,memory)
  | .swapped left added copy savedAt =>
    match reply with
    | .ok => some (.filed left added copy savedAt,setFile redis (stamped savedAt copy),memory)
    | .lost e => some (.failed (.storage e),setFile redis (stamped savedAt copy),memory)
    | .failed e => some (.failed (.storage e),redis,memory)
  | .filed left added copy savedAt =>
    match memorySaveCas now memory (stamped savedAt copy) copy.version with
    | (.ok _,memory) => some (.saved copy.id copy.version added,redis,memory)
    | (.error .versionMismatch,memory) => some (.waiting left,redis,memory)
    | (.error (.storage e),memory) => some (.failed (.storage e),redis,memory)
  | .saved _ _ _ => none
  | .failed _ => none

-- A SETEX of the session under watch.
structure Write where
  task : Nat
  expectedVersion : Nat
  added : Option OpEnvelope

def ran : Reply → Bool
  | .failed _ => false
  | _ => true

def writeOf (sessionId : String) (task : Nat) (reply : Reply) : Phase → Option Write
  | .compared _ added copy _ => if copy.id = sessionId ∧ ran reply = true then some ⟨task,copy.version,added⟩ else none
  | _ => none

structure System where
  redis : Redis
  memories : Nat → MemoryState
  tasks : List Task
  writes : List Write

inductive Event where
  | start (replica : Nat) (call : Call)
  | advance (task now : Nat) (fresh : String) (fileReply reply : Reply)

def step (sessionId : String) (sys : System) : Event → Option System
  | .start replica call =>
    if on sessionId call then some {sys with tasks := sys.tasks ++ [⟨replica,call,.waiting casRetries⟩]} else none
  | .advance i now fresh fileReply reply =>
    match sys.tasks[i]? with
    | none => none
    | some task =>
      match advance now fresh fileReply reply sys.redis (sys.memories task.replica) task.call task.phase with
      | none => none
      | some (phase,redis,memory) =>
        some ⟨redis,Function.update sys.memories task.replica memory,sys.tasks.set i ⟨task.replica,task.call,phase⟩,
          sys.writes ++ (writeOf sessionId i reply task.phase).toList⟩

-- At its SETEX the session in Redis is still at the version the GET has compared.
def Unraced (sessionId : String) (sys : System) : Event → Prop
  | .start _ _ => True
  | .advance i _ _ _ reply =>
    match sys.tasks[i]? with
    | some ⟨_,_,.compared _ _ copy _⟩ => copy.id = sessionId → ran reply = true →
      match sys.redis.sessions sessionId with
      | some (.json prev) => prev.version = copy.version
      | _ => False
    | _ => True

def Behind (t : Timeline) (s : CollabSession) : Prop :=
  s.version ≤ t.session.version ∧ (s.version = t.session.version → Current t s)

structure Shared (redis : Redis) (memories : Nat → MemoryState) (t : Timeline) : Prop where
  keyed : ∀ k s, redis.sessions k = some (.json s) → s.id = k
  stored : redis.sessions t.session.id = some (.json t.session)
  indexed : ∀ key, redis.files key = some t.session.id → key = fileKey t.session
  replicas : ∀ replica, Kept (Behind t) t.session.id (fileKey t.session) (memories replica)
  saved : 0 < t.session.version

-- A copy whose SETEX has run is an earlier version, or the last commit.
def Committed (t : Timeline) (copy : CollabSession) (savedAt : Nat) : Prop :=
  fileKey copy = fileKey t.session ∧ copy.version < t.session.version ∧
    (copy.version + 1 = t.session.version → stamped savedAt copy = t.session)

def PhaseHeld (t : Timeline) (call : Call) : Phase → Prop
  | .loaded _ copy => (joins call = false → copy.id = t.session.id) ∧ (copy.id = t.session.id → Tracks t call copy)
  | .computed _ added copy | .compared _ added copy _ =>
    (added ≠ none → copy.id = t.session.id) ∧ (copy.id = t.session.id → Computed t call added copy)
  | .swapped _ added copy savedAt | .filed _ added copy savedAt =>
    (added ≠ none → copy.id = t.session.id) ∧ (copy.id = t.session.id → Committed t copy savedAt)
  | .saved sessionId _ added => added ≠ none → sessionId = t.session.id
  | _ => True

def restsOn (sessionId : String) (task : Nat) : Phase → Option Write
  | .swapped _ added copy _ | .filed _ added copy _ =>
    if copy.id = sessionId then some ⟨task,copy.version,added⟩ else none
  | .saved target expectedVersion added => if target = sessionId then some ⟨task,expectedVersion,added⟩ else none
  | _ => none

structure Refines (log : List OpEnvelope) (sys : System) (t : Timeline) : Prop where
  shared : Shared sys.redis sys.memories t
  tasks : ∀ (i : Nat) (task : Task), sys.tasks[i]? = some task →
    on t.session.id task.call = true ∧ PhaseHeld t task.call task.phase ∧
      ∀ w, restsOn t.session.id i task.phase = some w → w ∈ sys.writes
  ordered : sys.writes.Pairwise (fun a b => a.expectedVersion < b.expectedVersion)
  older : ∀ w ∈ sys.writes, w.expectedVersion < t.session.version
  log : t.log = log ++ sys.writes.filterMap Write.added

theorem Committed.later (committed : Committed t copy savedAt) (fired : Timeline.step t c = some t') :
    Committed t' copy savedAt := by
  obtain ⟨file,older,_⟩ := committed
  have newer := (Timeline.step_frame fired).2.2.2
  exact ⟨file.trans (step_file fired).symm,by omega,fun same => absurd same (by omega)⟩

theorem PhaseHeld.later {phase : Phase} (held : PhaseHeld t call phase) (fired : Timeline.step t c = some t') :
    PhaseHeld t' call phase := by
  obtain ⟨sid,_,_,newer⟩ := Timeline.step_frame fired
  cases phase with
  | waiting left => trivial
  | loaded left copy =>
    unfold PhaseHeld at held ⊢
    rw [sid]
    exact ⟨held.1,fun own => (held.2 own).later newer⟩
  | computed left added copy =>
    unfold PhaseHeld at held ⊢
    rw [sid]
    exact ⟨held.1,fun own => (held.2 own).later newer⟩
  | compared left added copy savedAt =>
    unfold PhaseHeld at held ⊢
    rw [sid]
    exact ⟨held.1,fun own => (held.2 own).later newer⟩
  | swapped left added copy savedAt =>
    unfold PhaseHeld at held ⊢
    rw [sid]
    exact ⟨held.1,fun own => (held.2 own).later fired⟩
  | filed left added copy savedAt =>
    unfold PhaseHeld at held ⊢
    rw [sid]
    exact ⟨held.1,fun own => (held.2 own).later fired⟩
  | saved target expectedVersion added =>
    unfold PhaseHeld at held ⊢
    rw [sid]
    exact held
  | failed e => trivial

theorem Behind.prune (behind : Behind t s) (now : Nat) : Behind t (pruneParticipants now s) :=
  ⟨behind.1,fun same => (behind.2 same).prune now⟩

theorem Behind.later (behind : Behind t s) (newer : t'.session.version = t.session.version + 1) : Behind t' s := by
  have older := behind.1
  exact ⟨by omega,fun same => absurd same (by omega)⟩

theorem behind_tracks (call : Call) (behind : Behind t copy) (reaches : call.Reaches t.session) : Tracks t call copy :=
  ⟨behind.1,fun same => (current_tracks (behind.2 same) reaches).2 ((Timeline.read_version t.session []) ▸ same)⟩

theorem redisGet_found (found : redisGet now redis reply k = some s) :
    ∃ older, redis.sessions k = some (.json older) ∧ s = pruneParticipants now older := by
  unfold redisGet at found
  split at found
  · rename_i session stored
    split at found
    · cases found
    · cases found
      exact ⟨session,stored,rfl⟩
  · cases found

section
variable (shared : Shared redis memories t)
include shared

theorem redis_behind (found : redisGet now redis reply t.session.id = some s) :
    Behind t s ∧ s.id = t.session.id := by
  obtain ⟨older,stored,rfl⟩ := redisGet_found found
  rw [shared.stored] at stored
  cases stored
  have last : Behind t t.session := ⟨Nat.le_refl _,fun _ => ⟨[],rfl⟩⟩
  exact ⟨last.prune now,rfl⟩

theorem get_behind (replica : Nat)
    (ran : Store.get now reply ⟨some redis,memories replica⟩ t.session.id = (found,stores)) :
    Kept (Behind t) t.session.id (fileKey t.session) stores.memory ∧
      ∀ copy, found = some copy → Behind t copy ∧ copy.id = t.session.id := by
  have pruned := (shared.replicas replica).prune now (fun _ behind => behind.prune now)
  unfold Store.get at ran
  simp only [Option.bind_some] at ran
  split at ran
  · rename_i session looked
    cases ran
    refine ⟨shared.replicas replica,?_⟩
    rintro copy ⟨⟩
    exact redis_behind shared looked
  · cases ran
    refine ⟨pruned,?_⟩
    intro copy present
    exact ⟨pruned.stored copy present,pruned.keyed _ copy present⟩

theorem getByFile_behind (replica : Nat)
    (ran : getByFile now fileReply reply ⟨some redis,memories replica⟩ kind fileId = (found,stores)) :
    Kept (Behind t) t.session.id (fileKey t.session) stores.memory ∧
      ∀ copy, found = some copy → copy.id = t.session.id →
        Behind t copy ∧ t.session.roomKind = kind ∧ t.session.fileId = fileId := by
  have pruned := (shared.replicas replica).prune now (fun _ behind => behind.prune now)
  unfold getByFile at ran
  simp only [Option.bind_some] at ran
  split at ran
  · rename_i session looked
    cases ran
    refine ⟨shared.replicas replica,?_⟩
    rintro copy ⟨⟩ own
    obtain ⟨k,entry,stored⟩ := Option.bind_eq_some_iff.mp looked
    obtain ⟨older,json,rfl⟩ := redisGet_found stored
    have key : k = t.session.id := (shared.keyed k older json).symm.trans own
    subst key
    split at entry
    · obtain ⟨sameKind,sameFile⟩ := Prod.mk.inj (shared.indexed (kind,fileId) entry)
      exact ⟨(redis_behind shared stored).1,sameKind.symm,sameFile.symm⟩
    · cases entry
  · cases ran
    refine ⟨pruned,?_⟩
    intro copy present own
    obtain ⟨k,entry,stored⟩ := Option.bind_eq_some_iff.mp present
    have key : k = t.session.id := (pruned.keyed k copy stored).symm.trans own
    subst key
    obtain ⟨sameKind,sameFile⟩ := Prod.mk.inj (pruned.indexed (kind,fileId) entry)
    exact ⟨pruned.stored copy stored,sameKind.symm,sameFile.symm⟩

end

theorem load_held (left : Nat) (shared : Shared redis memories t) (replica : Nat) (mine : on t.session.id call = true)
    (ran : load now fresh fileReply reply ⟨some redis,memories replica⟩ call = (found,stores)) :
    Kept (Behind t) t.session.id (fileKey t.session) stores.memory ∧
      ∀ copy, found = some copy → PhaseHeld t call (.loaded left copy) := by
  cases call with
  | join kind fileId userId displayName seed =>
    simp only [load] at ran
    split at ran
    · rename_i session after looked
      cases ran
      obtain ⟨kept,known⟩ := getByFile_behind shared replica looked
      refine ⟨kept,?_⟩
      rintro copy ⟨⟩
      refine ⟨(fun no => by cases no),fun own => ?_⟩
      obtain ⟨behind,reaches⟩ := known session rfl own
      exact behind_tracks _ behind reaches
    · rename_i after looked
      cases ran
      refine ⟨(getByFile_behind shared replica looked).1,?_⟩
      -- a new session has version 0, and the one under watch has been saved
      rintro copy ⟨⟩
      exact ⟨(fun no => by cases no),fun _ => fresh_tracks _ shared.saved rfl⟩
  | heartbeat target userId presence =>
    have target : target = t.session.id := of_decide_eq_true mine
    subst target
    obtain ⟨kept,known⟩ := get_behind shared replica ran
    refine ⟨kept,fun copy found => ⟨fun _ => (known copy found).2,fun _ => ?_⟩⟩
    exact behind_tracks (.heartbeat _ userId presence) (known copy found).1 rfl
  | submitOp target userId baseSeq opType payload clientOpId =>
    have target : target = t.session.id := of_decide_eq_true mine
    subst target
    obtain ⟨kept,known⟩ := get_behind shared replica ran
    refine ⟨kept,fun copy found => ⟨fun _ => (known copy found).2,fun _ => ?_⟩⟩
    exact behind_tracks (.submitOp _ userId baseSeq opType payload clientOpId) (known copy found).1 rfl

theorem compute_held (held : PhaseHeld t call (.loaded left copy)) (ran : call.compute now opId copy = .ok (added,next)) :
    PhaseHeld t call (.computed left added next) := Concurrent.compute_held left held ran

section
variable (shared : Shared redis memories t)
include shared

theorem Shared.replace (kept : Kept (Behind t) t.session.id (fileKey t.session) after)
    (replica : Nat) : Shared redis (Function.update memories replica after) t := by
  refine ⟨shared.keyed,shared.stored,shared.indexed,?_,shared.saved⟩
  intro other
  by_cases same : other = replica
  · subst other
    rw [Function.update_self]
    exact kept
  · rw [Function.update_of_ne same]
    exact shared.replicas other

theorem Shared.unchanged (replica : Nat) :
    Shared redis (Function.update memories replica (memories replica)) t :=
  shared.replace (shared.replicas replica) replica

theorem Shared.setOther (other : session.id ≠ t.session.id) :
    Shared (setSession redis session) memories t := by
  refine ⟨?_,?_,shared.indexed,shared.replicas,shared.saved⟩
  · intro k s found
    simp only [setSession,Function.update_apply] at found
    split at found
    · rename_i same
      cases found
      exact same.symm
    · exact shared.keyed k s found
  · simp only [setSession,Function.update_of_ne other.symm]
    exact shared.stored

theorem Shared.commit (fired : Timeline.step t c = some t') :
    Shared (setSession redis t'.session) memories t' := by
  obtain ⟨sid,_,_,newer⟩ := Timeline.step_frame fired
  refine ⟨?_,?_,?_,?_,by rw [newer]; exact Nat.succ_pos _⟩
  · intro k s found
    simp only [setSession,Function.update_apply] at found
    split at found
    · rename_i same
      cases found
      exact same.symm
    · exact shared.keyed k s found
  · simp only [setSession,Function.update_self]
  · intro key found
    rw [step_file fired]
    rw [sid] at found
    exact shared.indexed key found
  · intro replica
    rw [step_file fired,sid]
    exact (shared.replicas replica).weaken (fun _ behind => behind.later newer)

theorem Shared.file (session : CollabSession)
    (own : session.id = t.session.id → fileKey session = fileKey t.session) :
    Shared (setFile redis session) memories t := by
  refine ⟨shared.keyed,shared.stored,?_,shared.replicas,shared.saved⟩
  intro key found
  simp only [setFile,Function.update_apply] at found
  split at found
  · rename_i same
    rw [same]
    exact own (Option.some.inj found)
  · exact shared.indexed key found

theorem Shared.insert (replica now : Nat)
    (own : copy.id = t.session.id → Committed t copy savedAt) :
    Kept (Behind t) t.session.id (fileKey t.session)
      (Store.insert (pruneMemory now (memories replica)) (stamped savedAt copy)) := by
  refine ((shared.replicas replica).prune now (fun _ behind => behind.prune now)).insert ?_
  intro mine
  obtain ⟨file,older,last⟩ := own mine
  exact ⟨⟨older,fun same => ⟨[],last same⟩⟩,file⟩

end

-- What one step is against the line of commits: no event, or the commit of a SETEX.
def Follows (t : Timeline) (write : Option Write) (t' : Timeline) : Prop :=
  t' = t ∧ write = none ∨ ∃ c w, Timeline.step t c = some t' ∧ write = some w ∧
    w.expectedVersion = t.session.version ∧ t'.log = t.log ++ w.added.toList

theorem swap_follows (shared : Shared redis memories t) (i : Nat) (reply : Reply) (arrived : ran reply = true)
    (held : PhaseHeld t call (.compared left added copy savedAt))
    (unraced : copy.id = t.session.id → t.session.version = copy.version) :
    ∃ t', Follows t (writeOf t.session.id i reply (.compared left added copy savedAt)) t' ∧
      Shared (setSession redis (stamped savedAt copy)) memories t' ∧
      PhaseHeld t' call (.swapped left added copy savedAt) ∧
      ∀ w, restsOn t.session.id i (.swapped left added copy savedAt) = some w →
        writeOf t.session.id i reply (.compared left added copy savedAt) = some w := by
  by_cases own : copy.id = t.session.id
  · have version := unraced own
    obtain ⟨c,fired⟩ := (held.2 own).commit version.symm savedAt
    obtain ⟨sid,_,_,newer⟩ := Timeline.step_frame fired
    have write : writeOf t.session.id i reply (.compared left added copy savedAt) = some ⟨i,copy.version,added⟩ := by
      rw [writeOf,if_pos ⟨own,arrived⟩]
    refine ⟨_,.inr ⟨c,_,fired,write,version.symm,rfl⟩,shared.commit fired,⟨fun _ => rfl,fun _ => ⟨rfl,?_,fun _ => rfl⟩⟩,?_⟩
    · rw [newer,version]
      exact Nat.lt_succ_self _
    · intro w rests
      rw [restsOn,if_pos own] at rests
      rw [write]
      exact rests
  · have silent : added = none := by
      apply Classical.byContradiction
      intro adds
      exact own (held.1 adds)
    subst silent
    have write : writeOf t.session.id i reply (.compared left none copy savedAt) = none := by
      rw [writeOf,if_neg (fun both => own both.1)]
    refine ⟨t,.inl ⟨rfl,write⟩,shared.setOther own,⟨fun adds => absurd rfl adds,fun mine => absurd mine own⟩,?_⟩
    intro w rests
    rw [restsOn,if_neg own] at rests
    cases rests

-- The raced write is the only step the sharing does not survive.
def Calm (t : Timeline) (reply : Reply) : Phase → Prop
  | .compared _ _ copy _ => copy.id = t.session.id → ran reply = true → t.session.version = copy.version
  | _ => True

structure Advanced (redis : Redis) (memories : Nat → MemoryState) (call : Call) (write : Option Write)
    (before after : Phase) (i : Nat) (t t' : Timeline) : Prop where
  follows : Follows t write t'
  shared : Shared redis memories t'
  phase : PhaseHeld t' call after
  rests : ∀ w, restsOn t.session.id i after = some w → restsOn t.session.id i before = some w ∨ write = some w

theorem advance_held (shared : Shared redis memories t) (replica i : Nat) (mine : on t.session.id call = true)
    (held : PhaseHeld t call phase) (calm : Calm t reply phase)
    (moved : advance now fresh fileReply reply redis (memories replica) call phase = some (phase',redis',memory')) :
    ∃ t', Advanced redis' (Function.update memories replica memory') call (writeOf t.session.id i reply phase)
      phase phase' i t t' := by
  cases phase with
  | waiting left =>
    cases left with
    | zero =>
      cases moved
      exact ⟨t,.inl ⟨rfl,rfl⟩,shared.unchanged replica,trivial,fun w rests => by cases rests⟩
    | succ left =>
      simp only [advance] at moved
      split at moved
      · rename_i copy after loaded
        cases moved
        obtain ⟨kept,copied⟩ := load_held left shared replica mine loaded
        exact ⟨t,.inl ⟨rfl,rfl⟩,shared.replace kept replica,copied copy rfl,fun w rests => by cases rests⟩
      · rename_i after loaded
        cases moved
        have kept := (load_held left shared replica mine loaded).1
        exact ⟨t,.inl ⟨rfl,rfl⟩,shared.replace kept replica,trivial,fun w rests => by cases rests⟩
  | loaded left copy =>
    simp only [advance] at moved
    split at moved
    · rename_i computed
      cases moved
      exact ⟨t,.inl ⟨rfl,rfl⟩,shared.unchanged replica,compute_held held computed,fun w rests => by cases rests⟩
    · cases moved
      exact ⟨t,.inl ⟨rfl,rfl⟩,shared.unchanged replica,trivial,fun w rests => by cases rests⟩
  | computed left added copy =>
    simp only [advance] at moved
    split at moved
    · split at moved
      · cases moved
        exact ⟨t,.inl ⟨rfl,rfl⟩,shared.unchanged replica,held,fun w rests => by cases rests⟩
      · cases moved
        exact ⟨t,.inl ⟨rfl,rfl⟩,shared.unchanged replica,trivial,fun w rests => by cases rests⟩
      · cases moved
        exact ⟨t,.inl ⟨rfl,rfl⟩,shared.unchanged replica,trivial,fun w rests => by cases rests⟩
    · cases moved
      exact ⟨t,.inl ⟨rfl,rfl⟩,shared.unchanged replica,trivial,fun w rests => by cases rests⟩
    · cases moved
      exact ⟨t,.inl ⟨rfl,rfl⟩,shared.unchanged replica,trivial,fun w rests => by cases rests⟩
  | compared left added copy savedAt =>
    cases reply with
    | ok =>
      cases moved
      obtain ⟨t',follows,after,phase,rests⟩ := swap_follows shared i .ok rfl held (fun own => calm own rfl)
      refine ⟨t',follows,after.unchanged replica,phase,?_⟩
      intro w rest
      exact .inr (rests w rest)
    | lost e =>
      cases moved
      obtain ⟨t',follows,after,_,_⟩ := swap_follows shared i (.lost e) rfl held (fun own => calm own rfl)
      exact ⟨t',follows,after.unchanged replica,trivial,fun w rests => by cases rests⟩
    | failed e =>
      cases moved
      have silent : writeOf t.session.id i (.failed e) (.compared left added copy savedAt) = none := by
        rw [writeOf,if_neg (fun both => by cases both.2)]
      exact ⟨t,.inl ⟨rfl,silent⟩,shared.unchanged replica,trivial,fun w rests => by cases rests⟩
  | swapped left added copy savedAt =>
    have file := shared.file (stamped savedAt copy) (fun own => (held.2 own).1)
    cases reply with
    | ok =>
      cases moved
      exact ⟨t,.inl ⟨rfl,rfl⟩,file.unchanged replica,held,fun w rests => .inl rests⟩
    | lost e =>
      cases moved
      exact ⟨t,.inl ⟨rfl,rfl⟩,file.unchanged replica,trivial,fun w rests => by cases rests⟩
    | failed e =>
      cases moved
      exact ⟨t,.inl ⟨rfl,rfl⟩,shared.unchanged replica,trivial,fun w rests => by cases rests⟩
  | filed left added copy savedAt =>
    have inserted := shared.insert replica now held.2
    have pruned := (shared.replicas replica).prune now (fun _ behind => behind.prune now)
    simp only [advance,memorySaveCas_exact] at moved
    cases stale : staleCopy now (memories replica) (stamped savedAt copy).id copy.version with
    | true =>
      rw [stale] at moved
      cases moved
      exact ⟨t,.inl ⟨rfl,rfl⟩,shared.replace pruned replica,trivial,fun w rests => by cases rests⟩
    | false =>
      rw [stale] at moved
      cases moved
      exact ⟨t,.inl ⟨rfl,rfl⟩,shared.replace inserted replica,held.1,fun w rests => .inl rests⟩
  | saved target expectedVersion added => cases moved
  | failed e => cases moved

theorem start_refines {sys : System} (refines : Refines log sys t) (replica : Nat) (mine : on t.session.id call = true) :
    Refines log {sys with tasks := sys.tasks ++ [⟨replica,call,.waiting casRetries⟩]} t := by
  refine ⟨refines.shared,?_,refines.ordered,refines.older,refines.log⟩
  intro i task found
  rcases Slots.append_cases found with ⟨_,rfl⟩ | before
  · exact ⟨mine,trivial,fun w rests => by cases rests⟩
  · exact refines.tasks i task before

theorem follows_sid (follows : Follows t write t') : t'.session.id = t.session.id := by
  rcases follows with ⟨rfl,_⟩ | ⟨c,w,fired,_⟩
  · rfl
  · exact (Timeline.step_frame fired).1

theorem advance_refines {sys : System} {task : Task} {i : Nat} (refines : Refines log sys t)
    (found : sys.tasks[i]? = some task)
    (advanced : Advanced redis (Function.update sys.memories task.replica memory) task.call
      (writeOf t.session.id i reply task.phase) task.phase phase i t t') :
    Refines log ⟨redis,Function.update sys.memories task.replica memory,sys.tasks.set i ⟨task.replica,task.call,phase⟩,
      sys.writes ++ (writeOf t.session.id i reply task.phase).toList⟩ t' := by
  obtain ⟨follows,shared,phaseHeld,rests⟩ := advanced
  have sid := follows_sid follows
  refine ⟨shared,?_,?_,?_,?_⟩
  · intro j other present
    rw [sid]
    rcases Slots.set_cases present with ⟨rfl,rfl⟩ | ⟨_,present⟩
    · obtain ⟨mine,_,rested⟩ := refines.tasks _ task found
      refine ⟨mine,phaseHeld,?_⟩
      intro w standing
      rcases rests w standing with before | written
      · exact List.mem_append_left _ (rested w before)
      · rw [written]
        exact List.mem_append_right _ (List.mem_singleton_self w)
    · obtain ⟨mine,before,rested⟩ := refines.tasks j other present
      refine ⟨mine,?_,fun w standing => List.mem_append_left _ (rested w standing)⟩
      rcases follows with ⟨rfl,_⟩ | ⟨c,w,fired,_⟩
      · exact before
      · exact before.later fired
  · rcases follows with ⟨_,silent⟩ | ⟨c,w,_,written,version,_⟩
    · rw [silent,Option.toList_none,List.append_nil]
      exact refines.ordered
    · rw [written,Option.toList_some,List.pairwise_append]
      refine ⟨refines.ordered,List.pairwise_singleton _ _,?_⟩
      intro a earlier b last
      rw [List.mem_singleton.mp last,version]
      exact refines.older a earlier
  · intro w member
    rcases List.mem_append.mp member with earlier | last
    · have older := refines.older w earlier
      rcases follows with ⟨rfl,_⟩ | ⟨c,_,fired,_⟩
      · exact older
      · rw [(Timeline.step_frame fired).2.2.2]
        exact Nat.lt_succ_of_lt older
    · rcases follows with ⟨_,silent⟩ | ⟨c,v,fired,written,version,_⟩
      · rw [silent] at last
        cases last
      · rw [written] at last
        rw [List.mem_singleton.mp last,version,(Timeline.step_frame fired).2.2.2]
        exact Nat.lt_succ_self _
  · rw [List.filterMap_append,← List.append_assoc,← refines.log]
    rcases follows with ⟨rfl,silent⟩ | ⟨c,w,_,written,_,logged⟩
    · rw [silent,Option.toList_none,List.filterMap_nil,List.append_nil]
    · rw [written,logged]
      congr 1

theorem unraced_calm {sys : System} (refines : Refines log sys t) (found : sys.tasks[i]? = some task)
    (unraced : Unraced t.session.id sys (.advance i now fresh fileReply reply)) : Calm t reply task.phase := by
  obtain ⟨replica,call,phase⟩ := task
  cases phase with
  | compared left added copy savedAt =>
    intro own arrived
    simp only [Unraced,found] at unraced
    have version := unraced own arrived
    rw [refines.shared.stored] at version
    exact version
  | _ => trivial

theorem step_refines (refines : Refines log sys t) (unraced : Unraced t.session.id sys e)
    (fired : step t.session.id sys e = some sys') :
    ∃ t', (t' = t ∨ ∃ c, Timeline.step t c = some t') ∧ Refines log sys' t' := by
  cases e with
  | start replica call =>
    simp only [step] at fired
    split at fired
    · rename_i mine
      cases fired
      exact ⟨t,.inl rfl,start_refines refines replica mine⟩
    · cases fired
  | advance i now fresh fileReply reply =>
    simp only [step] at fired
    split at fired
    · cases fired
    · rename_i task found
      split at fired
      · cases fired
      · rename_i phase redis memory moved
        cases fired
        obtain ⟨mine,held,_⟩ := refines.tasks i task found
        obtain ⟨t',advanced⟩ := advance_held refines.shared task.replica i mine held
          (unraced_calm refines found unraced) moved
        refine ⟨t',?_,advance_refines refines found advanced⟩
        rcases advanced.follows with ⟨same,_⟩ | ⟨c,_,commits,_⟩
        · exact .inl same
        · exact .inr ⟨c,commits⟩

theorem run_refines (refines : Refines log sys t)
    (unraced : Schedule.Along (step t.session.id) (Unraced t.session.id) sys events)
    (ran : Schedule.run (step t.session.id) sys events = some sys') :
    ∃ commits t', Schedule.run Timeline.step t commits = some t' ∧ t'.session.id = t.session.id ∧ Refines log sys' t' := by
  refine Schedule.run_simulates (motive := fun sys t' => t'.session.id = t.session.id ∧ Refines log sys t') ?_ ⟨rfl,refines⟩
    unraced ran
  rintro sys t' e next ⟨same,refines⟩ unraced fired
  rw [← same] at unraced fired
  obtain ⟨t'',moved,refined⟩ := step_refines refines unraced fired
  refine ⟨t'',moved,?_,refined⟩
  rcases moved with rfl | ⟨c,commits⟩
  · exact same
  · exact (Timeline.step_frame commits).1.trans same

def begin (redis : Redis) (memories : Nat → MemoryState) : System := ⟨redis,memories,[],[]⟩

theorem begin_refines (shared : Shared redis memories t) : Refines t.log (begin redis memories) t := by
  refine ⟨shared,?_,List.Pairwise.nil,?_,?_⟩
  · intro i task found
    cases found
  · intro w member
    cases member
  · simp [begin]

theorem pairwise_either {α : Type*} {R : α → α → Prop} {items : List α} {a b : α} (pairs : items.Pairwise R) (first : a ∈ items)
    (second : b ∈ items) (other : a ≠ b) : R a b ∨ R b a := by
  induction pairs with
  | nil => cases first
  | cons head rest ih =>
    rcases List.mem_cons.mp first with rfl | later
    · rcases List.mem_cons.mp second with rfl | after
      · exact absurd rfl other
      · exact .inl (head b after)
    · rcases List.mem_cons.mp second with rfl | after
      · exact .inr (head a later)
      · exact ih later after

theorem same_write (refines : Refines log sys t) (first : a ∈ sys.writes) (second : b ∈ sys.writes)
    (same : a.expectedVersion = b.expectedVersion) : a = b := by
  apply Classical.byContradiction
  intro other
  rcases pairwise_either refines.ordered first second other with less | more
  · exact Nat.ne_of_lt less same
  · exact Nat.ne_of_lt more same.symm

theorem distinct_seqs (refines : Refines log sys t) (logged : Logged t.session t.log) (first : a ∈ sys.writes)
    (second : b ∈ sys.writes) (other : a ≠ b) (opA : a.added = some x) (opB : b.added = some y) : x.seq ≠ y.seq := by
  have sorted : (t.log.map OpEnvelope.seq).Pairwise (· < ·) := by
    rw [logged.seqs]
    exact List.pairwise_lt_range'
  rw [List.pairwise_map,refines.log,List.pairwise_append] at sorted
  rcases pairwise_either (List.pairwise_filterMap.mp sorted.2.1) first second other with less | more
  · exact Nat.ne_of_lt (less x opA y opB)
  · exact (Nat.ne_of_lt (more y opB x opA)).symm

theorem written_logged (refines : Refines log sys t) (logged : Logged t.session t.log) (member : w ∈ sys.writes)
    (added : w.added = some op) : op ∈ t.session.ops ∨ op.seq + defaultMaxOps ≤ t.session.latestSeq := by
  have inLog : op ∈ t.log := by
    rw [refines.log]
    exact List.mem_append_right _ (List.mem_filterMap.mpr ⟨w,member,added⟩)
  obtain ⟨i,found⟩ := List.getElem?_of_mem inLog
  have inside : i < t.log.length := (List.getElem?_eq_some_iff.mp found).1
  have seq : (t.log.map OpEnvelope.seq)[i]? = some op.seq := by rw [List.getElem?_map,found]; rfl
  rw [logged.seqs,List.getElem?_range' inside] at seq
  have position := Option.some.inj seq
  rw [logged.latestSeq]
  by_cases dropped : i < t.log.length - defaultMaxOps
  · right
    omega
  · left
    rw [logged.ring]
    apply List.mem_of_getElem?
    show (t.log.drop (t.log.length - defaultMaxOps))[i - (t.log.length - defaultMaxOps)]? = some op
    rw [List.getElem?_drop,Nat.add_sub_cancel' (Nat.le_of_not_lt dropped)]
    exact found

def Saved (sys : System) (i : Nat) (sessionId : String) (expectedVersion : Nat) (added : Option OpEnvelope) : Prop :=
  ∃ task, sys.tasks[i]? = some task ∧ task.phase = .saved sessionId expectedVersion added

theorem saved_write (refines : Refines log sys t) (saved : Saved sys i t.session.id e added) :
    (⟨i,e,added⟩ : Write) ∈ sys.writes := by
  obtain ⟨task,found,phase⟩ := saved
  refine (refines.tasks i task found).2.2 _ ?_
  rw [phase,restsOn,if_pos rfl]

theorem saved_target (refines : Refines log sys t) (saved : Saved sys i target e (some op)) : target = t.session.id := by
  obtain ⟨task,found,phase⟩ := saved
  have held := (refines.tasks i task found).2.1
  rw [phase,PhaseHeld] at held
  exact held (by simp)

theorem no_lost_update (reached : Timeline.Reached created sessionId kind fileId seed t)
    (shared : Shared redis memories t)
    (unraced : Schedule.Along (step sessionId) (Unraced sessionId) (begin redis memories) events)
    (ran : Schedule.run (step sessionId) (begin redis memories) events = some sys) :
    ∃ session, sys.redis.sessions sessionId = some (.json session) ∧
    (∀ i j e addedA addedB, Saved sys i sessionId e addedA → Saved sys j sessionId e addedB → i = j) ∧
    (∀ i target e op, Saved sys i target e (some op) →
      target = sessionId ∧ (op ∈ session.ops ∨ op.seq + defaultMaxOps ≤ session.latestSeq)) ∧
    (∀ i j targetA targetB eA eB opA opB, i ≠ j → Saved sys i targetA eA (some opA) →
      Saved sys j targetB eB (some opB) → opA.seq ≠ opB.seq) := by
  have sid : t.session.id = sessionId := (Timeline.reached_frame reached).1
  subst sid
  obtain ⟨commits,t',path,same,refined⟩ := run_refines (begin_refines shared) unraced ran
  have logged : Logged t'.session t'.log := Schedule.run_preserves (motive := fun t : Timeline => Logged t.session t.log)
    (fun _ _ _ logged fired => Timeline.step_logged logged fired) (Timeline.reached_logged reached) path
  rw [← same]
  refine ⟨t'.session,refined.shared.stored,?_,?_,?_⟩
  · intro i j e addedA addedB savedA savedB
    exact congrArg Write.task (same_write refined (saved_write refined savedA) (saved_write refined savedB) rfl)
  · intro i target e op saved
    have own := saved_target refined saved
    subst own
    exact ⟨rfl,written_logged refined logged (saved_write refined saved) rfl⟩
  · intro i j targetA targetB eA eB opA opB ne savedA savedB
    have ownA := saved_target refined savedA
    have ownB := saved_target refined savedB
    subst ownA
    subst ownB
    refine distinct_seqs refined logged (saved_write refined savedA) (saved_write refined savedB) ?_ rfl rfl
    intro equal
    exact ne (congrArg Write.task equal)

def sharedRedis : Redis :=
  setFile (setSession ⟨fun _ => none,fun _ => none⟩ Concurrent.joined.session) Concurrent.joined.session

def emptyMaps : Nat → MemoryState := fun _ => MemoryState.empty

theorem sharedRedis_shared : Shared sharedRedis emptyMaps Concurrent.joined := by
  refine ⟨?_,?_,?_,?_,by decide⟩
  · intro k s found
    simp only [sharedRedis,setFile,setSession,Function.update_apply] at found
    split at found
    · rename_i same
      cases found
      exact same.symm
    · cases found
  · simp only [sharedRedis,setFile,setSession,Function.update_self]
  · intro key found
    simp only [sharedRedis,setFile,setSession,Function.update_apply] at found
    split at found
    · assumption
    · cases found
  · intro replica
    refine ⟨?_,?_,?_⟩
    · intro k s found
      cases found
    · intro s found
      cases found
    · intro key found
      cases found

def answered (task : Nat) (opId : String) : Event := .advance task 0 opId .ok .ok

def takingTurns : List Event :=
  [.start 0 (Concurrent.typing ['a']),.start 1 (Concurrent.typing ['b']),answered 0 "x",answered 1 "y",answered 0 "x",
   answered 1 "y",answered 0 "x",answered 0 "x",answered 0 "x",answered 0 "x",answered 1 "y",answered 1 "y",answered 1 "y",
   answered 1 "y",answered 1 "y",answered 1 "y",answered 1 "y"]

instance (sessionId : String) (sys : System) (e : Event) : Decidable (Unraced sessionId sys e) := by
  unfold Unraced
  split
  · exact instDecidableTrue
  · split
    · have : ∀ (found : Option Raw) (version : Nat), Decidable (match found with
          | some (.json prev) => prev.version = version
          | _ => False) := by
        intro found version
        split
        · infer_instance
        · infer_instance
      infer_instance
    · exact instDecidableTrue

theorem no_lost_update_turns : ∃ sys, Schedule.run (step "s") (begin sharedRedis emptyMaps) takingTurns = some sys ∧
    ∃ session, sys.redis.sessions "s" = some (.json session) ∧
      ∀ i target e op, Saved sys i target e (some op) →
        target = "s" ∧ (op ∈ session.ops ∨ op.seq + defaultMaxOps ≤ session.latestSeq) := by
  obtain ⟨sys,ran⟩ := Option.isSome_iff_exists.mp
    (by decide : (Schedule.run (step "s") (begin sharedRedis emptyMaps) takingTurns).isSome = true)
  have reached : Timeline.Reached 0 "s" .document "f" none Concurrent.joined :=
    ⟨[⟨[],0,"op",.join .document "f" "u1" "Ann" none,0⟩],rfl⟩
  obtain ⟨session,stored,_,kept,_⟩ := no_lost_update reached sharedRedis_shared (by decide) ran
  exact ⟨sys,ran,session,stored,kept⟩

-- The same two calls with both GETs before both SETEXs.
def racing : List Event :=
  [.start 0 (Concurrent.typing ['a']),.start 1 (Concurrent.typing ['b']),answered 0 "x",answered 1 "y",answered 0 "x",
   answered 1 "y",answered 0 "x",answered 1 "y",answered 0 "x",answered 1 "y",answered 0 "x",answered 1 "y",answered 0 "x",
   answered 1 "y"]

def expectedOf : Phase → Option Nat
  | .saved _ expectedVersion _ => some expectedVersion
  | _ => none

def acknowledged : Phase → Option OpEnvelope
  | .saved _ _ added => added
  | _ => none

def storedIds (redis : Redis) : List String :=
  match redis.sessions "s" with
  | some (.json session) => session.ops.map OpEnvelope.id
  | _ => []

def afterRace : Option System := Schedule.run (step "s") (begin sharedRedis emptyMaps) racing

theorem racing_loses :
    afterRace.map (fun sys => sys.tasks.map (fun task => expectedOf task.phase)) = some [some 1,some 1] ∧
    afterRace.map (fun sys => sys.tasks.map (fun task => (acknowledged task.phase).map OpEnvelope.id)) =
      some [some "x",some "y"] ∧
    afterRace.map (fun sys => sys.tasks.map (fun task => (acknowledged task.phase).map OpEnvelope.seq)) =
      some [some 1,some 1] ∧
    afterRace.map (fun sys => storedIds sys.redis) = some ["y"] := by
  refine ⟨?_,?_,?_,?_⟩
  · decide
  · decide
  · decide
  · decide

end Ownly.Collab.Replicas
