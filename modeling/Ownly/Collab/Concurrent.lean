import Ownly.Collab.Timeline
import Ownly.Lib.Slots

-- Calls that run side by side on the memory map of one process. Each holds the map's
-- lock only for its read and for its save.
namespace Ownly.Collab.Concurrent
open Store
open List

inductive Phase where
  | waiting (left : Nat)
  | loaded (left : Nat) (copy : CollabSession)
  | computed (left : Nat) (added : Option OpEnvelope) (copy : CollabSession)
  | done (result : Except CollabError (Option OpEnvelope))

structure Task where
  call : Call
  phase : Phase

def contention : Call → String
  | .join _ _ _ _ _ => "join CAS contention"
  | .heartbeat _ _ _ => "heartbeat CAS contention"
  | .submitOp _ _ _ _ _ _ => "submit_op CAS contention"

-- The read a round starts with. A join makes a new session where its file has none.
def load (now : Nat) (fresh : String) (fileReply reply : Reply) (stores : Stores) : Call → Option CollabSession × Stores
  | .join kind fileId _ _ seed =>
    match getByFile now fileReply reply stores kind fileId with
    | (some session,stores) => (some session,stores)
    | (none,stores) => (some (Engine.newSession now fresh kind fileId (Domain.seedSnapshot kind seed)),stores)
  | .heartbeat sessionId _ _ => get now reply stores sessionId
  | .submitOp sessionId _ _ _ _ _ => get now reply stores sessionId

-- With no Redis there is no command to be answered.
def unasked : Replies := ⟨.ok,.ok,.ok⟩

def advance (now : Nat) (fresh : String) (memory : MemoryState) (call : Call) :
    Phase → Option (Phase × MemoryState × Option OpEnvelope)
  | .waiting 0 => some (.done (.error (.conflict (contention call))),memory,none)
  | .waiting (left + 1) =>
    match load now fresh .ok .ok ⟨none,memory⟩ call with
    | (some copy,stores) => some (.loaded left copy,stores.memory,none)
    | (none,stores) => some (.done (.error .notFound),stores.memory,none)
  | .loaded left copy =>
    match call.compute now fresh copy with
    | .ok (added,copy) => some (.computed left added copy,memory,none)
    | .error e => some (.done (.error e),memory,none)
  | .computed left added copy =>
    match saveCas now unasked ⟨none,memory⟩ copy copy.version with
    | (.ok _,stores) => some (.done (.ok added),stores.memory,added)
    | (.error .versionMismatch,stores) => some (.waiting left,stores.memory,none)
    | (.error (.storage e),stores) => some (.done (.error (.storage e)),stores.memory,none)
  | .done _ => none

-- The log names the task of each op; what was committed before has none.
structure System where
  memory : MemoryState
  tasks : List Task
  log : List (Option Nat × OpEnvelope)

inductive Event where
  | start (call : Call)
  | advance (task now : Nat) (fresh : String)

def on (sessionId : String) : Call → Bool
  | .join _ _ _ _ _ => true
  | .heartbeat target _ _ => decide (target = sessionId)
  | .submitOp target _ _ _ _ _ => decide (target = sessionId)

def step (sessionId : String) (sys : System) : Event → Option System
  | .start call => if on sessionId call then some {sys with tasks := sys.tasks ++ [⟨call,.waiting casRetries⟩]} else none
  | .advance i now fresh =>
    match sys.tasks[i]? with
    | none => none
    | some task =>
      match advance now fresh sys.memory task.call task.phase with
      | none => none
      | some (phase,memory,added) =>
        some ⟨memory,sys.tasks.set i ⟨task.call,phase⟩,sys.log ++ added.toList.map (fun op => (some i,op))⟩

-- No save of the session finds it expired: it exists for as long as calls work on it.
def Exists (sessionId : String) (sys : System) : Event → Prop
  | .start _ => True
  | .advance i now _ =>
    match sys.tasks[i]? with
    | some ⟨_,.computed _ _ copy⟩ =>
      copy.id = sessionId → ((pruneMemory now sys.memory).sessions.get sessionId).isSome = true
    | _ => True

instance (sessionId : String) (sys : System) (e : Event) : Decidable (Exists sessionId sys e) := by
  unfold Exists
  split
  · exact instDecidableTrue
  · split
    · infer_instance
    · exact instDecidableTrue

theorem saveCas_memory (now : Nat) (memory : MemoryState) (copy : CollabSession) :
    saveCas now unasked ⟨none,memory⟩ copy copy.version =
      if staleCopy now memory copy.id copy.version then (.error .versionMismatch,⟨none,pruneMemory now memory⟩)
      else (.ok (stamped now copy),⟨none,insert (pruneMemory now memory) (stamped now copy)⟩) := by
  have sid : (stamped now copy).id = copy.id := rfl
  unfold saveCas
  rw [if_neg (by simp)]
  simp only [memorySaveCas_exact,sid]
  split
  · rfl
  · rfl

structure Existing (memory : MemoryState) (t : Timeline) : Prop where
  keyed : ∀ k s, memory.sessions.get k = some s → s.id = k
  stored : memory.sessions.get t.session.id = some t.session
  indexed : ∀ key, memory.byFile.get key = some t.session.id → key = fileKey t.session
  saved : 0 < t.session.version

-- What the map holds under its id while calls come and go: the last commit, less the
-- participants that expired since.
def Current (t : Timeline) (s : CollabSession) : Prop := ∃ prunedAt, s = Timeline.read t.session prunedAt

structure Held (memory : MemoryState) (t : Timeline) : Prop where
  kept : Kept (Current t) t.session.id (fileKey t.session) memory
  saved : 0 < t.session.version

def joins : Call → Bool
  | .join _ _ _ _ _ => true
  | _ => false

def Phase.committed : Phase → List OpEnvelope
  | .done (.ok (some op)) => [op]
  | _ => []

def PhaseHeld (t : Timeline) (call : Call) : Phase → Prop
  | .loaded _ copy => (joins call = false → copy.id = t.session.id) ∧ (copy.id = t.session.id → Tracks t call copy)
  | .computed _ added copy =>
    (added ≠ none → copy.id = t.session.id) ∧ (copy.id = t.session.id → Computed t call added copy)
  | _ => True

theorem Existing.held (existing : Existing memory t) : Held memory t :=
  ⟨⟨existing.keyed,fun s found => ⟨[],by rw [existing.stored] at found; cases found; rfl⟩,existing.indexed⟩,existing.saved⟩

theorem Current.prune (current : Current t s) (now : Nat) : Current t (pruneParticipants now s) := by
  obtain ⟨prunedAt,rfl⟩ := current
  refine ⟨prunedAt ++ [now],?_⟩
  simp only [Timeline.read,foldl_append,foldl_cons,foldl_nil]

theorem Held.prune (held : Held memory t) (now : Nat) : Held (pruneMemory now memory) t :=
  ⟨held.kept.prune now (fun _ current => current.prune now),held.saved⟩

theorem PhaseHeld.later {phase : Phase} (held : PhaseHeld t call phase) (sid : t'.session.id = t.session.id)
    (newer : t'.session.version = t.session.version + 1) : PhaseHeld t' call phase := by
  cases phase with
  | waiting left => trivial
  | loaded left copy =>
    unfold PhaseHeld at held ⊢
    rw [sid]
    exact ⟨held.1,fun own => (held.2 own).later newer⟩
  | computed left added copy =>
    unfold PhaseHeld at held ⊢
    rw [sid]
    exact ⟨held.1,fun own => (held.2 own).later newer⟩
  | done result => trivial

theorem current_tracks (current : Current t copy) (reaches : call.Reaches t.session) : Tracks t call copy := by
  obtain ⟨prunedAt,rfl⟩ := current
  exact ⟨Nat.le_of_eq (Timeline.read_version _ _),fun _ => ⟨reaches,prunedAt,rfl⟩⟩

theorem get_held (held : Held memory t) (call : Call) (reaches : call.Reaches t.session)
    (found : (pruneMemory now memory).sessions.get t.session.id = some copy) : PhaseHeld t call (.loaded left copy) := by
  have kept := (held.prune now).kept
  exact ⟨fun _ => kept.keyed _ copy found,fun _ => current_tracks (kept.stored copy found) reaches⟩

theorem fresh_tracks (call : Call) (saved : 0 < t.session.version) (fresh : copy.version = 0) : Tracks t call copy :=
  ⟨by omega,fun same => absurd (fresh.symm.trans same) (Nat.ne_of_lt saved)⟩

theorem load_held (left : Nat) (held : Held memory t) (mine : on t.session.id call = true)
    (ran : load now fresh .ok .ok ⟨none,memory⟩ call = (found,stores)) :
    Held stores.memory t ∧ ∀ copy, found = some copy → PhaseHeld t call (.loaded left copy) := by
  have pruned := held.prune now
  cases call with
  | join kind fileId userId displayName seed =>
    simp only [load,getByFile,memoryGetByFile,Option.bind_none] at ran
    cases looked : ((pruneMemory now memory).byFile.get (kind,fileId)).bind (pruneMemory now memory).sessions.get with
    | none =>
      rw [looked] at ran
      cases ran
      refine ⟨pruned,?_⟩
      -- a new session has version 0, and the one under watch has been saved
      rintro copy ⟨⟩
      exact ⟨(fun no => by cases no),fun _ => fresh_tracks _ held.saved rfl⟩
    | some session =>
      rw [looked] at ran
      cases ran
      refine ⟨pruned,?_⟩
      rintro copy ⟨⟩
      obtain ⟨k,entry,stored⟩ := Option.bind_eq_some_iff.mp looked
      refine ⟨(fun no => by cases no),fun own => ?_⟩
      have key : k = t.session.id := (pruned.kept.keyed k session stored).symm.trans own
      subst key
      obtain ⟨sameKind,sameFile⟩ := Prod.mk.inj (pruned.kept.indexed (kind,fileId) entry)
      exact current_tracks (pruned.kept.stored session stored) ⟨sameKind.symm,sameFile.symm⟩
  | heartbeat target userId presence =>
    have target : target = t.session.id := of_decide_eq_true mine
    subst target
    cases ran
    exact ⟨pruned,fun copy found => get_held held (.heartbeat _ userId presence) rfl found⟩
  | submitOp target userId baseSeq opType payload clientOpId =>
    have target : target = t.session.id := of_decide_eq_true mine
    subst target
    cases ran
    exact ⟨pruned,fun copy found => get_held held (.submitOp _ userId baseSeq opType payload clientOpId) rfl found⟩

theorem compute_held {next : CollabSession} (left : Nat) (held : PhaseHeld t call (.loaded left copy)) (ran : call.compute now opId copy = .ok (added,next)) :
    PhaseHeld t call (.computed left added next) := by
  have sid : next.id = copy.id := (Call.compute_frame ran).1
  refine ⟨fun adds => ?_,fun own => ?_⟩
  · rw [sid]
    refine held.1 ?_
    cases call with
    | join kind fileId userId displayName seed => exact absurd (Call.compute_silent_join ran) adds
    | heartbeat target userId presence => rfl
    | submitOp target userId baseSeq opType payload clientOpId => rfl
  · rw [sid] at own
    exact ⟨copy,now,opId,held.2 own,ran⟩

theorem step_file (fired : Timeline.step t c = some t') : fileKey t'.session = fileKey t.session := by
  obtain ⟨_,kind,file,_⟩ := Timeline.step_frame fired
  exact Prod.ext kind file

theorem save_held (held : Held memory t) (fired : Timeline.step t c = some ⟨stamped now copy,log⟩) :
    Held (insert (pruneMemory now memory) (stamped now copy)) ⟨stamped now copy,log⟩ := by
  obtain ⟨sid,_,_,version⟩ := Timeline.step_frame fired
  have kept := (held.prune now).kept
  rw [← step_file fired,← sid] at kept
  exact ⟨kept.replace rfl ⟨[],rfl⟩ rfl,by rw [version]; exact Nat.succ_pos _⟩

theorem save_other (held : Held memory t) (other : copy.id ≠ t.session.id) :
    Held (insert (pruneMemory now memory) (stamped now copy)) t :=
  ⟨(held.prune now).kept.insert (fun own => absurd own other),held.saved⟩

def Follows (t : Timeline) (call : Call) (phase : Phase) (memory : MemoryState) (added : Option OpEnvelope)
    (t' : Timeline) : Prop :=
  (t' = t ∧ added = none ∨ ∃ c, Timeline.step t c = some t' ∧ t'.log = t.log ++ added.toList) ∧
    Held memory t' ∧ PhaseHeld t' call phase ∧ phase.committed = added.toList

theorem advance_follows (held : Held memory t) (mine : on t.session.id call = true) (phaseHeld : PhaseHeld t call phase)
    (present : ∀ left added copy, phase = .computed left added copy → copy.id = t.session.id →
      ((pruneMemory now memory).sessions.get t.session.id).isSome = true)
    (ran : advance now fresh memory call phase = some (phase',memory',added)) :
    ∃ t', Follows t call phase' memory' added t' := by
  cases phase with
  | waiting left =>
    cases left with
    | zero =>
      cases ran
      exact ⟨t,.inl ⟨rfl,rfl⟩,held,trivial,rfl⟩
    | succ left =>
      simp only [advance] at ran
      split at ran
      · rename_i copy after loaded
        cases ran
        obtain ⟨kept,copied⟩ := load_held left held mine loaded
        exact ⟨t,.inl ⟨rfl,rfl⟩,kept,copied copy rfl,rfl⟩
      · rename_i after loaded
        cases ran
        exact ⟨t,.inl ⟨rfl,rfl⟩,(load_held left held mine loaded).1,trivial,rfl⟩
  | loaded left copy =>
    simp only [advance] at ran
    split at ran
    · rename_i computed
      cases ran
      exact ⟨t,.inl ⟨rfl,rfl⟩,held,compute_held left phaseHeld computed,rfl⟩
    · cases ran
      exact ⟨t,.inl ⟨rfl,rfl⟩,held,trivial,rfl⟩
  | computed left added copy =>
    simp only [advance,saveCas_memory] at ran
    cases stale : staleCopy now memory copy.id copy.version with
    | true =>
      rw [stale] at ran
      cases ran
      exact ⟨t,.inl ⟨rfl,rfl⟩,held.prune now,trivial,rfl⟩
    | false =>
      rw [stale] at ran
      cases ran
      by_cases own : copy.id = t.session.id
      · obtain ⟨existing,found⟩ := Option.isSome_iff_exists.mp (present left added copy rfl own)
        obtain ⟨prunedAt,rfl⟩ := (held.prune now).kept.stored existing found
        rw [own] at stale
        have version := fresh_version stale found
        rw [Timeline.read_version] at version
        obtain ⟨c,fired⟩ := (phaseHeld.2 own).commit version.symm now
        refine ⟨_,.inr ⟨c,fired,rfl⟩,save_held held fired,trivial,?_⟩
        cases added with
        | none => rfl
        | some op => rfl
      · have silent : added = none := by
          apply Classical.byContradiction
          intro adds
          exact own (phaseHeld.1 adds)
        subst silent
        exact ⟨t,.inl ⟨rfl,rfl⟩,save_other held own,trivial,rfl⟩
  | done result => cases ran

def contributed (log : List (Option Nat × OpEnvelope)) (task : Nat) : List OpEnvelope :=
  (log.filter (fun entry => entry.1 = some task)).map Prod.snd

def committedBy (tasks : List Task) (task : Nat) : List OpEnvelope :=
  match tasks[task]? with
  | some found => found.phase.committed
  | none => []

structure Refines (sys : System) (t : Timeline) : Prop where
  memory : Held sys.memory t
  tasks : ∀ (i : Nat) (task : Task), sys.tasks[i]? = some task →
    on t.session.id task.call = true ∧ PhaseHeld t task.call task.phase
  log : sys.log.map Prod.snd = t.log
  mine : ∀ i, contributed sys.log i = committedBy sys.tasks i

theorem contributed_append (log : List (Option Nat × OpEnvelope)) (added : Option OpEnvelope) (i j : Nat) :
    contributed (log ++ added.toList.map (fun op => (some i,op))) j =
      contributed log j ++ if j = i then added.toList else [] := by
  unfold contributed
  rw [filter_append,map_append]
  congr 1
  cases added with
  | none => split <;> rfl
  | some op =>
    by_cases same : j = i
    · simp [same]
    · have other : i ≠ j := fun eq => same eq.symm
      simp [same,other]

theorem advance_uncommitted {phase : Phase} (ran : advance now fresh memory call phase = some result) : phase.committed = [] := by
  cases phase with
  | waiting left => rfl
  | loaded left copy => rfl
  | computed left added copy => rfl
  | done outcome => cases ran

theorem start_refines {sys : System} (refines : Refines sys t) (mine : on t.session.id call = true) :
    Refines {sys with tasks := sys.tasks ++ [⟨call,.waiting casRetries⟩]} t := by
  refine ⟨refines.memory,?_,refines.log,?_⟩
  · intro i task found
    rcases Slots.append_cases found with ⟨_,rfl⟩ | before
    · exact ⟨mine,trivial⟩
    · exact refines.tasks i task before
  · intro i
    rw [refines.mine i]
    unfold committedBy
    dsimp only
    rw [getElem?_append]
    by_cases inside : i < sys.tasks.length
    · rw [if_pos inside]
    · rw [if_neg inside,getElem?_eq_none (Nat.le_of_not_lt inside)]
      cases fresh : i - sys.tasks.length with
      | zero => rfl
      | succ n => rfl

theorem advance_refines {sys : System} {task : Task} {i : Nat} (refines : Refines sys t) (found : sys.tasks[i]? = some task)
    (ran : advance now fresh sys.memory task.call task.phase = some (phase,memory,added))
    (follows : Follows t task.call phase memory added t') :
    Refines ⟨memory,sys.tasks.set i ⟨task.call,phase⟩,sys.log ++ added.toList.map (fun op => (some i,op))⟩ t' := by
  obtain ⟨moved,held,phaseHeld,committed⟩ := follows
  have inside : i < sys.tasks.length := (List.getElem?_eq_some_iff.mp found).1
  have sid : t'.session.id = t.session.id := by
    rcases moved with ⟨rfl,_⟩ | ⟨c,fired,_⟩
    · rfl
    · exact (Timeline.step_frame fired).1
  refine ⟨held,?_,?_,?_⟩
  · intro j other present
    rcases Slots.set_cases present with ⟨rfl,rfl⟩ | ⟨_,present⟩
    · rw [sid]
      exact ⟨(refines.tasks _ task found).1,phaseHeld⟩
    · obtain ⟨mine,before⟩ := refines.tasks j other present
      rw [sid]
      refine ⟨mine,?_⟩
      rcases moved with ⟨rfl,_⟩ | ⟨c,fired,_⟩
      · exact before
      · exact before.later sid (Timeline.step_frame fired).2.2.2
  · rw [map_append,refines.log,map_map]
    rcases moved with ⟨rfl,rfl⟩ | ⟨c,fired,log⟩
    · simp
    · rw [log]
      congr 1
      cases added with
      | none => rfl
      | some op => rfl
  · intro j
    rw [contributed_append,refines.mine j]
    unfold committedBy
    dsimp only
    rw [getElem?_set]
    by_cases same : i = j
    · subst same
      rw [if_pos rfl,if_pos rfl,if_pos inside,found]
      dsimp only
      rw [advance_uncommitted ran,committed,nil_append]
    · rw [if_neg (fun eq => same eq.symm),if_neg same,append_nil]

theorem step_refines (refines : Refines sys t) (present : Exists t.session.id sys e)
    (fired : step t.session.id sys e = some sys') :
    ∃ t', (t' = t ∨ ∃ c, Timeline.step t c = some t') ∧ Refines sys' t' := by
  cases e with
  | start call =>
    simp only [step] at fired
    split at fired
    · rename_i mine
      cases fired
      exact ⟨t,.inl rfl,start_refines refines mine⟩
    · cases fired
  | advance i now fresh =>
    simp only [step] at fired
    split at fired
    · cases fired
    · rename_i task found
      split at fired
      · cases fired
      · rename_i phase memory added ran
        cases fired
        obtain ⟨mine,phaseHeld⟩ := refines.tasks i task found
        obtain ⟨t',follows⟩ := advance_follows refines.memory mine phaseHeld (by
          intro left op copy same own
          simp only [Exists,found] at present
          obtain ⟨call,_⟩ := task
          cases same
          exact present own) ran
        refine ⟨t',?_,advance_refines refines found ran follows⟩
        rcases follows.1 with ⟨same,_⟩ | ⟨c,commits,_⟩
        · exact .inl same
        · exact .inr ⟨c,commits⟩

theorem run_refines (refines : Refines sys t)
    (present : Schedule.Along (step t.session.id) (Exists t.session.id) sys events)
    (ran : Schedule.run (step t.session.id) sys events = some sys') :
    ∃ commits t', Schedule.run Timeline.step t commits = some t' ∧ t'.session.id = t.session.id ∧ Refines sys' t' := by
  refine Schedule.run_simulates (motive := fun sys t' => t'.session.id = t.session.id ∧ Refines sys t') ?_ ⟨rfl,refines⟩
    present ran
  rintro sys t' e next ⟨same,refines⟩ present fired
  rw [← same] at present fired
  obtain ⟨t'',moved,refined⟩ := step_refines refines present fired
  refine ⟨t'',moved,?_,refined⟩
  rcases moved with rfl | ⟨c,commits⟩
  · exact same
  · exact (Timeline.step_frame commits).1.trans same

def begin (memory : MemoryState) (t : Timeline) : System := ⟨memory,[],t.log.map (fun op => (none,op))⟩

theorem begin_refines (existing : Existing memory t) : Refines (begin memory t) t := by
  refine ⟨existing.held,?_,?_,?_⟩
  · intro i task found
    cases found
  · simp [begin,map_map,Function.comp_def]
  · intro i
    simp [contributed,committedBy,begin,filter_map,Function.comp_def]

def joined : Timeline :=
  ⟨stamped 0 (Engine.join 0 (Engine.newSession 0 "s" .document "f" (Document.seedSnapshot none)) .document "u1" "Ann" none),[]⟩

def typing (text : Text) : Call := .submitOp "s" "u1" 0 .replace (Document.replacePayload ⟨0,0,text⟩) none

def racing : List Event :=
  [.start (typing ['a']),.start (typing ['b']),.advance 0 0 "x",.advance 1 0 "y",.advance 0 0 "x",.advance 1 0 "y",
   .advance 0 0 "x",.advance 1 0 "y",.advance 1 0 "y",.advance 1 0 "y",.advance 1 0 "y"]

end Ownly.Collab.Concurrent
