import Ownly.Collab.Concurrent
import Ownly.Lib.Slots

-- Joins of one file side by side on the memory map: which session they end up in.
namespace Ownly.Collab.OneSession
open Store
open Concurrent (Phase Task advance contention load saveCas_memory)
open List Option

structure System where
  memory : MemoryState
  tasks : List Task

inductive Event where
  | join (userId displayName : String) (seed : Option Value)
  | advance (task now : Nat) (fresh : String)

variable {kind : RoomKind} {fileId : String}

def step (kind : RoomKind) (fileId : String) (sys : System) : Event → Option System
  | .join userId displayName seed =>
    some {sys with tasks := sys.tasks ++ [⟨.join kind fileId userId displayName seed,.waiting casRetries⟩]}
  | .advance i now fresh =>
    match sys.tasks[i]? with
    | none => none
    | some task =>
      match advance now fresh sys.memory task.call task.phase with
      | none => none
      | some (phase,memory,_) => some ⟨memory,sys.tasks.set i ⟨task.call,phase⟩⟩

def result (now : Nat) : Call → Phase → Phase → List (String × CollabSession)
  | .join _ _ userId _ _,.computed _ _ copy,.done (.ok _) => [(userId,stamped now copy)]
  | _,_,_ => []

def returned (sys : System) (e : Event) (next : System) : List (String × CollabSession) :=
  match e with
  | .join _ _ _ => []
  | .advance i now _ =>
    match sys.tasks[i]?,next.tasks[i]? with
    | some before,some after => result now before.call before.phase after.phase
    | _,_ => []

def joined (kind : RoomKind) (fileId : String) (sys : System) (events : List Event) : List (String × CollabSession) :=
  Schedule.outputs (step kind fileId) returned sys events

def silent (now : Nat) (session : CollabSession) : Bool :=
  idle now session || session.participants.any (fun _ p => decide (participantTtlSecs < now - p.lastSeen))

def Lively (key : RoomKind × String) (now : Nat) (memory : MemoryState) : Prop :=
  memory.sessions.any (fun _ s => decide (fileKey s = key) && silent now s) = false

def Unrivalled (key : RoomKind × String) (sys : System) (task : Nat) : Prop :=
  match sys.tasks[task]? with
  | some ⟨_,.computed _ _ copy⟩ => copy.version = 0 → ∀ sid ∈ sys.memory.byFile.get key, sid = copy.id
  | _ => True

instance (key : RoomKind × String) (now : Nat) (memory : MemoryState) : Decidable (Lively key now memory) :=
  inferInstanceAs (Decidable (_ = false))

instance (key : RoomKind × String) (sys : System) (task : Nat) : Decidable (Unrivalled key sys task) := by
  unfold Unrivalled
  split
  · infer_instance
  · infer_instance

def Good (key : RoomKind × String) (sys : System) : Event → Prop
  | .join _ _ _ => True
  | .advance i now _ => Lively key now sys.memory ∧ Unrivalled key sys i

instance (key : RoomKind × String) (sys : System) : ∀ e, Decidable (Good key sys e)
  | .join _ _ _ => .isTrue trivial
  | .advance _ _ _ => inferInstanceAs (Decidable (_ ∧ _))

-- The map has one saved session of the file, indexed under it, or none.
structure OneFile (key : RoomKind × String) (memory : MemoryState) : Prop where
  keyed : ∀ sid session, memory.sessions.get sid = some session → session.id = sid
  owned : ∀ sid session, memory.sessions.get sid = some session → fileKey session = key →
    memory.byFile.get key = some sid ∧ 0 < session.version
  indexed : ∀ sid, memory.byFile.get key = some sid →
    ∃ session, memory.sessions.get sid = some session ∧ fileKey session = key

def Includes (session : CollabSession) (userId : String) : Prop := (session.participants.get userId).isSome = true

structure Copied (key : RoomKind × String) (memory : MemoryState) (copy : CollabSession) : Prop where
  file : fileKey copy = key
  source : copy.version = 0 ∨ ∃ session, memory.sessions.get copy.id = some session ∧ fileKey session = key ∧
    copy.version ≤ session.version ∧
    (copy.version = session.version → ∀ userId, Includes session userId → Includes copy userId)

def Works (key : RoomKind × String) (memory : MemoryState) (task : Task) : Prop :=
  ∃ userId displayName seed, task.call = .join key.1 key.2 userId displayName seed ∧
    match task.phase with
    | .loaded _ copy => Copied key memory copy
    | .computed _ _ copy => Copied key memory copy ∧ Includes copy userId
    | _ => True

def Returned (key : RoomKind × String) (memory : MemoryState) (userId sid : String) : Prop :=
  ∃ session, memory.sessions.get sid = some session ∧ fileKey session = key ∧ Includes session userId

structure Together (key : RoomKind × String) (results : List (String × CollabSession)) (sys : System) : Prop where
  one : OneFile key sys.memory
  tasks : ∀ (i : Nat) (task : Task), sys.tasks[i]? = some task → Works key sys.memory task
  results : ∀ userId session, (userId,session) ∈ results → Returned key sys.memory userId session.id

section Memory
variable {key : RoomKind × String} {memory memory' : MemoryState} {session copy : CollabSession} {now : Nat} {sid userId : String}
  {task : Task}

section
variable (lively : Lively key now memory) (found : memory.sessions.get sid = some session) (file : fileKey session = key)
include lively found file

theorem Lively.heard
    : idle now session = false ∧
      ∀ userId participant, session.participants.get userId = some participant →
        now - participant.lastSeen ≤ participantTtlSecs := by
  have heard : silent now session = false := by
    cases quiet : silent now session with
    | false => rfl
    | true =>
      have any : memory.sessions.any (fun _ s => decide (fileKey s = key) && silent now s) = true :=
        KeyMap.any_iff.mpr ⟨sid,session,found,Bool.and_eq_true_iff.mpr ⟨decide_eq_true file,quiet⟩⟩
      rw [show memory.sessions.any _ = false from lively] at any
      cases any
  obtain ⟨active,present⟩ := Bool.or_eq_false_iff.mp heard
  refine ⟨active,?_⟩
  intro userId participant found
  apply Nat.not_lt.mp
  intro late
  have any : session.participants.any (fun _ p => decide (participantTtlSecs < now - p.lastSeen)) = true :=
    KeyMap.any_iff.mpr ⟨userId,participant,found,decide_eq_true late⟩
  rw [present] at any
  cases any

theorem prune_get
    : (pruneMemory now memory).sessions.get sid = some (pruneParticipants now session) :=
  pruneMemory_live found (lively.heard found file).1

theorem prune_includes
    : Includes (pruneParticipants now session) userId ↔ Includes session userId := by
  unfold Includes
  simp only [pruneParticipants,KeyMap.get_retain]
  cases present : session.participants.get userId with
  | none => rfl
  | some participant =>
    have recent := (lively.heard found file).2 userId participant present
    simp [Option.filter,recent]

end

theorem prune_byFile (lively : Lively key now memory) : (pruneMemory now memory).byFile.get key = memory.byFile.get key := by
  have kept : memory.sessions.any (fun _ s => idle now s && decide (fileKey s = key)) = false := by
    cases any : memory.sessions.any (fun _ s => idle now s && decide (fileKey s = key)) with
    | false => rfl
    | true =>
      obtain ⟨sid,session,found,both⟩ := KeyMap.any_iff.mp any
      obtain ⟨gone,file⟩ := Bool.and_eq_true_iff.mp both
      rw [(lively.heard found (of_decide_eq_true file)).1] at gone
      cases gone
  simp only [pruneMemory,KeyMap.get_retain]
  cases memory.byFile.get key with
  | none => rfl
  | some sid => simp [Option.filter,kept]

theorem OneFile.prune (one : OneFile key memory) (lively : Lively key now memory) : OneFile key (pruneMemory now memory) := by
  refine ⟨?_,?_,?_⟩
  · intro sid session found
    obtain ⟨older,present,rfl⟩ := prune_found found
    exact one.keyed sid older present
  · intro sid session found file
    obtain ⟨older,present,rfl⟩ := prune_found found
    rw [prune_byFile lively]
    exact one.owned sid older present file
  · intro sid entry
    rw [prune_byFile lively] at entry
    obtain ⟨session,found,file⟩ := one.indexed sid entry
    exact ⟨_,prune_get lively found file,file⟩

theorem Copied.prune (copied : Copied key memory copy) (lively : Lively key now memory) :
    Copied key (pruneMemory now memory) copy := by
  refine ⟨copied.file,?_⟩
  rcases copied.source with fresh | ⟨session,found,file,older,covers⟩
  · exact .inl fresh
  · refine .inr ⟨_,prune_get lively found file,file,older,?_⟩
    intro same userId included
    exact covers same userId ((prune_includes lively found file).mp included)

theorem Returned.prune (returned : Returned key memory userId sid) (lively : Lively key now memory) :
    Returned key (pruneMemory now memory) userId sid := by
  obtain ⟨session,found,file,included⟩ := returned
  exact ⟨_,prune_get lively found file,file,(prune_includes lively found file).mpr included⟩

theorem Works.map (works : Works key memory task) (carry : ∀ copy, Copied key memory copy → Copied key memory' copy) :
    Works key memory' task := by
  obtain ⟨userId,displayName,seed,call,held⟩ := works
  refine ⟨userId,displayName,seed,call,?_⟩
  cases before : task.phase with
  | waiting left => trivial
  | loaded left copy =>
    rw [before] at held
    exact carry copy held
  | computed left added copy =>
    rw [before] at held
    exact ⟨carry copy held.1,held.2⟩
  | done result => trivial

theorem read_copied (one : OneFile key memory) (lively : Lively key now memory)
    (read : getByFile now .ok .ok ⟨none,memory⟩ key.1 key.2 = (some copy,stores)) :
    Copied key (pruneMemory now memory) copy := by
  simp only [getByFile,memoryGetByFile,bind_none,Prod.mk.injEq] at read
  obtain ⟨looked,_⟩ := read
  obtain ⟨sid,entry,found⟩ := bind_eq_some_iff.mp looked
  have one := one.prune lively
  obtain ⟨session,present,file⟩ := one.indexed sid entry
  rw [found] at present
  cases present
  refine ⟨file,.inr ⟨copy,?_,file,Nat.le_refl _,fun _ _ included => included⟩⟩
  rw [one.keyed sid copy found]
  exact found

theorem read_memory (now : Nat) (memory : MemoryState) (kind : RoomKind) (fileId : String) :
    (getByFile now .ok .ok ⟨none,memory⟩ kind fileId).2.memory = pruneMemory now memory := rfl

theorem join_copied (copied : Copied key memory copy) (now : Nat) (kind : RoomKind) (userId displayName : String)
    (seed : Option Value) :
    Copied key memory (Engine.join now copy kind userId displayName seed) ∧
      Includes (Engine.join now copy kind userId displayName seed) userId := by
  have kept : ∀ other, Includes copy other → Includes (Engine.join now copy kind userId displayName seed) other := by
    intro other included
    unfold Includes at included ⊢
    simp only [Engine.join,KeyMap.get_set]
    split
    · rfl
    · exact included
  refine ⟨⟨copied.file,?_⟩,?_⟩
  · rcases copied.source with fresh | ⟨session,found,file,older,covers⟩
    · exact .inl fresh
    · exact .inr ⟨session,found,file,older,fun same other included => kept other (covers same other included)⟩
  · unfold Includes
    simp only [Engine.join,KeyMap.get_set_self,isSome_some]

structure Saves (key : RoomKind × String) (memory : MemoryState) (copy : CollabSession) : Prop where
  alone : ∀ sid session, memory.sessions.get sid = some session → fileKey session = key → sid = copy.id
  covers : ∀ session, memory.sessions.get copy.id = some session → fileKey session = key →
    session.version = copy.version ∧ ∀ userId, Includes session userId → Includes copy userId

theorem save_saves (one : OneFile key memory) (lively : Lively key now memory) (copied : Copied key memory copy)
    (fresh : staleCopy now memory copy.id copy.version = false)
    (unrivalled : copy.version = 0 → ∀ sid ∈ memory.byFile.get key, sid = copy.id) :
    Saves key (pruneMemory now memory) copy := by
  have pruned := one.prune lively
  refine ⟨?_,?_⟩
  · intro sid session found file
    have entry := (pruned.owned sid session found file).1
    rcases copied.source with new | ⟨mine,present,own,_⟩
    · rw [prune_byFile lively] at entry
      exact unrivalled new sid entry
    · have entry' := (one.owned copy.id mine present own).1
      rw [prune_byFile lively,entry'] at entry
      exact (Option.some.inj entry).symm
  · intro session found file
    have version := fresh_version fresh found
    refine ⟨version,?_⟩
    rcases (copied.prune lively).source with new | ⟨mine,present,_,_,covers⟩
    · -- what the map holds has been saved at least once
      have saved := (pruned.owned copy.id session found file).2
      omega
    · rw [found] at present
      cases present
      exact covers version.symm

theorem Saves.one (saves : Saves key memory copy) (one : OneFile key memory) (file : fileKey copy = key) :
    OneFile key (insert memory (stamped now copy)) := by
  refine ⟨?_,?_,?_⟩
  · intro sid session found
    rw [Store.insert,KeyMap.get_set] at found
    split at found
    · rename_i same
      cases found
      exact same.symm
    · exact one.keyed sid session found
  · intro sid session found owns
    rw [Store.insert,KeyMap.get_set] at found
    rw [Store.insert,show fileKey (stamped now copy) = key from file,KeyMap.get_set_self]
    split at found
    · rename_i same
      cases found
      exact ⟨congrArg some same.symm,Nat.succ_pos _⟩
    · rename_i other
      exact absurd (saves.alone sid session found owns) other
  · intro sid entry
    rw [Store.insert,show fileKey (stamped now copy) = key from file,KeyMap.get_set_self] at entry
    cases entry
    exact ⟨_,KeyMap.get_set_self,file⟩

theorem Saves.copied {other : CollabSession} (saves : Saves key memory copy) (copied : Copied key memory other)
    (file : fileKey copy = key) : Copied key (insert memory (stamped now copy)) other := by
  refine ⟨copied.file,?_⟩
  rcases copied.source with fresh | ⟨session,found,own,older,_⟩
  · exact .inl fresh
  · have same := saves.alone other.id session found own
    rw [same] at found
    have version := (saves.covers session found own).1
    have newer : (stamped now copy).version = copy.version + 1 := rfl
    refine .inr ⟨stamped now copy,?_,file,by omega,fun equal => by omega⟩
    rw [same]
    exact KeyMap.get_set_self

theorem Saves.returned (saves : Saves key memory copy) (returned : Returned key memory userId sid) (file : fileKey copy = key) :
    Returned key (insert memory (stamped now copy)) userId sid := by
  obtain ⟨session,found,own,included⟩ := returned
  have same := saves.alone sid session found own
  rw [same] at found ⊢
  exact ⟨stamped now copy,KeyMap.get_set_self,file,(saves.covers session found own).2 userId included⟩

theorem saved_returned (file : fileKey copy = key) (included : Includes copy userId) :
    Returned key (insert memory (stamped now copy)) userId copy.id :=
  ⟨stamped now copy,KeyMap.get_set_self,file,included⟩

end Memory

section Steps
variable {key : RoomKind × String} {sys next : System} {task : Task} {i now : Nat} {results : List (String × CollabSession)}
  {memory : MemoryState} {phase : Phase}

section
variable (together : Together key results sys)
include together

theorem Together.moved (one : OneFile key memory)
    (carry : ∀ copy, Copied key sys.memory copy → Copied key memory copy)
    (kept : ∀ userId sid, Returned key sys.memory userId sid → Returned key memory userId sid)
    (works : Works key memory ⟨task.call,phase⟩) (more : ∀ userId session, (userId,session) ∈ added → Returned key memory userId session.id) :
    Together key (results ++ added) ⟨memory,sys.tasks.set i ⟨task.call,phase⟩⟩ := by
  refine ⟨one,?_,?_⟩
  · intro j other present
    rcases Slots.set_cases present with ⟨_,rfl⟩ | ⟨_,old⟩
    · exact works
    · exact (together.tasks j other old).map carry
  · intro userId session member
    rcases mem_append.mp member with old | new
    · exact kept userId session.id (together.results userId session old)
    · exact more userId session new

theorem Together.pruned (lively : Lively key now sys.memory)
    (works : Works key (pruneMemory now sys.memory) ⟨task.call,phase⟩) :
    Together key (results ++ []) ⟨pruneMemory now sys.memory,sys.tasks.set i ⟨task.call,phase⟩⟩ :=
  together.moved (together.one.prune lively) (fun _ copied => copied.prune lively)
    (fun _ _ returned => returned.prune lively) works (fun _ _ member => nomatch member)

theorem Together.still
    (works : Works key sys.memory ⟨task.call,phase⟩) :
    Together key (results ++ []) ⟨sys.memory,sys.tasks.set i ⟨task.call,phase⟩⟩ :=
  together.moved together.one (fun _ copied => copied) (fun _ _ returned => returned) works
    (fun _ _ member => nomatch member)

end

theorem returned_exact (found : sys.tasks[i]? = some task) :
    returned sys (.advance i now fresh) ⟨memory,sys.tasks.set i ⟨task.call,phase⟩⟩ = result now task.call task.phase phase := by
  obtain ⟨inside,_⟩ := List.getElem?_eq_some_iff.mp found
  dsimp only [returned]
  rw [found,getElem?_set_self inside]

theorem advance_together (together : Together key results sys) (found : sys.tasks[i]? = some task)
    (lively : Lively key now sys.memory) (unrivalled : Unrivalled key sys i)
    (ran : advance now fresh sys.memory task.call task.phase = some (phase,memory,op)) :
    Together key (results ++ result now task.call task.phase phase) ⟨memory,sys.tasks.set i ⟨task.call,phase⟩⟩ := by
  obtain ⟨userId,displayName,seed,call,held⟩ := together.tasks i task found
  cases before : task.phase with
  | waiting left =>
    rw [before,call] at ran
    cases left with
    | zero =>
      cases ran
      have silent : result now task.call (.waiting 0) (.done (.error (.conflict "join CAS contention"))) = [] := by
        rw [call]; rfl
      rw [contention,silent]
      exact together.still ⟨userId,displayName,seed,call,trivial⟩
    | succ left =>
      dsimp only [advance,load] at ran
      cases read : getByFile now .ok .ok ⟨none,sys.memory⟩ key.1 key.2 with
      | mk copy stores =>
        have pruned : stores.memory = pruneMemory now sys.memory := by
          rw [← read_memory now sys.memory key.1 key.2,read]
        rw [read] at ran
        cases copy with
        | some copy =>
          cases ran
          rw [pruned]
          have silent : result now task.call (.waiting (left + 1)) (.loaded left copy) = [] := by rw [call]; rfl
          rw [silent]
          exact together.pruned lively ⟨userId,displayName,seed,call,read_copied together.one lively read⟩
        | none =>
          cases ran
          rw [pruned]
          have silent : result now task.call (.waiting (left + 1)) (.loaded left (Engine.newSession now fresh key.1 key.2
              (Domain.seedSnapshot key.1 seed))) = [] := by rw [call]; rfl
          rw [silent]
          exact together.pruned lively ⟨userId,displayName,seed,call,⟨rfl,.inl rfl⟩⟩
  | loaded left copy =>
    rw [before] at held
    rw [before,call] at ran
    cases ran
    have silent : result now task.call (.loaded left copy)
        (.computed left none (Engine.join now copy key.1 userId displayName seed)) = [] := by rw [call]; rfl
    rw [silent]
    exact together.still ⟨userId,displayName,seed,call,join_copied held now key.1 userId displayName seed⟩
  | computed left added copy =>
    rw [before] at held ran
    dsimp only [advance] at ran
    rw [saveCas_memory] at ran
    obtain ⟨copied,included⟩ := held
    cases stale : staleCopy now sys.memory copy.id copy.version with
    | true =>
      rw [stale] at ran
      cases ran
      have silent : result now task.call (.computed left added copy) (.waiting left) = [] := by rw [call]; rfl
      rw [silent]
      exact together.pruned lively ⟨userId,displayName,seed,call,trivial⟩
    | false =>
      rw [stale] at ran
      cases ran
      have same : sys.tasks[i]? = some ⟨task.call,.computed left op copy⟩ := by rw [found,← before]
      rw [Unrivalled,same] at unrivalled
      have saves := save_saves together.one lively copied stale unrivalled
      have mine : result now task.call (.computed left op copy) (.done (.ok op)) = [(userId,stamped now copy)] := by
        rw [call]; rfl
      rw [mine]
      refine together.moved (saves.one (together.one.prune lively) copied.file) ?_ ?_
        ⟨userId,displayName,seed,call,trivial⟩ ?_
      · intro other copies
        exact saves.copied (copies.prune lively) copied.file
      · intro other sid returned
        exact saves.returned (returned.prune lively) copied.file
      · intro other session member
        cases mem_singleton.mp member
        exact saved_returned copied.file included
  | done result =>
    rw [before] at ran
    cases ran

theorem step_together (results : List (String × CollabSession)) (sys : System) (e : Event) (next : System)
    (together : Together key results sys) (good : Good key sys e) (fired : step key.1 key.2 sys e = some next) :
    Together key (results ++ returned sys e next) next := by
  cases e with
  | join userId displayName seed =>
    cases fired
    refine ⟨together.one,?_,?_⟩
    · intro j other present
      rcases Slots.append_cases present with ⟨_,rfl⟩ | old
      · exact ⟨userId,displayName,seed,rfl,trivial⟩
      · exact together.tasks j other old
    · intro userId session member
      rcases mem_append.mp member with old | new
      · exact together.results userId session old
      · cases new
  | advance i now fresh =>
    dsimp only [step] at fired
    cases found : sys.tasks[i]? with
    | none =>
      rw [found] at fired
      cases fired
    | some task =>
      rw [found] at fired
      dsimp only at fired
      cases ran : advance now fresh sys.memory task.call task.phase with
      | none =>
        rw [ran] at fired
        cases fired
      | some outcome =>
        obtain ⟨phase,memory,op⟩ := outcome
        rw [ran] at fired
        cases fired
        rw [returned_exact found]
        exact advance_together together found good.1 good.2 ran

-- All joins end up in one session, and whoever looks for the file finds it.
theorem one_session {key : RoomKind × String} {memory : MemoryState} (start : OneFile key memory)
    (good : Schedule.Along (step key.1 key.2) (Good key) ⟨memory,[]⟩ events)
    (ran : Schedule.run (step key.1 key.2) ⟨memory,[]⟩ events = some sys) (lively : Lively key now sys.memory) :
    (∀ a ∈ joined key.1 key.2 ⟨memory,[]⟩ events,∀ b ∈ joined key.1 key.2 ⟨memory,[]⟩ events,a.2.id = b.2.id) ∧
      ∀ a ∈ joined key.1 key.2 ⟨memory,[]⟩ events,∃ session,
        (getByFile now .ok .ok ⟨none,sys.memory⟩ key.1 key.2).1 = some session ∧ session.id = a.2.id ∧
          Includes session a.1 := by
  have begins : Together key [] ⟨memory,[]⟩ :=
    ⟨start,fun _ _ found => (nomatch found),fun _ _ member => (nomatch member)⟩
  have together : Together key (joined key.1 key.2 ⟨memory,[]⟩ events) sys :=
    Schedule.run_outputs step_together begins good ran
  refine ⟨?_,?_⟩
  · intro a first b second
    obtain ⟨session,found,file,_⟩ := together.results a.1 a.2 first
    obtain ⟨session',found',file',_⟩ := together.results b.1 b.2 second
    have entry := (together.one.owned a.2.id session found file).1
    rw [(together.one.owned b.2.id session' found' file').1] at entry
    exact (Option.some.inj entry).symm
  · intro a member
    obtain ⟨session,found,file,included⟩ := (together.results a.1 a.2 member).prune lively
    have one := together.one.prune lively
    refine ⟨session,?_,one.keyed a.2.id session found,included⟩
    simp only [getByFile,memoryGetByFile,bind_none]
    rw [(one.owned a.2.id session found file).1]
    exact found

end Steps

def opened (overlap : Bool) : List Event :=
  let begins : List Event := [.join "u1" "A" none,.join "u2" "B" none]
  let first : List Event := [.advance 0 10 "s1",.advance 0 10 "s1"]
  let second : List Event := [.advance 1 11 "s2",.advance 1 11 "s2"]
  begins ++ first ++ if overlap then second ++ [.advance 0 12 "s1",.advance 1 12 "s2"] else
    [.advance 0 12 "s1"] ++ second ++ [.advance 1 12 "s2"]

def unopened : System := ⟨MemoryState.empty,[]⟩

def joinedIds (overlap : Bool) : List (String × String) :=
  (joined .document "f" unopened (opened overlap)).map (fun r => (r.1,r.2.id))

def found (sys : System) : Option (String × Bool × Bool) :=
  (getByFile 13 .ok .ok ⟨none,sys.memory⟩ .document "f").1.map
    (fun s => (s.id,s.participants.contains "u1",s.participants.contains "u2"))

def shown (overlap : Bool) : Option (Option (String × Bool × Bool) × Bool) :=
  (Schedule.run (step .document "f") unopened (opened overlap)).map
    (fun sys => (found sys,decide (Lively (.document,"f") 13 sys.memory)))

theorem unopened_one (key : RoomKind × String) : OneFile key unopened.memory :=
  ⟨fun _ _ found => (nomatch found),fun _ _ found => (nomatch found),fun _ found => (nomatch found)⟩

theorem one_session_opened : joinedIds false = [("u1","s1"),("u2","s1")] ∧
    ∃ sys, Schedule.run (step .document "f") unopened (opened false) = some sys ∧ found sys = some ("s1",true,true) ∧
      ∀ a ∈ joined .document "f" unopened (opened false),∃ session,
        (getByFile 13 .ok .ok ⟨none,sys.memory⟩ .document "f").1 = some session ∧ session.id = a.2.id ∧
          Includes session a.1 := by
  obtain ⟨sys,ran,seen⟩ := map_eq_some_iff.mp (by decide +kernel : shown false = some (some ("s1",true,true),true))
  obtain ⟨looked,lively⟩ := Prod.mk.inj seen
  have good : Schedule.Along (step .document "f") (Good (.document,"f")) unopened (opened false) := by decide +kernel
  exact ⟨by decide +kernel,sys,ran,looked,
    (one_session (unopened_one (.document,"f")) good ran (of_decide_eq_true lively)).2⟩

theorem two_sessions : joinedIds true = [("u1","s1"),("u2","s2")] ∧
    ∃ sys, Schedule.run (step .document "f") unopened (opened true) = some sys ∧ found sys = some ("s2",false,true) := by
  obtain ⟨sys,ran,seen⟩ := map_eq_some_iff.mp (by decide +kernel : shown true = some (some ("s2",false,true),true))
  exact ⟨by decide +kernel,sys,ran,(Prod.mk.inj seen).1⟩

end Ownly.Collab.OneSession
