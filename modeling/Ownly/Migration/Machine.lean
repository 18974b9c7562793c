import Ownly.Migration.Run
import Ownly.Lib.Schedule

-- Runs under start and cancel requests, workers and restarts of the API, taken apart into
-- their statements.
namespace Ownly.Migration.Machine
open List Option KeyMap

structure StartRequest where
  kind : RunKind
  nodeId : Option String
  keyPrefix : String
  totalTarget : Nat
  deriving DecidableEq, Repr

inductive Starting where
  | checking (request : StartRequest)
  | inserting (request : StartRequest)
  | spawning (runId : String)
  deriving DecidableEq, Repr

-- The statement run_storage_migration_worker is at: once it looks at the flag, with the
-- run that it holds.
inductive Phase where
  | clearing
  | fetching
  | loading (held : Run)
  | looking (held : Run)
  | reading (held : Run)
  | beginning (held : Run)
  | batching (held : Run) (nodeId : String)
  | persisting (held : Run) (failed : Nat)
  | finishing (ending : Ending)

structure Worker where
  runId : String
  phase : Phase

inductive Cancelling where
  | fetching
  | signalling
  | updating
  | returning
  deriving DecidableEq, Repr

structure CancelRequest where
  runId : String
  phase : Cancelling
  deriving DecidableEq, Repr

-- resume_running_storage_migrations, which the API waits for before it serves requests.
inductive Boot where
  | recovering
  | listing
  | spawning (runIds : List String)
  deriving DecidableEq, Repr

-- `flag` is the coordinator's. The lists are the history of the cancel requests made, of
-- those that have returned, and of the batches started.
structure System where
  runs : KeyMap String Run
  flag : Bool
  starts : KeyMap Nat Starting
  workers : KeyMap Nat Worker
  cancels : KeyMap Nat CancelRequest
  boot : Option Boot
  named : List String
  returned : List String
  batches : List String

-- What a worker's statement comes back with: whether it goes through, whether the node
-- is among those loaded, and what the call returns, if it does within its time.
structure Reply where
  goes : Bool
  known : Bool
  result : Option (Except AppError Report)

inductive Event where
  | start (key : Nat) (request : StartRequest)
  | check (key : Nat)
  | insert (key : Nat) (registry : Registry) (runId : String)
  | spawn (key worker : Nat)
  | abandon (key : Nat)
  | work (worker : Nat) (reply : Reply)
  | cancel (key : Nat) (runId : String)
  | proceed (key : Nat) (goes : Bool)
  | restart
  | recover (stale : List String)
  | list (goes : Bool)
  | resume (worker : Nat)

def anyRunning (runs : KeyMap String Run) : Bool := runs.any (fun _ run => decide (run.status = .running))

def System.at (sys : System) (key : Nat) (worker : Worker) (phase : Phase) : System :=
  {sys with workers := sys.workers.set key {worker with phase := phase}}

def System.gone (sys : System) (key : Nat) : System := {sys with workers := sys.workers.remove key}

def System.write (sys : System) (goes : Bool) (runId : String) (change : Run → Run) : System :=
  if goes then {sys with runs := sys.runs.modify runId change} else sys

def isRunCancelled (sys : System) (runId : String) : Bool := (sys.runs.get runId).any (fun run => decide (run.status = .cancelled))

def batchTimeoutMessage (nodeId : String) : String :=
  "Migration batch timed out after 4620s on node " ++ nodeId ++ ". Nebular may be stuck on a large object or the storage volume may be full. " ++
    "Check object-storage logs and disk space, cancel this run, then retry."

def errorEnding (message : String) : Ending := ⟨.error,none,some message⟩

def cancelEnding : Ending := ⟨.cancelled,none,none⟩

def work (sys : System) (key : Nat) (worker : Worker) (reply : Reply) : System :=
  match worker.phase with
  | .clearing => {sys with flag := false}.at key worker .fetching
  | .fetching =>
    match if reply.goes then sys.runs.get worker.runId else none with
    | none => sys.gone key
    | some run =>
      if run.progress.nodeIds.isEmpty then sys.at key worker (.finishing (errorEnding "No storage nodes configured for migration."))
      else sys.at key worker (.loading run)
  | .loading held =>
    match reply.result with
    | some (.error e) => sys.at key worker (.finishing (errorEnding (describe e)))
    | _ => sys.at key worker (.looking held)
  | .looking held =>
    if held.current.isNone then sys.at key worker (.finishing held.conclusion)
    else if sys.flag then sys.at key worker (.finishing cancelEnding)
    else sys.at key worker (.reading held)
  | .reading held =>
    if reply.goes && isRunCancelled sys worker.runId then sys.at key worker (.finishing cancelEnding)
    else sys.at key worker (.beginning held)
  | .beginning held =>
    match held.current with
    | none => sys.at key worker (.looking held)
    | some nodeId =>
      if reply.known then {sys with batches := sys.batches ++ [worker.runId]}.at key worker (.batching held nodeId)
      else sys.at key worker (.looking {held with progress := held.progress.leave nodeId})
  | .batching held nodeId =>
    match reply.result with
    | none => sys.at key worker (.finishing ⟨.error,some held.totalTarget,some (batchTimeoutMessage nodeId)⟩)
    | some (.error e) => sys.at key worker (.finishing (errorEnding (describe e)))
    | some (.ok report) => sys.at key worker (.persisting (held.add nodeId report) report.failed)
  | .persisting held failed =>
    (sys.write reply.goes worker.runId (updateRunCounts held)).at key worker
      (if !held.dryRun && decide (0 < failed) then .finishing ⟨.error,some held.totalTarget,some failedMessage⟩ else .looking held)
  | .finishing ending => (sys.write reply.goes worker.runId ending.write).gone key

def cancelRun (run : Run) : Run := {run with status := .cancelled}

def System.turn (sys : System) (key : Nat) (request : CancelRequest) (phase : Cancelling) : System :=
  {sys with cancels := sys.cancels.set key {request with phase := phase}}

def System.answered (sys : System) (key : Nat) : System := {sys with cancels := sys.cancels.remove key}

def proceed (sys : System) (key : Nat) (request : CancelRequest) (goes : Bool) : System :=
  match request.phase with
  | .fetching =>
    if goes && (sys.runs.get request.runId).any (fun run => decide (run.status = .running)) then sys.turn key request .signalling
    else sys.answered key
  | .signalling => {sys with flag := true}.turn key request .updating
  | .updating => if goes then (sys.write true request.runId cancelRun).turn key request .returning else sys.answered key
  | .returning => {sys with returned := request.runId :: sys.returned}.answered key

def step (sys : System) : Event → Option System
  | .start key request =>
    if sys.boot.isSome || sys.starts.contains key then none else some {sys with starts := sys.starts.set key (.checking request)}
  | .check key =>
    match sys.starts.get key with
    | some (.checking request) =>
      if anyRunning sys.runs then some {sys with starts := sys.starts.remove key}
      else some {sys with starts := sys.starts.set key (.inserting request)}
    | _ => none
  | .insert key registry runId =>
    match sys.starts.get key with
    | some (.inserting request) =>
      match spawnRun registry request.kind request.nodeId request.keyPrefix request.totalTarget with
      | .error _ => some {sys with starts := sys.starts.remove key}
      | .ok run =>
        if sys.runs.contains runId then none
        else some {sys with runs := sys.runs.set runId run,starts := sys.starts.set key (.spawning runId)}
    | _ => none
  | .spawn key worker =>
    match sys.starts.get key with
    | some (.spawning runId) =>
      if sys.workers.contains worker then none
      else some {sys with starts := sys.starts.remove key,workers := sys.workers.set worker ⟨runId,.clearing⟩}
    | _ => none
  | .abandon key => (sys.starts.get key).map (fun _ => {sys with starts := sys.starts.remove key})
  | .work key reply => (sys.workers.get key).map (fun worker => work sys key worker reply)
  | .cancel key runId =>
    if sys.boot.isSome || sys.cancels.contains key then none
    else some {sys with cancels := sys.cancels.set key ⟨runId,.fetching⟩,named := runId :: sys.named}
  | .proceed key goes => (sys.cancels.get key).map (fun request => proceed sys key request goes)
  | .restart => some {sys with
      flag := false,starts := KeyMap.empty,workers := KeyMap.empty,cancels := KeyMap.empty,boot := some .recovering}
  | .recover stale =>
    if sys.boot = some .recovering then
      some {sys with
        runs := sys.runs.mapEntries (fun id run => if run.status = .running ∧ id ∈ stale then stall run else run)
        boot := some .listing}
    else none
  | .list goes =>
    if sys.boot = some .listing then
      let running := (sys.runs.entries.filter (fun entry => decide (entry.2.status = .running))).map Sigma.fst
      some {sys with boot := some (.spawning (if goes then running else []))}
    else none
  | .resume worker =>
    match sys.boot with
    | some (.spawning []) => some {sys with boot := none}
    | some (.spawning (runId :: rest)) =>
      if sys.workers.contains worker then none
      else some {sys with workers := sys.workers.set worker ⟨runId,.clearing⟩,boot := some (.spawning rest)}
    | _ => none

def empty : System := ⟨KeyMap.empty,false,KeyMap.empty,KeyMap.empty,KeyMap.empty,none,[],[],[]⟩

def OneRunning (sys : System) : Prop :=
  ∀ id other run run', sys.runs.get id = some run → sys.runs.get other = some run' → run.status = .running → run'.status = .running → id = other

def CancelledNamed (sys : System) : Prop := ∀ id run, sys.runs.get id = some run → run.status = .cancelled → id ∈ sys.named

structure Lasting (sys later : System) : Prop where
  returned : ∀ id ∈ sys.returned, id ∈ later.returned
  terminal : ∀ id run, sys.runs.get id = some run → run.status.terminal = true → ∃ run', later.runs.get id = some run' ∧ run'.status = run.status
  batches : ∀ id ∈ sys.returned, later.batches.count id = sys.batches.count id

structure Orderly (events : List Event) (final : System) : Prop where
  one : OneRunning final
  named : CancelledNamed final
  lasting : ∀ left right middle, events = left ++ right → Schedule.run step empty left = some middle → Lasting middle final

def statusOf (sys : System) (runId : String) : Option RunStatus := (sys.runs.get runId).map Run.status

def Worker.beginning (worker : Worker) : Bool :=
  match worker.phase with
  | .beginning _ => true
  | _ => false

-- What a worker may meet: the flag set by a cancel of its own run, a readable row where
-- a cancel has returned, and at its end a row that is running, or as it is to be.
def Worker.Cared (sys : System) (worker : Worker) (reply : Reply) : Prop :=
  match worker.phase with
  | .looking held => held.current.isSome = true → sys.flag = true → worker.runId ∈ sys.named
  | .reading _ => worker.runId ∈ sys.returned → reply.goes = true
  | .finishing ending => reply.goes = true → ∀ status ∈ statusOf sys worker.runId,status = .running ∨ status = ending.status
  | _ => True

def CancelRequest.Cared (sys : System) (request : CancelRequest) (goes : Bool) : Prop :=
  match request.phase with
  | .updating => goes = true → ∀ status ∈ statusOf sys request.runId,status = .running ∨ status = .cancelled
  | .returning => sys.workers.any (fun _ worker => decide (worker.runId = request.runId) && worker.beginning) = false
  | _ => True

instance (sys : System) (worker : Worker) (reply : Reply) : Decidable (worker.Cared sys reply) :=
  match at_ : worker.phase with
  | .looking held => decidable_of_iff (held.current.isSome = true → sys.flag = true → worker.runId ∈ sys.named)
      (by rw [Worker.Cared,at_])
  | .reading _ => decidable_of_iff (worker.runId ∈ sys.returned → reply.goes = true) (by rw [Worker.Cared,at_])
  | .finishing ending => decidable_of_iff
      (reply.goes = true → ∀ status ∈ statusOf sys worker.runId,status = .running ∨ status = ending.status) (by rw [Worker.Cared,at_])
  | .clearing => .isTrue (by rw [Worker.Cared,at_]; trivial)
  | .fetching => .isTrue (by rw [Worker.Cared,at_]; trivial)
  | .loading _ => .isTrue (by rw [Worker.Cared,at_]; trivial)
  | .beginning _ => .isTrue (by rw [Worker.Cared,at_]; trivial)
  | .batching _ _ => .isTrue (by rw [Worker.Cared,at_]; trivial)
  | .persisting _ _ => .isTrue (by rw [Worker.Cared,at_]; trivial)

instance (sys : System) (request : CancelRequest) (goes : Bool) : Decidable (request.Cared sys goes) :=
  match at_ : request.phase with
  | .updating => decidable_of_iff (goes = true → ∀ status ∈ statusOf sys request.runId,status = .running ∨ status = .cancelled)
      (by rw [CancelRequest.Cared,at_])
  | .returning => decidable_of_iff (sys.workers.any (fun _ worker => decide (worker.runId = request.runId) && worker.beginning) = false)
      (by rw [CancelRequest.Cared,at_])
  | .fetching => .isTrue (by rw [CancelRequest.Cared,at_]; trivial)
  | .signalling => .isTrue (by rw [CancelRequest.Cared,at_]; trivial)

-- A row is inserted while no other one is running; workers and cancels meet what they may.
def Cared (sys : System) : Event → Prop
  | .insert _ _ _ => anyRunning sys.runs = false
  | .work key reply => ∀ worker ∈ sys.workers.get key,worker.Cared sys reply
  | .proceed key goes => ∀ request ∈ sys.cancels.get key,request.Cared sys goes
  | _ => True

instance (sys : System) : (event : Event) → Decidable (Cared sys event)
  | .insert _ _ _ => inferInstanceAs (Decidable (_ = _))
  | .work _ _ => inferInstanceAs (Decidable (∀ worker ∈ _,_))
  | .proceed _ _ => inferInstanceAs (Decidable (∀ request ∈ _,_))
  | .start _ _ => .isTrue trivial
  | .check _ => .isTrue trivial
  | .spawn _ _ => .isTrue trivial
  | .abandon _ => .isTrue trivial
  | .cancel _ _ => .isTrue trivial
  | .restart => .isTrue trivial
  | .recover _ => .isTrue trivial
  | .list _ => .isTrue trivial
  | .resume _ => .isTrue trivial

structure Sound (sys : System) : Prop where
  one : OneRunning sys
  named : CancelledNamed sys
  asked : ∀ key request, sys.cancels.get key = some request → request.runId ∈ sys.named ∧
    (request.phase ≠ .fetching → (sys.runs.get request.runId).isSome = true) ∧
    (request.phase = .returning → statusOf sys request.runId = some .cancelled)
  ending : ∀ key worker ending, sys.workers.get key = some worker → worker.phase = .finishing ending →
    ending.status.terminal = true ∧ (ending.status = .cancelled → worker.runId ∈ sys.named)
  returned : ∀ id ∈ sys.returned, statusOf sys id = some .cancelled ∧
    ∀ key worker, sys.workers.get key = some worker → worker.runId = id → worker.beginning = false

section Rows
variable {sys next later : System} {id runId : String} {run : Run} {key : Nat} {worker : Worker} {phase : Phase} {change : Run → Run}
  {status : RunStatus} {runs : KeyMap String Run}

theorem Lasting.refl (sys : System) : Lasting sys sys :=
  ⟨fun _ member => member,fun _ run present _ => ⟨run,present,rfl⟩,fun _ _ => rfl⟩

theorem Lasting.trans (one : Lasting sys next) (other : Lasting next later) : Lasting sys later := by
  refine ⟨fun id member => other.returned id (one.returned id member),fun id run present terminal => ?_,fun id member => ?_⟩
  · obtain ⟨run',there,same⟩ := one.terminal id run present terminal
    obtain ⟨run'',there',same'⟩ := other.terminal id run' there (by rw [same]; exact terminal)
    exact ⟨run'',there',same'.trans same⟩
  · exact (other.batches id (one.returned id member)).trans (one.batches id member)

theorem statusOf_some : statusOf sys id = some status ↔ ∃ run, sys.runs.get id = some run ∧ run.status = status := map_eq_some_iff

theorem lasting_same (runs : next.runs = sys.runs) (returned : next.returned = sys.returned) (batches : next.batches = sys.batches) :
    Lasting sys next :=
  ⟨fun id member => by rw [returned]; exact member,fun id run present _ => ⟨run,by rw [runs]; exact present,rfl⟩,
    fun id _ => by rw [batches]⟩

structure Turns (before after_ : KeyMap String Run) : Prop where
  kept : ∀ id run, before.get id = some run → ∃ run', after_.get id = some run' ∧
    (run'.status = run.status ∨ (run.status = .running ∧ run'.status.terminal = true))
  old : ∀ id run', after_.get id = some run' → ∃ run, before.get id = some run

section
variable (turns : Turns sys.runs runs)
include turns

theorem Turns.lasting (same : next.runs = runs) (returned : ∀ id ∈ sys.returned, id ∈ next.returned)
    (batches : ∀ id ∈ sys.returned, next.batches.count id = sys.batches.count id) : Lasting sys next := by
  refine ⟨returned,fun id run present terminal => ?_,batches⟩
  obtain ⟨run',there,kept | ⟨running,_⟩⟩ := turns.kept id run present
  · exact ⟨run',by rw [same]; exact there,kept⟩
  · rw [running] at terminal
    cases terminal

theorem Turns.running (present : runs.get id = some run) (running : run.status = .running) :
    ∃ before, sys.runs.get id = some before ∧ before.status = .running := by
  obtain ⟨before,there⟩ := turns.old id run present
  obtain ⟨after_,same,kept | ⟨_,terminal⟩⟩ := turns.kept id before there
  · rw [present] at same
    cases same
    exact ⟨before,there,kept.symm.trans running⟩
  · rw [present] at same
    cases same
    rw [running] at terminal
    cases terminal

theorem Turns.one (one : OneRunning sys) : OneRunning {sys with runs := runs} := by
  intro id other run run' present present' running running'
  obtain ⟨before,there,was⟩ := turns.running present running
  obtain ⟨before',there',was'⟩ := turns.running present' running'
  exact one id other before before' there there' was was'

theorem Turns.cancelled (cancelled : statusOf sys id = some .cancelled) :
    statusOf {sys with runs := runs} id = some .cancelled := by
  obtain ⟨run,present,status⟩ := statusOf_some.mp cancelled
  obtain ⟨run',there,kept | ⟨running,_⟩⟩ := turns.kept id run present
  · exact statusOf_some.mpr ⟨run',there,kept.trans status⟩
  · rw [running] at status
    cases status

theorem Turns.isSome (some_ : (sys.runs.get id).isSome = true) : (runs.get id).isSome = true := by
  obtain ⟨run,present⟩ := isSome_iff_exists.mp some_
  obtain ⟨run',there,_⟩ := turns.kept id run present
  rw [there]
  rfl

end

theorem modify_turns (fits : ∀ run, sys.runs.get runId = some run →
    (change run).status = run.status ∨ (run.status = .running ∧ (change run).status.terminal = true)) :
    Turns sys.runs (sys.runs.modify runId change) := by
  constructor
  · intro id run present
    rw [KeyMap.modify,get_mapEntries,present,map_some]
    refine ⟨_,rfl,?_⟩
    split
    · rename_i same
      subst same
      exact fits run present
    · exact .inl rfl
  · intro id run' present
    rw [KeyMap.modify,get_mapEntries] at present
    obtain ⟨run,there,_⟩ := map_eq_some_iff.mp present
    exact ⟨run,there⟩

theorem turns_sound (sound : Sound sys) (turns : Turns sys.runs runs)
    (named : ∀ id run, runs.get id = some run → run.status = .cancelled → id ∈ sys.named) : Sound {sys with runs := runs} := by
  refine ⟨turns.one sound.one,named,fun key request held => ?_,sound.ending,fun id member => ?_⟩
  · obtain ⟨asked,there,returning⟩ := sound.asked key request held
    exact ⟨asked,fun later => turns.isSome (there later),fun later => turns.cancelled (returning later)⟩
  · obtain ⟨cancelled,quiet⟩ := sound.returned id member
    exact ⟨turns.cancelled cancelled,quiet⟩

end Rows

section Workers
variable {sys next : System} {key : Nat} {worker : Worker} {phase : Phase} {reply : Reply} {ending : Ending} {held : Run}

theorem conclusion_terminal (held : Run) : held.conclusion.status.terminal = true ∧ held.conclusion.status ≠ .cancelled := by
  unfold Run.conclusion
  split
  · exact ⟨rfl,fun same => by cases same⟩
  · split
    · exact ⟨rfl,fun same => by cases same⟩
    · exact ⟨rfl,fun same => by cases same⟩

theorem turn_sound (sound : Sound sys) (quiet : Worker.beginning ⟨worker.runId,phase⟩ = true → worker.runId ∉ sys.returned)
    (ends : ∀ ending, phase = .finishing ending → ending.status.terminal = true ∧ (ending.status = .cancelled → worker.runId ∈ sys.named)) :
    Sound (sys.at key worker phase) := by
  have before : ∀ other found, (sys.workers.set key {worker with phase := phase}).get other = some found →
      found = {worker with phase := phase} ∨ sys.workers.get other = some found := by
    intro other found there
    rw [get_set] at there
    split at there
    · cases there
      exact .inl rfl
    · exact .inr there
  refine ⟨sound.one,sound.named,sound.asked,fun other found ending there at_ => ?_,fun id member => ⟨(sound.returned id member).1,?_⟩⟩
  · rcases before other found there with rfl | old
    · exact ends ending at_
    · exact sound.ending other found ending old at_
  · intro other found there about
    rcases before other found there with rfl | old
    · cases here : Worker.beginning {worker with phase := phase} with
      | false => rfl
      | true => exact absurd (about ▸ member) (quiet here)
    · exact (sound.returned id member).2 other found old about

theorem gone_sound (sound : Sound sys) : Sound (sys.gone key) := by
  have before : ∀ other found, (sys.workers.remove key).get other = some found → sys.workers.get other = some found := by
    intro other found there
    by_cases same : other = key
    · rw [same,get_remove_self] at there
      cases there
    · exact (get_remove_ne same).symm.trans there
  exact ⟨sound.one,sound.named,sound.asked,fun other found ending there at_ => sound.ending other found ending (before other found there) at_,
    fun id member => ⟨(sound.returned id member).1,fun other found there about => (sound.returned id member).2 other found (before other found there) about⟩⟩

theorem ends_other (other : ending.status ≠ .cancelled) (terminal : ending.status.terminal = true) :
    ∀ ending', Phase.finishing ending = .finishing ending' →
      ending'.status.terminal = true ∧ (ending'.status = .cancelled → worker.runId ∈ sys.named) := by
  intro ending' same
  cases same
  exact ⟨terminal,fun cancelled => absurd cancelled other⟩

section
variable (sound : Sound sys)
include sound

theorem at_kept (still : Worker.beginning ⟨worker.runId,phase⟩ = false)
    (ends : ∀ ending, phase = .finishing ending → ending.status.terminal = true ∧ (ending.status = .cancelled → worker.runId ∈ sys.named)) :
    Sound (sys.at key worker phase) ∧ Lasting sys (sys.at key worker phase) :=
  ⟨turn_sound sound (fun here => by rw [still] at here; cases here) ends,lasting_same rfl rfl rfl⟩

theorem looking_kept (at_ : worker.phase = .looking held)
    (cared : worker.Cared sys reply) : Sound (work sys key worker reply) ∧ Lasting sys (work sys key worker reply) := by
  rw [Worker.Cared,at_] at cared
  rw [work,at_]
  dsimp only
  split
  · obtain ⟨terminal,other⟩ := conclusion_terminal held
    exact at_kept sound rfl (ends_other other terminal)
  · rename_i more
    split
    · rename_i flag
      have named : worker.runId ∈ sys.named := cared (isSome_iff_ne_none.mpr (fun none_ => more (isNone_iff_eq_none.mpr none_))) flag
      exact at_kept sound rfl (fun ending same => by cases same; exact ⟨rfl,fun _ => named⟩)
    · exact at_kept sound rfl (fun ending same => by cases same)

theorem reading_kept (at_ : worker.phase = .reading held) (cared : worker.Cared sys reply) :
    Sound (work sys key worker reply) ∧ Lasting sys (work sys key worker reply) := by
  rw [Worker.Cared,at_] at cared
  rw [work,at_]
  dsimp only
  split
  · rename_i cancelled
    rw [Bool.and_eq_true,isRunCancelled,Option.any_eq_true] at cancelled
    obtain ⟨run,present,status⟩ := cancelled.2
    have named := sound.named worker.runId run present (of_decide_eq_true status)
    exact at_kept sound rfl (fun ending same => by cases same; exact ⟨rfl,fun _ => named⟩)
  · rename_i passed
    refine ⟨turn_sound sound (fun _ member => passed ?_) (fun ending same => by cases same),lasting_same rfl rfl rfl⟩
    obtain ⟨run,present,status⟩ := statusOf_some.mp (sound.returned worker.runId member).1
    rw [cared member,Bool.true_and,isRunCancelled,Option.any_eq_true]
    exact ⟨run,present,decide_eq_true status⟩

theorem beginning_kept (present : sys.workers.get key = some worker) (at_ : worker.phase = .beginning held) :
    Sound (work sys key worker reply) ∧ Lasting sys (work sys key worker reply) := by
  have free : worker.runId ∉ sys.returned := by
    intro member
    have quiet := (sound.returned worker.runId member).2 key worker present rfl
    rw [Worker.beginning,at_] at quiet
    cases quiet
  rw [work,at_]
  dsimp only
  split
  · exact at_kept sound rfl (fun ending same => by cases same)
  · rename_i nodeId current
    split
    · have still : Sound (sys.at key worker (.batching held nodeId)) :=
        turn_sound sound (fun here => by cases here) (fun ending same => by cases same)
      refine ⟨⟨still.one,still.named,still.asked,still.ending,still.returned⟩,fun id member => member,fun id run there _ => ⟨run,there,rfl⟩,
        fun id member => ?_⟩
      have other : worker.runId ≠ id := by
        rintro rfl
        exact free member
      change (sys.batches ++ [worker.runId]).count id = _
      rw [count_append,count_singleton]
      simp [other]
    · exact at_kept sound rfl (fun ending same => by cases same)

theorem persisting_kept {failed : Nat} (at_ : worker.phase = .persisting held failed) :
    Sound (work sys key worker reply) ∧ Lasting sys (work sys key worker reply) := by
  have turns : Turns sys.runs (sys.runs.modify worker.runId (updateRunCounts held)) := modify_turns (fun _ _ => .inl rfl)
  have named : ∀ id run, (sys.runs.modify worker.runId (updateRunCounts held)).get id = some run → run.status = .cancelled → id ∈ sys.named := by
    intro id run present status
    obtain ⟨before,there⟩ := turns.old id run present
    obtain ⟨after_,same,kept | ⟨_,_⟩⟩ := turns.kept id before there
    · rw [present] at same
      cases same
      exact sound.named id before there (kept.symm.trans status)
    · rw [KeyMap.modify,get_mapEntries,there] at present
      have own : run.status = before.status := by
        cases present
        dsimp only
        split <;> rfl
      exact sound.named id before there (own.symm.trans status)
  have written : Sound (sys.write reply.goes worker.runId (updateRunCounts held)) ∧
      Lasting sys (sys.write reply.goes worker.runId (updateRunCounts held)) := by
    unfold System.write
    split
    · exact ⟨turns_sound sound turns named,turns.lasting rfl (fun _ member => member) (fun _ _ => rfl)⟩
    · exact ⟨sound,.refl sys⟩
  rw [work,at_]
  dsimp only
  split
  · have kept := written.1
    exact ⟨(at_kept kept rfl (ends_other (fun same => by cases same) rfl)).1,
      written.2.trans (at_kept kept rfl (ends_other (fun same => by cases same) rfl)).2⟩
  · have kept := written.1
    exact ⟨(at_kept kept rfl (fun ending same => by cases same)).1,
      written.2.trans (at_kept kept rfl (fun ending same => by cases same)).2⟩

theorem finishing_kept (present : sys.workers.get key = some worker) (at_ : worker.phase = .finishing ending)
    (cared : worker.Cared sys reply) : Sound (work sys key worker reply) ∧ Lasting sys (work sys key worker reply) := by
  obtain ⟨terminal,named⟩ := sound.ending key worker ending present at_
  rw [Worker.Cared,at_] at cared
  rw [work,at_]
  dsimp only
  unfold System.write
  split
  · rename_i goes
    have turns : Turns sys.runs (sys.runs.modify worker.runId ending.write) := by
      refine modify_turns (fun run there => ?_)
      rcases cared goes run.status (statusOf_some.mpr ⟨run,there,rfl⟩) with running | same
      · exact .inr ⟨running,terminal⟩
      · exact .inl same.symm
    have cancels : ∀ id run, (sys.runs.modify worker.runId ending.write).get id = some run → run.status = .cancelled → id ∈ sys.named := by
      intro id run there status
      rw [KeyMap.modify,get_mapEntries] at there
      obtain ⟨before,found,same⟩ := map_eq_some_iff.mp there
      split at same
      · rename_i own
        subst same
        rw [own]
        exact named status
      · subst same
        exact sound.named id before found status
    have written := turns_sound sound turns cancels
    exact ⟨gone_sound written,turns.lasting rfl (fun _ member => member) (fun _ _ => rfl)⟩
  · exact ⟨gone_sound sound,lasting_same rfl rfl rfl⟩

theorem work_kept (present : sys.workers.get key = some worker) (cared : worker.Cared sys reply) :
    Sound (work sys key worker reply) ∧ Lasting sys (work sys key worker reply) := by
  cases at_ : worker.phase with
  | clearing =>
    have turned : Sound (sys.at key worker .fetching) := turn_sound sound (fun here => by cases here) (fun ending same => by cases same)
    rw [work,at_]
    exact ⟨⟨turned.one,turned.named,turned.asked,turned.ending,turned.returned⟩,lasting_same rfl rfl rfl⟩
  | fetching =>
    rw [work,at_]
    dsimp only
    split
    · exact ⟨gone_sound sound,lasting_same rfl rfl rfl⟩
    · split
      · exact at_kept sound rfl (ends_other (fun same => by cases same) rfl)
      · exact at_kept sound rfl (fun ending same => by cases same)
  | loading held =>
    rw [work,at_]
    dsimp only
    split
    · exact at_kept sound rfl (ends_other (fun same => by cases same) rfl)
    · exact at_kept sound rfl (fun ending same => by cases same)
  | looking held => exact looking_kept sound at_ cared
  | reading held => exact reading_kept sound at_ cared
  | beginning held => exact beginning_kept sound present at_
  | batching held nodeId =>
    rw [work,at_]
    dsimp only
    split
    · exact at_kept sound rfl (ends_other (fun same => by cases same) rfl)
    · exact at_kept sound rfl (ends_other (fun same => by cases same) rfl)
    · exact at_kept sound rfl (fun ending same => by cases same)
  | persisting held failed => exact persisting_kept sound at_
  | finishing ending => exact finishing_kept sound present at_ cared

theorem spawned_kept {runId : String} :
    Sound {sys with workers := sys.workers.set key ⟨runId,.clearing⟩} := by
  refine ⟨sound.one,sound.named,sound.asked,fun other found ending there at_ => ?_,fun id member =>
    ⟨(sound.returned id member).1,fun other found there about => ?_⟩⟩
  · dsimp only at there
    rw [get_set] at there
    split at there
    · cases there
      cases at_
    · exact sound.ending other found ending there at_
  · dsimp only at there
    rw [get_set] at there
    split at there
    · cases there
      rfl
    · exact (sound.returned id member).2 other found there about

end

end Workers

section Cancels
variable {sys next : System} {key : Nat} {request : CancelRequest} {phase : Cancelling} {goes : Bool} {runId : String} {run : Run}

section
variable (sound : Sound sys)
include sound

theorem turned_sound (named : request.runId ∈ sys.named)
    (there : phase ≠ .fetching → (sys.runs.get request.runId).isSome = true)
    (returning : phase = .returning → statusOf sys request.runId = some .cancelled) : Sound (sys.turn key request phase) := by
  refine ⟨sound.one,sound.named,fun other found held => ?_,sound.ending,sound.returned⟩
  have held : (sys.cancels.set key {request with phase := phase}).get other = some found := held
  rw [get_set] at held
  split at held
  · cases held
    exact ⟨named,there,returning⟩
  · exact sound.asked other found held

theorem answered_sound : Sound (sys.answered key) := by
  refine ⟨sound.one,sound.named,fun other found held => ?_,sound.ending,sound.returned⟩
  have held : (sys.cancels.remove key).get other = some found := held
  by_cases same : other = key
  · rw [same,get_remove_self] at held
    cases held
  · exact sound.asked other found ((get_remove_ne same).symm.trans held)

theorem updating_kept (named : request.runId ∈ sys.named) (some_ : (sys.runs.get request.runId).isSome = true)
    (cared : ∀ status ∈ statusOf sys request.runId,status = .running ∨ status = .cancelled) :
    Sound ((sys.write true request.runId cancelRun).turn key request .returning) ∧
      Lasting sys ((sys.write true request.runId cancelRun).turn key request .returning) := by
  have turns : Turns sys.runs (sys.runs.modify request.runId cancelRun) := by
    refine modify_turns (fun run there => ?_)
    rcases cared run.status (statusOf_some.mpr ⟨run,there,rfl⟩) with running | same
    · exact .inr ⟨running,rfl⟩
    · exact .inl same.symm
  have cancels : ∀ id run, (sys.runs.modify request.runId cancelRun).get id = some run → run.status = .cancelled → id ∈ sys.named := by
    intro id run there status
    rw [KeyMap.modify,get_mapEntries] at there
    obtain ⟨before,found,same⟩ := map_eq_some_iff.mp there
    split at same
    · rename_i own
      rw [own]
      exact named
    · subst same
      exact sound.named id before found status
  have written : Sound (sys.write true request.runId cancelRun) := turns_sound sound turns cancels
  have cancelled : statusOf (sys.write true request.runId cancelRun) request.runId = some .cancelled := by
    obtain ⟨run,present⟩ := isSome_iff_exists.mp some_
    change ((sys.runs.modify request.runId cancelRun).get request.runId).map Run.status = _
    rw [get_modify_self,present]
    rfl
  exact ⟨turned_sound written named (fun _ => turns.isSome some_) (fun _ => cancelled),turns.lasting rfl (fun _ member => member) (fun _ _ => rfl)⟩

theorem returning_kept (held : sys.cancels.get key = some request) (at_ : request.phase = .returning)
    (cared : sys.workers.any (fun _ worker => decide (worker.runId = request.runId) && worker.beginning) = false) :
    Sound {sys with returned := request.runId :: sys.returned} := by
  refine ⟨sound.one,sound.named,sound.asked,sound.ending,fun id member => ?_⟩
  rcases mem_cons.mp member with rfl | old
  · refine ⟨(sound.asked key request held).2.2 at_,fun other worker there about => ?_⟩
    cases here : worker.beginning with
    | false => rfl
    | true =>
      have some_ : sys.workers.any (fun _ worker => decide (worker.runId = request.runId) && worker.beginning) = true :=
        any_iff.mpr ⟨other,worker,there,by rw [decide_eq_true about,here]; rfl⟩
      rw [cared] at some_
      cases some_
  · exact sound.returned id old

theorem proceed_kept (held : sys.cancels.get key = some request) (cared : request.Cared sys goes) :
    Sound (proceed sys key request goes) ∧ Lasting sys (proceed sys key request goes) := by
  obtain ⟨named,there,returning⟩ := sound.asked key request held
  cases at_ : request.phase with
  | fetching =>
    rw [proceed,at_]
    dsimp only
    split
    · rename_i passes
      rw [Bool.and_eq_true] at passes
      have some_ : (sys.runs.get request.runId).isSome = true := isSome_of_any passes.2
      exact ⟨turned_sound sound named (fun _ => some_) (fun same => by cases same),lasting_same rfl rfl rfl⟩
    · exact ⟨answered_sound sound,lasting_same rfl rfl rfl⟩
  | signalling =>
    have some_ := there (by rw [at_]; decide)
    have turned : Sound (sys.turn key request .updating) := turned_sound sound named (fun _ => some_) (fun same => by cases same)
    rw [proceed,at_]
    exact ⟨⟨turned.one,turned.named,turned.asked,turned.ending,turned.returned⟩,lasting_same rfl rfl rfl⟩
  | updating =>
    rw [CancelRequest.Cared,at_] at cared
    rw [proceed,at_]
    dsimp only
    split
    · rename_i passes
      exact updating_kept sound named (there (by rw [at_]; decide)) (cared passes)
    · exact ⟨answered_sound sound,lasting_same rfl rfl rfl⟩
  | returning =>
    rw [CancelRequest.Cared,at_] at cared
    rw [proceed,at_]
    refine ⟨answered_sound (returning_kept sound held at_ cared),fun id member => mem_cons_of_mem _ member,
      fun id run present _ => ⟨run,present,rfl⟩,fun _ _ => rfl⟩

end

theorem spawned_running {registry : Registry} {kind : RunKind} {nodeId : Option String} {keyPrefix : String} {totalTarget : Nat}
    (spawned : spawnRun registry kind nodeId keyPrefix totalTarget = .ok run) : run.status = .running := by
  unfold spawnRun at spawned
  split at spawned
  · cases spawned
  · cases spawned
  · cases spawned
    rfl

theorem inserted_kept (sound : Sound sys) (alone : anyRunning sys.runs = false) (fresh : sys.runs.get runId = none) (running : run.status = .running)
    (starts : KeyMap Nat Starting) : Sound {sys with runs := sys.runs.set runId run,starts := starts} ∧
      Lasting sys {sys with runs := sys.runs.set runId run,starts := starts} := by
  have kept : ∀ id found, sys.runs.get id = some found → (sys.runs.set runId run).get id = some found := by
    intro id found present
    have ne : id ≠ runId := by
      rintro rfl
      rw [fresh] at present
      cases present
    exact (get_set_ne ne).trans present
  have none_ : ∀ id found, sys.runs.get id = some found → found.status ≠ .running := by
    intro id found present status
    have some_ : anyRunning sys.runs = true := any_iff.mpr ⟨id,found,present,decide_eq_true status⟩
    rw [alone] at some_
    cases some_
  have only : ∀ id found, (sys.runs.set runId run).get id = some found → found.status = .running → id = runId := by
    intro id found present status
    rw [get_set] at present
    split at present
    · assumption
    · exact absurd status (none_ id found present)
  have status : ∀ id, statusOf sys id = some .cancelled →
      statusOf {sys with runs := sys.runs.set runId run,starts := starts} id = some .cancelled := by
    intro id cancelled
    obtain ⟨found,present,same⟩ := statusOf_some.mp cancelled
    exact statusOf_some.mpr ⟨found,kept id found present,same⟩
  refine ⟨⟨?_,?_,?_,sound.ending,?_⟩,fun _ member => member,fun id found present _ => ⟨found,kept id found present,rfl⟩,fun _ _ => rfl⟩
  · intro id other found found' present present' running running'
    rw [only id found present running,only other found' present' running']
  · intro id found present cancelled
    have present : (sys.runs.set runId run).get id = some found := present
    rw [get_set] at present
    split at present
    · cases present
      rw [running] at cancelled
      cases cancelled
    · exact sound.named id found present cancelled
  · intro key request held
    obtain ⟨named,there,returning⟩ := sound.asked key request held
    refine ⟨named,fun later => ?_,fun later => status _ (returning later)⟩
    obtain ⟨found,present⟩ := isSome_iff_exists.mp (there later)
    change ((sys.runs.set runId run).get request.runId).isSome = true
    rw [kept _ found present]
    rfl
  · intro id member
    exact ⟨status id (sound.returned id member).1,(sound.returned id member).2⟩

theorem recovered_turns (stale : List String) :
    Turns sys.runs (sys.runs.mapEntries (fun id run => if run.status = .running ∧ id ∈ stale then stall run else run)) := by
  constructor
  · intro id run present
    rw [get_mapEntries,present,map_some]
    refine ⟨_,rfl,?_⟩
    split
    · rename_i both
      exact .inr ⟨both.1,rfl⟩
    · exact .inl rfl
  · intro id run' present
    rw [get_mapEntries] at present
    obtain ⟨run,there,_⟩ := map_eq_some_iff.mp present
    exact ⟨run,there⟩

end Cancels

section Runs
variable {sys next final : System} {event : Event} {events : List Event}

theorem aside_kept (sound : Sound sys) (starts : KeyMap Nat Starting) (boot : Option Boot) :
    Sound {sys with starts := starts,boot := boot} ∧ Lasting sys {sys with starts := starts,boot := boot} :=
  ⟨⟨sound.one,sound.named,sound.asked,sound.ending,sound.returned⟩,lasting_same rfl rfl rfl⟩

theorem step_kept (sound : Sound sys) (cared : Cared sys event) (fired : step sys event = some next) : Sound next ∧ Lasting sys next := by
  cases event with
  | start key request =>
    simp only [step] at fired
    split at fired
    · cases fired
    · cases fired
      exact aside_kept sound _ _
  | check key =>
    simp only [step] at fired
    split at fired
    · split at fired
      · cases fired
        exact aside_kept sound _ _
      · cases fired
        exact aside_kept sound _ _
    · cases fired
  | insert key registry runId =>
    simp only [step] at fired
    split at fired
    · split at fired
      · cases fired
        exact aside_kept sound _ _
      · rename_i run spawned
        split at fired
        · cases fired
        · rename_i fresh
          cases fired
          exact inserted_kept sound cared (not_isSome_iff_eq_none.mp fresh) (spawned_running spawned) _
    · cases fired
  | spawn key worker =>
    simp only [step] at fired
    split at fired
    · rename_i runId _
      split at fired
      · cases fired
      · cases fired
        have spawned : Sound {sys with workers := sys.workers.set worker ⟨runId,.clearing⟩} := spawned_kept sound
        exact ⟨⟨spawned.one,spawned.named,spawned.asked,spawned.ending,spawned.returned⟩,lasting_same rfl rfl rfl⟩
    · cases fired
  | abandon key =>
    obtain ⟨_,_,rfl⟩ := map_eq_some_iff.mp fired
    exact aside_kept sound _ _
  | work key reply =>
    obtain ⟨worker,present,rfl⟩ := map_eq_some_iff.mp fired
    exact work_kept sound present (cared worker present)
  | cancel key runId =>
    simp only [step] at fired
    split at fired
    · cases fired
    · cases fired
      refine ⟨⟨sound.one,fun id run present status => mem_cons_of_mem _ (sound.named id run present status),fun other found held => ?_,
        fun other worker ending there at_ => ?_,sound.returned⟩,lasting_same rfl rfl rfl⟩
      · dsimp only at held
        rw [get_set] at held
        split at held
        · cases held
          exact ⟨mem_cons_self,fun later => absurd rfl later,fun same => by cases same⟩
        · obtain ⟨named,rest⟩ := sound.asked other found held
          exact ⟨mem_cons_of_mem _ named,rest⟩
      · obtain ⟨terminal,named⟩ := sound.ending other worker ending there at_
        exact ⟨terminal,fun cancelled => mem_cons_of_mem _ (named cancelled)⟩
  | proceed key goes =>
    obtain ⟨request,held,rfl⟩ := map_eq_some_iff.mp fired
    exact proceed_kept sound held (cared request held)
  | restart =>
    cases fired
    exact ⟨⟨sound.one,sound.named,fun _ _ held => (by cases held),fun _ _ _ there => (by cases there),
      fun id member => ⟨(sound.returned id member).1,fun _ _ there => (by cases there)⟩⟩,lasting_same rfl rfl rfl⟩
  | recover stale =>
    simp only [step] at fired
    split at fired
    · cases fired
      have turns := @recovered_turns sys stale
      have named : ∀ id run, (sys.runs.mapEntries (fun id run => if run.status = .running ∧ id ∈ stale then stall run else run)).get id = some run →
          run.status = .cancelled → id ∈ sys.named := by
        intro id run present status
        rw [get_mapEntries] at present
        obtain ⟨before,there,same⟩ := map_eq_some_iff.mp present
        split at same
        · subst same
          cases status
        · subst same
          exact sound.named id before there status
      have recovered := turns_sound sound turns named
      exact ⟨⟨recovered.one,recovered.named,recovered.asked,recovered.ending,recovered.returned⟩,
        turns.lasting rfl (fun _ member => member) (fun _ _ => rfl)⟩
    · cases fired
  | list goes =>
    simp only [step] at fired
    split at fired
    · cases fired
      exact aside_kept sound _ _
    · cases fired
  | resume worker =>
    simp only [step] at fired
    split at fired
    · cases fired
      exact aside_kept sound _ _
    · rename_i runId rest _
      split at fired
      · cases fired
      · cases fired
        have spawned : Sound {sys with workers := sys.workers.set worker ⟨runId,.clearing⟩} := spawned_kept sound
        exact ⟨⟨spawned.one,spawned.named,spawned.asked,spawned.ending,spawned.returned⟩,lasting_same rfl rfl rfl⟩
    · cases fired

theorem empty_sound : Sound empty :=
  ⟨fun _ _ _ _ present => (by cases present),fun _ _ present => (by cases present),fun _ _ held => (by cases held),
    fun _ _ _ there => (by cases there),fun _ member => (by cases member)⟩

theorem runs_orderly (events : List Event) (final : System) (ran : Schedule.run step empty events = some final)
    (cared : Schedule.Along step Cared empty events) : Orderly events final := by
  have keep : ∀ sys event next, Sound sys → Cared sys event → step sys event = some next → Sound next :=
    fun _ _ _ sound good fired => (step_kept sound good fired).1
  have sound := Schedule.run_along keep empty_sound cared ran
  refine ⟨sound.one,sound.named,fun left right middle split reached => ?_⟩
  subst split
  have there : Sound middle := Schedule.Along.reached cared keep empty_sound rfl reached
  rw [Schedule.run_append,reached,bind_some] at ran
  refine (Schedule.run_along (motive := fun later => Sound later ∧ Lasting middle later) (fun sys event next held good fired => ?_)
    ⟨there,.refl middle⟩ (cared.suffix reached) ran).2
  obtain ⟨sound,lasts⟩ := step_kept held.1 good fired
  exact ⟨sound,held.2.trans lasts⟩

end Runs

section Races

def nodes : Registry := ⟨[⟨"n",["a","b"],by decide +kernel⟩],nodup_singleton _⟩

def preview : StartRequest := ⟨.preview,none,"",0⟩

def reply (isTruncated : Bool) : Reply :=
  ⟨true,true,some (.ok ⟨"client_probe",1,1,0,0,if isTruncated then some "a" else none,isTruncated⟩)⟩

def previewed : List Event :=
  [.start 0 preview,.check 0,.insert 0 nodes "r",.spawn 0 0] ++ List.replicate 10 (Event.work 0 (reply false))

def cancelled : List Event :=
  [.start 1 preview,.check 1,.insert 1 nodes "s",.spawn 1 1] ++ List.replicate 6 (Event.work 1 (reply true))

def events : List Event :=
  previewed ++ cancelled ++ Event.cancel 0 "s" :: List.replicate 4 (Event.proceed 0 true) ++ List.replicate 4 (Event.work 1 (reply true))

theorem runs_orderly_two : ∃ final, Schedule.run step empty events = some final ∧ Orderly events final := by
  have goes : (Schedule.run step empty events).isSome = true := by decide +kernel
  obtain ⟨final,ran⟩ := isSome_iff_exists.mp goes
  exact ⟨final,ran,runs_orderly events final ran (by decide +kernel)⟩

def raced : List Event := [.start 0 preview,.start 1 preview,.check 0,.check 1,.insert 0 nodes "r",.insert 1 nodes "s"]

theorem two_running : ∃ final, Schedule.run step empty raced = some final ∧ ¬Orderly raced final := by
  obtain ⟨final,ran,one,other⟩ : ∃ final, Schedule.run step empty raced = some final ∧ statusOf final "r" = some .running ∧
      statusOf final "s" = some .running := Schedule.reached_of_any (by decide +kernel)
  refine ⟨final,ran,fun orderly => ?_⟩
  obtain ⟨run,present,running⟩ := statusOf_some.mp one
  obtain ⟨run',present',running'⟩ := statusOf_some.mp other
  have same := orderly.one "r" "s" run run' present present' running running'
  revert same
  decide

end Races

end Ownly.Migration.Machine
