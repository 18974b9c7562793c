import Ownly.Jobs.Queue
import Ownly.Lib.Slots

-- backend/src/jobs/worker.rs: the worker loops of every process on the one queue. A
-- worker that is handed a job executes it until it gives the row up or its process dies.
namespace Ownly.Jobs.Workers
open Option

structure Execution where
  jobId : String
  workerId : String
  ended : Bool
  deriving DecidableEq, Repr

inductive Write where
  | setJobProgress (now : Int) (progress : Int)
  | completeJob (now : Int)
  | failJob (now : Int) (message : String)
  | failJobPermanent (now : Int) (message : String)
  deriving DecidableEq, Repr

def Write.statement (jobId : String) : Write → Statement
  | .setJobProgress now progress => .setJobProgress now jobId progress
  | .completeJob now => .completeJob now jobId
  | .failJob now message => .failJob now jobId message
  | .failJobPermanent now message => .failJobPermanent now jobId message

inductive Sweep where
  | recoverStaleJobs (staleMinutes : Int)
  | recoverRunningJobsOnStartup
  | failExhaustedQueuedJobs
  | cancelJob (userId jobId : String)
  | cancelJobByResource (userId : String) (kind : JobKind) (resourceType resourceId : String)

def Sweep.statement (now : Int) : Sweep → Statement
  | .recoverStaleJobs staleMinutes => .recoverStaleJobs now staleMinutes
  | .recoverRunningJobsOnStartup => .recoverRunningJobsOnStartup now
  | .failExhaustedQueuedJobs => .failExhaustedQueuedJobs now
  | .cancelJob userId jobId => .cancelJob now userId jobId
  | .cancelJobByResource userId kind resourceType resourceId =>
    .cancelJobByResource now userId kind resourceType resourceId

-- backend/src/jobs/recovery.rs: `COALESCE(MIN(created_at), now()) - INTERVAL '1 second'`
def queueFront (now : Int) (jobs : Table) : Int :=
  (((rows jobs (fun _ job => decide (job.status = .queued))).map (fun entry => entry.2.createdAt)).min?.getD now) - 1

-- The UPDATE of recover_stale_queued_jobs on one of the rows it has read.
def restartQueued (now : Int) (jobId payload : String) (jobs : Table) : Update :=
  ⟨fun id job => decide (id = jobId ∧ job.status = .queued),
   fun job => {job with
     progress := 0
     updatedAt := now
     createdAt := queueFront now jobs
     payload := payload
     error := job.error <|> some "restarted after prolonged queue wait"}⟩

-- `workers` are the loops that run; `executions` what they were handed, oldest first.
structure Pool where
  queue : System
  workers : List String
  executions : List Execution

inductive Event where
  | enqueue (request : EnqueueRequest)
  | advance (task : Nat) (now : Int) (jobId : String)
  | start (workerId : String)
  | crash (workerId : String)
  | claim (now : Int) (workerId : String) (skipped : List String)
  | write (execution : Nat) (write : Write)
  | heartbeat (execution : Nat) (now : Int)
  | finalizeCancelled (execution : Nat) (now : Int)
  -- no time where the statement has failed
  | release (execution : Nat) (now : Option Int)
  | sweep (now : Int) (sweep : Sweep)
  | restart (now : Int) (jobId payload : String)

namespace Pool

def running (pool : Pool) (i : Nat) : Option Execution := pool.executions[i]?.filter (fun x => !x.ended)

def busy (pool : Pool) (workerId : String) : Bool :=
  pool.executions.any (fun x => decide (x.workerId = workerId) && !x.ended)

def issue (statement : Statement) (pool : Pool) : Pool :=
  {pool with queue := {pool.queue with jobs := (statement.update.run pool.queue.jobs).1}}

end Pool

def crashed (workerId : String) (x : Execution) : Execution :=
  if x.workerId = workerId then {x with ended := true} else x

def handed (workerId : String) : Option (String × BackgroundJob) → List Execution
  | some (id,_) => [⟨id,workerId,false⟩]
  | none => []

def step (pool : Pool) : Event → Option Pool
  | .enqueue request => (Jobs.step pool.queue (.enqueue request)).map (fun queue => {pool with queue := queue})
  | .advance task now jobId =>
    (Jobs.step pool.queue (.advance task now jobId)).map (fun queue => {pool with queue := queue})
  | .start workerId =>
    if workerId ∈ pool.workers then none else some {pool with workers := workerId :: pool.workers}
  | .crash workerId =>
    some {pool with
      workers := pool.workers.filter (fun w => decide (w ≠ workerId))
      executions := pool.executions.map (crashed workerId)}
  | .claim now workerId skipped =>
    if workerId ∈ pool.workers ∧ pool.busy workerId = false then
      (Jobs.step pool.queue (.claim now workerId skipped)).map (fun queue => {pool with
        queue := queue
        executions := pool.executions ++ handed workerId (claimNextJob now workerId skipped pool.queue.jobs).2})
    else none
  | .write i write => (pool.running i).map (fun x => pool.issue (write.statement x.jobId))
  | .heartbeat i now => (pool.running i).map (fun x => pool.issue (.touchJobHeartbeat now x.jobId x.workerId))
  | .finalizeCancelled i now => (pool.running i).map (fun x => pool.issue (.finalizeCancelledRunning now x.jobId))
  | .release i now => (pool.running i).map (fun x =>
      {(match now with
        | some now => pool.issue (.ensureWorkerReleasedJob now x.jobId x.workerId)
        | none => pool) with executions := pool.executions.set i {x with ended := true}})
  | .sweep now sweep => some (pool.issue (sweep.statement now))
  | .restart now jobId payload =>
    some {pool with queue := {pool.queue with jobs := ((restartQueued now jobId payload pool.queue.jobs).run pool.queue.jobs).1}}

def empty : Pool := ⟨Jobs.empty,[],[]⟩

def Overtaken (pool : Pool) (i : Nat) : Prop :=
  ∃ x, pool.executions[i]? = some x ∧
    ∃ k y, i < k ∧ pool.executions[k]? = some y ∧ y.jobId = x.jobId ∧ y.workerId ≠ x.workerId

variable {i : Nat} {x : Execution} {pool next : Pool} {sys : System} {e : Event} {now : Int} {workerId : String}
  {skipped : List String} {job : BackgroundJob} {write : Write} {id : String}

structure Ordered (pool : Pool) : Prop where
  queue : Consistent pool.queue
  aligned : pool.queue.claims = pool.executions.map (fun x => (x.jobId,x.workerId))
  -- a worker loop runs one job after the other
  sequential : ∀ (i k : Nat) (x y : Execution), i < k → pool.executions[i]? = some x → pool.executions[k]? = some y →
    x.workerId = y.workerId → x.ended = true

theorem restart_orderly (now : Int) (jobId payload : String) (consistent : Consistent sys) :
    (restartQueued now jobId payload sys.jobs).Orderly sys.jobs := by
  intro id job present guard
  have queued := (of_decide_eq_true guard).2
  have row := consistent.rows id job present
  refine ⟨.inl queued,rfl,rfl,fun running => ⟨running,rfl⟩,?_,rfl⟩
  intro waiting
  cases held : job.lockedBy with
  | none => exact held
  | some worker => exact absurd (row.locked.mp (by rw [held]; rfl)) waiting

structure Older (before after : List Execution) : Prop where
  same : after.map (fun x => (x.jobId,x.workerId)) = before.map (fun x => (x.jobId,x.workerId))
  ended : ∀ (i : Nat) (x : Execution), after[i]? = some x →
    ∃ y : Execution, before[i]? = some y ∧ y.workerId = x.workerId ∧ (y.ended = true → x.ended = true)

theorem Older.refl (executions : List Execution) : Older executions executions :=
  ⟨rfl,fun _ x present => ⟨x,present,rfl,fun ended => ended⟩⟩

theorem crashed_older (workerId : String) (executions : List Execution) :
    Older executions (executions.map (crashed workerId)) := by
  refine ⟨?_,?_⟩
  · rw [List.map_map]
    apply List.map_congr_left
    intro x _
    unfold Function.comp crashed
    split
    · rfl
    · rfl
  · intro i x present
    rw [List.getElem?_map] at present
    obtain ⟨y,found,same⟩ := map_eq_some_iff.mp present
    refine ⟨y,found,?_⟩
    rw [← same]
    unfold crashed
    split
    · exact ⟨rfl,fun _ => rfl⟩
    · exact ⟨rfl,fun ended => ended⟩

theorem finished_older {executions : List Execution} (present : executions[i]? = some x) :
    Older executions (executions.set i {x with ended := true}) := by
  refine ⟨?_,?_⟩
  · rw [List.map_set]
    apply List.ext_getElem?
    intro j
    by_cases same : i = j
    · subst j
      obtain ⟨inside,_⟩ := List.getElem?_eq_some_iff.mp present
      rw [List.getElem?_set_self (by rw [List.length_map]; exact inside),List.getElem?_map,present]
      rfl
    · rw [List.getElem?_set_ne same]
  · intro j y found
    rcases Slots.set_cases found with ⟨rfl,rfl⟩ | ⟨_,before⟩
    · exact ⟨x,present,rfl,fun _ => rfl⟩
    · exact ⟨y,before,rfl,fun ended => ended⟩

theorem Ordered.older {next : Pool} (ordered : Ordered pool) (consistent : Consistent next.queue)
    (claims : next.queue.claims = pool.queue.claims) (older : Older pool.executions next.executions) : Ordered next := by
  refine ⟨consistent,?_,?_⟩
  · rw [claims,older.same]
    exact ordered.aligned
  · intro i k x y less first second same
    obtain ⟨x',before,worker,ended⟩ := older.ended i x first
    obtain ⟨y',before',worker',_⟩ := older.ended k y second
    exact ended (ordered.sequential i k x' y' less before before' (worker.trans (same.trans worker'.symm)))

theorem advance_claims (fired : Jobs.step sys (.advance task now jobId) = some after) : after.claims = sys.claims := by
  simp only [Jobs.step] at fired
  split at fired
  · cases fired
  · split at fired
    · cases fired
    · cases fired
      rfl

theorem issue_ordered (statement : Statement) (ordered : Ordered pool) : Ordered (pool.issue statement) :=
  ordered.older (update_consistent (statement_orderly statement _) ordered.queue) rfl (.refl _)

theorem running_exact {pool : Pool} : pool.running i = some x ↔ pool.executions[i]? = some x ∧ x.ended = false := by
  unfold Pool.running
  rw [filter_eq_some_iff]
  cases x.ended with
  | true => exact ⟨fun both => absurd both.2 (by decide),fun both => absurd both.2 (by decide)⟩
  | false => exact ⟨fun both => ⟨both.1,rfl⟩,fun both => ⟨both.1,rfl⟩⟩

theorem claim_ordered {queue : System} (ordered : Ordered pool) (idle : pool.busy workerId = false)
    (fired : Jobs.step pool.queue (.claim now workerId skipped) = some queue) :
    Ordered ⟨queue,pool.workers,
      pool.executions ++ handed workerId (claimNextJob now workerId skipped pool.queue.jobs).2⟩ := by
  have consistent := step_consistent ordered.queue fired
  rcases claim_cases now workerId skipped pool.queue.jobs with nothing | ⟨id,job,_,_,claim⟩
  · simp only [Jobs.step,nothing] at fired
    cases fired
    rw [nothing,handed,List.append_nil]
    exact ordered.older consistent rfl (.refl _)
  · simp only [Jobs.step,claim] at fired
    cases fired
    rw [claim,handed]
    refine ⟨consistent,?_,?_⟩
    · dsimp only
      rw [List.map_append,← ordered.aligned]
      rfl
    · intro i k x y less first second same
      rcases Slots.append_cases second with ⟨last,rfl⟩ | before
      · rcases Slots.append_cases first with ⟨also,_⟩ | earlier
        · omega
        · cases ended : x.ended with
          | true => rfl
          | false =>
            have busy : pool.busy workerId = true := List.any_eq_true.mpr
              ⟨x,List.mem_of_getElem? earlier,by rw [ended,decide_eq_true same]; rfl⟩
            rw [idle] at busy
            cases busy
      · rcases Slots.append_cases first with ⟨last,_⟩ | earlier
        · obtain ⟨inside,_⟩ := List.getElem?_eq_some_iff.mp before
          omega
        · exact ordered.sequential i k x y less earlier before same

theorem step_ordered (ordered : Ordered pool) (fired : step pool e = some next) : Ordered next := by
  cases e with
  | enqueue request =>
    cases fired
    exact ordered.older (step_consistent ordered.queue (e := .enqueue request) rfl) rfl (.refl _)
  | advance task now jobId =>
    obtain ⟨queue,moved,rfl⟩ := map_eq_some_iff.mp fired
    exact ordered.older (step_consistent ordered.queue moved) (advance_claims moved) (.refl _)
  | start workerId =>
    simp only [step] at fired
    split at fired
    · cases fired
    · cases fired
      exact ordered.older ordered.queue rfl (.refl _)
  | crash workerId =>
    cases fired
    exact ordered.older ordered.queue rfl (crashed_older workerId _)
  | claim now workerId skipped =>
    simp only [step] at fired
    split at fired
    · rename_i allowed
      obtain ⟨queue,moved,rfl⟩ := map_eq_some_iff.mp fired
      exact claim_ordered ordered allowed.2 moved
    · cases fired
  | write i write =>
    obtain ⟨x,_,rfl⟩ := map_eq_some_iff.mp fired
    exact issue_ordered _ ordered
  | heartbeat i now =>
    obtain ⟨x,_,rfl⟩ := map_eq_some_iff.mp fired
    exact issue_ordered _ ordered
  | finalizeCancelled i now =>
    obtain ⟨x,_,rfl⟩ := map_eq_some_iff.mp fired
    exact issue_ordered _ ordered
  | release i now =>
    obtain ⟨x,running,rfl⟩ := map_eq_some_iff.mp fired
    have older := finished_older (running_exact.mp running).1
    cases now with
    | none => exact ordered.older ordered.queue rfl older
    | some now => exact ordered.older (issue_ordered (.ensureWorkerReleasedJob now x.jobId x.workerId) ordered).queue rfl older
  | sweep now sweep =>
    cases fired
    exact issue_ordered _ ordered
  | restart now jobId payload =>
    cases fired
    exact ordered.older (update_consistent (restart_orderly now jobId payload ordered.queue) ordered.queue) rfl (.refl _)

theorem empty_ordered : Ordered empty :=
  ⟨empty_consistent,rfl,fun _ _ _ _ _ present => (nomatch present)⟩

theorem holder_last (ordered : Ordered pool) (present : pool.queue.jobs.get id = some job)
    (active : job.status = .running) :
    ∃ (k : Nat) (y : Execution), pool.executions[k]? = some y ∧ y.jobId = id ∧ job.lockedBy = some y.workerId ∧
      ∀ (j : Nat) (z : Execution), k < j → pool.executions[j]? = some z → z.jobId ≠ id := by
  have row := ordered.queue.rows id job present
  have named := row.holder active
  obtain ⟨worker,locked⟩ := isSome_iff_exists.mp (row.locked.mpr active)
  rw [locked,claimants,ordered.aligned,List.filter_map,List.map_map,List.getLast?_map] at named
  obtain ⟨y,last,same⟩ := map_eq_some_iff.mp named.symm
  obtain ⟨k,found,meets,after⟩ := Slots.filter_last last
  refine ⟨k,y,found,of_decide_eq_true meets,by rw [locked,← same]; rfl,?_⟩
  intro j z later here equal
  have other := after j z later here
  exact of_decide_eq_false other equal

theorem overtaken_exact (ordered : Ordered pool) (running : pool.running i = some x)
    (present : pool.queue.jobs.get x.jobId = some job) (active : job.status = .running) :
    Overtaken pool i ↔ job.lockedBy ≠ some x.workerId := by
  obtain ⟨here,going⟩ := running_exact.mp running
  obtain ⟨k,y,found,mine,locked,last⟩ := holder_last ordered present active
  constructor
  · rintro ⟨x',same,j,z,later,there,job,_⟩ held
    rw [here] at same
    cases same
    have worker : y.workerId = x.workerId := Option.some.inj (locked.symm.trans held)
    have past : i < k := by
      rcases Nat.lt_or_ge k j with less | more
      · exact absurd job (last j z less there)
      · exact Nat.lt_of_lt_of_le later more
    have ended := ordered.sequential i k x y past here found worker.symm
    rw [going] at ended
    cases ended
  · intro other
    rcases Nat.lt_trichotomy i k with less | same | more
    · refine ⟨x,here,k,y,less,found,mine,?_⟩
      intro worker
      exact other (by rw [locked,worker])
    · subst same
      rw [here] at found
      cases found
      exact absurd locked other
    · exact absurd rfl (last i x more here)

theorem issue_get {statement : Statement} : (pool.issue statement).queue.jobs.get id =
    (pool.queue.jobs.get id).map (fun job => if statement.update.guard id job then statement.update.set job else job) := by
  unfold Pool.issue
  rw [Update.run,KeyMap.get_mapEntries]

-- The four writes of an overtaken execution leave its row alone, and startup recovery
-- puts no job back whose worker runs.
def Kept (pool : Pool) (e : Event) : Prop := ∀ next, step pool e = some next →
  match e with
  | .write i _ => ∀ x, pool.executions[i]? = some x → Overtaken pool i →
    next.queue.jobs.get x.jobId = pool.queue.jobs.get x.jobId
  | .sweep _ .recoverRunningJobsOnStartup => ∀ id job after worker, pool.queue.jobs.get id = some job →
    job.status = .running → job.lockedBy = some worker → worker ∈ pool.workers →
    next.queue.jobs.get id = some after → after.status ≠ .queued
  | _ => True

-- A write meets a running row only under its own worker's lock, or says what the row
-- says already; startup recovery meets no live worker's row that has attempts left.
def Fenced (pool : Pool) : Event → Prop
  | .write i write => ∀ x job, pool.running i = some x → pool.queue.jobs.get x.jobId = some job → job.status = .running →
    job.lockedBy = some x.workerId ∨ write = .setJobProgress job.updatedAt job.progress
  | .sweep _ .recoverRunningJobsOnStartup => ∀ id job worker, pool.queue.jobs.get id = some job →
    job.status = .running → job.lockedBy = some worker → worker ∈ pool.workers → job.maxAttempts ≤ job.attempts
  | _ => True

theorem write_exact (active : job.status = .running) :
    (write.statement jobId).update.set job = job ↔ write = .setJobProgress job.updatedAt job.progress := by
  cases write with
  | setJobProgress now progress =>
    constructor
    · intro same
      have first : progress = job.progress := congrArg BackgroundJob.progress same
      have second : now = job.updatedAt := congrArg BackgroundJob.updatedAt same
      rw [first,second]
    · intro same
      cases same
      rfl
  | completeJob now =>
    refine ⟨fun same => ?_,fun same => (nomatch same)⟩
    have status : JobStatus.complete = job.status := congrArg BackgroundJob.status same
    rw [active] at status
    cases status
  | failJob now message =>
    refine ⟨fun same => ?_,fun same => (nomatch same)⟩
    have status : job.retryStatus = job.status := congrArg BackgroundJob.status same
    exact absurd (status.trans active) (retryStatus_ended job)
  | failJobPermanent now message =>
    refine ⟨fun same => ?_,fun same => (nomatch same)⟩
    have status : JobStatus.failed = job.status := congrArg BackgroundJob.status same
    rw [active] at status
    cases status

theorem write_guard {id jobId : String} :
    (write.statement jobId).update.guard id job = true ↔ id = jobId ∧ job.status = .running := by
  cases write with
  | setJobProgress now progress => exact decide_eq_true_iff
  | completeJob now => exact decide_eq_true_iff
  | failJob now message => exact decide_eq_true_iff
  | failJobPermanent now message => exact decide_eq_true_iff

theorem write_kept (ordered : Ordered pool) : Kept pool (.write i write) ↔ Fenced pool (.write i write) := by
  constructor
  · intro kept x job running present active
    apply or_iff_not_imp_left.mpr
    intro other
    have overtaken := (overtaken_exact ordered running present active).mpr other
    have fired : step pool (.write i write) = some (pool.issue (write.statement x.jobId)) := by
      simp only [step,running,map_some]
    have same := kept _ fired x (running_exact.mp running).1 overtaken
    rw [issue_get,present,map_some,if_pos (write_guard.mpr ⟨rfl,active⟩)] at same
    exact (write_exact active).mp (Option.some.inj same)
  · intro fenced next fired x here overtaken
    obtain ⟨x',running,rfl⟩ := map_eq_some_iff.mp fired
    obtain rfl : x = x' := Option.some.inj (here.symm.trans (running_exact.mp running).1)
    rw [issue_get]
    cases present : pool.queue.jobs.get x.jobId with
    | none => rfl
    | some job =>
      rw [map_some]
      split
      · rename_i guard
        have active := (write_guard.mp guard).2
        rcases fenced x job running present active with held | idle
        · exact absurd held ((overtaken_exact ordered running present active).mp overtaken)
        · rw [(write_exact active).mpr idle]
      · rfl

theorem startup_kept : Kept pool (.sweep now .recoverRunningJobsOnStartup) ↔
    Fenced pool (.sweep now .recoverRunningJobsOnStartup) := by
  have recovered : ∀ {id : String} {job : BackgroundJob}, pool.queue.jobs.get id = some job → job.status = .running →
      (pool.issue (.recoverRunningJobsOnStartup now)).queue.jobs.get id =
        some (job.released now job.retryStatus (job.lastError "worker lost on restart")) := by
    intro id job present active
    rw [issue_get,present,map_some]
    exact congrArg some (if_pos (decide_eq_true active))
  constructor
  · intro kept id job worker present active locked runs
    have ended := kept _ rfl id job _ worker present active locked runs (recovered present active)
    apply Decidable.byContradiction
    intro left
    exact ended (if_neg left)
  · intro fenced next fired id job after worker present active locked runs found
    cases fired
    rw [show Sweep.statement now .recoverRunningJobsOnStartup = .recoverRunningJobsOnStartup now from rfl,
      recovered present active] at found
    cases found
    have spent := fenced id job worker present active locked runs
    change job.retryStatus ≠ .queued
    unfold BackgroundJob.retryStatus
    rw [if_pos spent]
    decide

theorem kept_exact (ordered : Ordered pool) : Kept pool e ↔ Fenced pool e := by
  cases e with
  | write i write => exact write_kept ordered
  | sweep now sweep =>
    cases sweep with
    | recoverRunningJobsOnStartup => exact startup_kept
    | recoverStaleJobs staleMinutes => exact ⟨fun _ => trivial,fun _ _ _ => trivial⟩
    | failExhaustedQueuedJobs => exact ⟨fun _ => trivial,fun _ _ _ => trivial⟩
    | cancelJob userId jobId => exact ⟨fun _ => trivial,fun _ _ _ => trivial⟩
    | cancelJobByResource userId kind resourceType resourceId => exact ⟨fun _ => trivial,fun _ _ _ => trivial⟩
  | enqueue request => exact ⟨fun _ => trivial,fun _ _ _ => trivial⟩
  | advance task now jobId => exact ⟨fun _ => trivial,fun _ _ _ => trivial⟩
  | start workerId => exact ⟨fun _ => trivial,fun _ _ _ => trivial⟩
  | crash workerId => exact ⟨fun _ => trivial,fun _ _ _ => trivial⟩
  | claim now workerId skipped => exact ⟨fun _ => trivial,fun _ _ _ => trivial⟩
  | heartbeat i now => exact ⟨fun _ => trivial,fun _ _ _ => trivial⟩
  | finalizeCancelled i now => exact ⟨fun _ => trivial,fun _ _ _ => trivial⟩
  | release i now => exact ⟨fun _ => trivial,fun _ _ _ => trivial⟩
  | restart now jobId payload => exact ⟨fun _ => trivial,fun _ _ _ => trivial⟩

-- Whatever the interleaving: every write and every startup recovery of a run is
-- harmless exactly if all of them are fenced.
theorem claims_respected (events : List Event) :
    Schedule.Along step Kept empty events ↔ Schedule.Along step Fenced empty events :=
  Schedule.along_congr (fun _ _ ordered => kept_exact ordered)
    (fun _ _ _ ordered _ fired => step_ordered ordered fired) empty_ordered

-- Each attempt of a job is one execution of it, and a worker has one at a time.
def Counted (pool : Pool) : Prop :=
  (∀ id job, pool.queue.jobs.get id = some job →
    (pool.executions.filter (fun x => decide (x.jobId = id))).length = job.attempts ∧ job.attempts ≤ job.maxAttempts) ∧
  ∀ (i k : Nat) (x y : Execution), i < k → pool.executions[i]? = some x → pool.executions[k]? = some y → x.workerId = y.workerId →
    x.ended = true

theorem executions_counted (ran : Schedule.run step empty events = some pool) : Counted pool := by
  have ordered : Ordered pool := Schedule.run_preserves (fun _ _ _ held fired => step_ordered held fired) empty_ordered ran
  refine ⟨fun id job present => ?_,ordered.sequential⟩
  have row := ordered.queue.rows id job present
  refine ⟨?_,row.bounded⟩
  rw [row.counted,claimants,ordered.aligned]
  simp [List.filter_map,Function.comp_def]

def slowRun : List Event :=
  [.start "w1",.start "w2",.enqueue encodeRequest,.advance 0 0 "j",.advance 0 0 "j",.advance 0 0 "j",
   .claim 1 "w1" [],.sweep 1000 (.recoverStaleJobs 1),.claim 1001 "w2" []]

theorem executions_counted_slow : ∃ pool, Schedule.run step empty slowRun = some pool ∧ Counted pool :=
  Schedule.reached_of_isSome (by decide +kernel) (fun _ ran => executions_counted ran)

theorem claims_disregarded : ¬∀ events, Schedule.Along step Kept empty events := by
  intro all
  obtain ⟨pool,ran,shown⟩ := map_eq_some_iff.mp (by decide +kernel :
    (Schedule.run step empty slowRun).map (fun pool => (pool.executions,(pool.queue.jobs.get "j").map BackgroundJob.status,
      (pool.issue (.completeJob 1002 "j")).queue.jobs.get "j" == pool.queue.jobs.get "j")) =
        some ([⟨"j","w1",false⟩,⟨"j","w2",false⟩],some .running,false))
  obtain ⟨executions,rest⟩ := Prod.mk.inj shown
  obtain ⟨_,changed⟩ := Prod.mk.inj rest
  have kept := (all (slowRun ++ [.write 0 (.completeJob 1002)])).here ran
  have running : pool.running 0 = some ⟨"j","w1",false⟩ := by rw [Pool.running,executions]; rfl
  have overtaken : Overtaken pool 0 :=
    ⟨⟨"j","w1",false⟩,by rw [executions]; rfl,1,⟨"j","w2",false⟩,by decide,by rw [executions]; rfl,rfl,by decide⟩
  have same := kept (pool.issue (.completeJob 1002 "j")) (by simp only [step,running,map_some]; rfl) ⟨"j","w1",false⟩
    (running_exact.mp running).1 overtaken
  rw [same] at changed
  exact absurd changed (by simp)

end Ownly.Jobs.Workers
