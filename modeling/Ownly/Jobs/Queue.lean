import Ownly.Jobs.Store
import Ownly.Lib.Schedule

-- The queue under every statement that writes it, in any order.
namespace Ownly.Jobs
open BackgroundJob (Live)
open List Option KeyMap
variable {id jobId : String} {job after : BackgroundJob} {status : JobStatus}

inductive Statement where
  | setJobProgress (now : Int) (jobId : String) (progress : Int)
  | touchJobHeartbeat (now : Int) (jobId workerId : String)
  | completeJob (now : Int) (jobId : String)
  | failJob (now : Int) (jobId message : String)
  | failJobPermanent (now : Int) (jobId message : String)
  | finalizeCancelledRunning (now : Int) (jobId : String)
  | cancelJob (now : Int) (userId jobId : String)
  | cancelJobByResource (now : Int) (userId : String) (kind : JobKind) (resourceType resourceId : String)
  | ensureWorkerReleasedJob (now : Int) (jobId workerId : String)
  | recoverStaleJobs (now staleMinutes : Int)
  | recoverRunningJobsOnStartup (now : Int)
  | failExhaustedQueuedJobs (now : Int)

def Statement.update : Statement → Update
  | .setJobProgress now jobId progress => Jobs.setJobProgress now jobId progress
  | .touchJobHeartbeat now jobId workerId => Jobs.touchJobHeartbeat now jobId workerId
  | .completeJob now jobId => Jobs.completeJob now jobId
  | .failJob now jobId message => Jobs.failJob now jobId message
  | .failJobPermanent now jobId message => Jobs.failJobPermanent now jobId message
  | .finalizeCancelledRunning now jobId => Jobs.finalizeCancelledRunning now jobId
  | .cancelJob now userId jobId => Jobs.cancelJob now userId jobId
  | .cancelJobByResource now userId kind resourceType resourceId =>
    Jobs.cancelJobByResource now userId kind resourceType resourceId
  | .ensureWorkerReleasedJob now jobId workerId => Jobs.ensureWorkerReleasedJob now jobId workerId
  | .recoverStaleJobs now staleMinutes => Jobs.recoverStaleJobs now staleMinutes
  | .recoverRunningJobsOnStartup now => Jobs.recoverRunningJobsOnStartup now
  | .failExhaustedQueuedJobs now => Jobs.failExhaustedQueuedJobs now

-- An `enqueue_job` call between its statements.
inductive EnqueuePhase where
  | counting (request : EnqueueRequest)
  | looking (request : EnqueueRequest)
  | inserting (request : EnqueueRequest)
  | done (result : Except AppError String)

-- `claims` is the history of what `claim_next_job` has handed out, oldest first.
structure System where
  jobs : Table
  enqueues : List EnqueuePhase
  claims : List (String × String)

inductive Event where
  | enqueue (request : EnqueueRequest)
  | advance (task : Nat) (now : Int) (jobId : String)
  | claim (now : Int) (workerId : String) (skipped : List String)
  | update (statement : Statement)

def advance (now : Int) (jobId : String) (jobs : Table) : EnqueuePhase → Option (EnqueuePhase × Table)
  | .counting request =>
    if maxQueuedJobsPerUser ≤ queuedCount jobs request.userId then some (.done (.error (.rateLimited 60)),jobs)
    else match request.resourceType,request.resourceId with
      | some _,some _ => some (.looking request,jobs)
      | _,_ => some (.inserting request,jobs)
  | .looking request =>
    match request.resourceType,request.resourceId with
    | some rt,some rid =>
      match findActiveJob jobs request.kind rt rid with
      | some (id,_) => some (.done (.ok id),jobs)
      | none => some (.inserting request,jobs)
    | _,_ => some (.inserting request,jobs)
  | .inserting request =>
    match insertJob now jobId request jobs with
    | .ok jobs => some (.done (.ok jobId),jobs)
    | .error e => some (.done (.error e),jobs)
  | .done _ => none

def step (sys : System) : Event → Option System
  | .enqueue request => some {sys with enqueues := sys.enqueues ++ [.counting request]}
  | .advance task now jobId =>
    match sys.enqueues[task]? with
    | none => none
    | some phase =>
      match advance now jobId sys.jobs phase with
      | none => none
      | some (phase,jobs) => some {sys with jobs := jobs,enqueues := sys.enqueues.set task phase}
  | .claim now workerId skipped =>
    match claimNextJob now workerId skipped sys.jobs with
    | (jobs,some (id,_)) => some {sys with jobs := jobs,claims := sys.claims ++ [(id,workerId)]}
    | (jobs,none) => some {sys with jobs := jobs}
  | .update statement => some {sys with jobs := (statement.update.run sys.jobs).1}

def empty : System := ⟨KeyMap.empty,[],[]⟩

def claimants (claims : List (String × String)) (id : String) : List String :=
  (claims.filter (fun claim => claim.1 = id)).map Prod.snd

structure Accounted (claims : List (String × String)) (id : String) (job : BackgroundJob) : Prop where
  locked : job.lockedBy.isSome = true ↔ job.status = .running
  bounded : job.attempts ≤ job.maxAttempts
  counted : job.attempts = (claimants claims id).length
  holder : job.status = .running → job.lockedBy = (claimants claims id).getLast?

structure Consistent (sys : System) : Prop where
  rows : ∀ id job, sys.jobs.get id = some job → Accounted sys.claims id job
  fresh : ∀ id, sys.jobs.get id = none → claimants sys.claims id = []
  -- the unique index: one live row for each kind and resource
  index : ∀ a b job other, sys.jobs.get a = some job → sys.jobs.get b = some other → job.Live → other.Live →
    job.resource.isSome = true → job.resource = other.resource → a = b

-- What every UPDATE may do to a row: it meets a live one, leaves its attempts, and
-- keeps the lock exactly while the row stays running.
structure Moves (job after : BackgroundJob) : Prop where
  live : job.Live
  attempts : after.attempts = job.attempts
  limit : after.maxAttempts = job.maxAttempts
  kept : after.status = .running → job.status = .running ∧ after.lockedBy = job.lockedBy
  freed : after.status ≠ .running → after.lockedBy = none
  resource : after.resource = job.resource

theorem released_moves (live : job.Live) (ended : status ≠ .running) : Moves job (job.released now status error) :=
  ⟨live,rfl,rfl,fun running => absurd running ended,fun _ => rfl,rfl⟩

theorem retryStatus_ended (job : BackgroundJob) : job.retryStatus ≠ .running := by
  unfold BackgroundJob.retryStatus
  split
  · decide
  · decide

theorem running_live (guard : running jobId id job = true) : job.Live :=
  .inr (of_decide_eq_true guard).2

theorem statement_moves {statement : Statement} (guard : statement.update.guard id job = true) :
    Moves job (statement.update.set job) := by
  cases statement with
  | setJobProgress now jobId progress =>
    have status := (of_decide_eq_true guard).2
    exact ⟨.inr status,rfl,rfl,fun same => ⟨same,rfl⟩,fun ended => absurd status ended,rfl⟩
  | touchJobHeartbeat now jobId workerId =>
    have status := (of_decide_eq_true (Bool.and_eq_true_iff.mp guard).1).2
    exact ⟨.inr status,rfl,rfl,fun same => ⟨same,rfl⟩,fun ended => absurd status ended,rfl⟩
  | completeJob now jobId =>
    exact ⟨running_live guard,rfl,rfl,fun same => (nomatch same),fun _ => rfl,rfl⟩
  | failJob now jobId message => exact released_moves (running_live guard) (retryStatus_ended _)
  | failJobPermanent now jobId message => exact released_moves (running_live guard) (by decide)
  | finalizeCancelledRunning now jobId => exact released_moves (running_live guard) (by decide)
  | cancelJob now userId jobId =>
    obtain ⟨_,_,live⟩ := of_decide_eq_true guard
    exact released_moves live (by decide)
  | cancelJobByResource now userId kind resourceType resourceId =>
    obtain ⟨_,_,_,_,live⟩ := of_decide_eq_true guard
    exact released_moves live (by decide)
  | ensureWorkerReleasedJob now jobId workerId =>
    exact released_moves (running_live (Bool.and_eq_true_iff.mp guard).1) (retryStatus_ended _)
  | recoverStaleJobs now staleMinutes =>
    exact released_moves (.inr (of_decide_eq_true guard).1) (retryStatus_ended _)
  | recoverRunningJobsOnStartup now => exact released_moves (.inr (of_decide_eq_true guard)) (retryStatus_ended _)
  | failExhaustedQueuedJobs now => exact released_moves (.inl (of_decide_eq_true guard).1) (by decide)

theorem Moves.accounted (moves : Moves job after) (accounted : Accounted claims id job) : Accounted claims id after := by
  refine ⟨?_,?_,?_,?_⟩
  · constructor
    · intro held
      apply Decidable.byContradiction
      intro ended
      rw [moves.freed ended] at held
      cases held
    · intro running
      obtain ⟨before,same⟩ := moves.kept running
      rw [same]
      exact accounted.locked.mpr before
  · rw [moves.attempts,moves.limit]
    exact accounted.bounded
  · exact moves.attempts.trans accounted.counted
  · intro running
    obtain ⟨before,same⟩ := moves.kept running
    exact same.trans (accounted.holder before)

-- An UPDATE of this table does no more to a row than `Moves` says.
def Update.Orderly (update : Update) (jobs : Table) : Prop :=
  ∀ id job, jobs.get id = some job → update.guard id job = true → Moves job (update.set job)

theorem statement_orderly (statement : Statement) (jobs : Table) : statement.update.Orderly jobs :=
  fun _ _ _ guard => statement_moves guard

theorem update_get {update : Update} (orderly : update.Orderly jobs) (found : (update.run jobs).1.get id = some after) :
    ∃ job, jobs.get id = some job ∧ (after = job ∨ Moves job after) := by
  simp only [Update.run,get_mapEntries] at found
  obtain ⟨job,present,same⟩ := map_eq_some_iff.mp found
  refine ⟨job,present,?_⟩
  split at same
  · rename_i guard
    rw [← same]
    exact .inr (orderly id job present guard)
  · exact .inl same.symm

theorem Moves.live_resource (moved : after = job ∨ Moves job after) (live : after.Live) :
    job.Live ∧ after.resource = job.resource := by
  rcases moved with rfl | moves
  · exact ⟨live,rfl⟩
  · exact ⟨moves.live,moves.resource⟩

theorem update_consistent {update : Update} (orderly : update.Orderly sys.jobs) (consistent : Consistent sys) :
    Consistent {sys with jobs := (update.run sys.jobs).1} := by
  refine ⟨?_,?_,?_⟩
  · intro id after found
    obtain ⟨job,present,moved⟩ := update_get orderly found
    rcases moved with rfl | moves
    · exact consistent.rows id after present
    · exact moves.accounted (consistent.rows id job present)
  · intro id absent
    simp only [Update.run,get_mapEntries,map_eq_none_iff] at absent
    exact consistent.fresh id absent
  · intro a b after after' first second live live' some same
    obtain ⟨job,present,moved⟩ := update_get orderly first
    obtain ⟨other,present',moved'⟩ := update_get orderly second
    obtain ⟨liveJob,resource⟩ := Moves.live_resource moved live
    obtain ⟨liveOther,resource'⟩ := Moves.live_resource moved' live'
    rw [resource] at some same
    rw [resource'] at same
    exact consistent.index a b job other present present' liveJob liveOther some same

theorem first_mem {before : BackgroundJob → BackgroundJob → Bool} (picked : first before entries = some entry) :
    entry ∈ entries := by
  induction entries generalizing entry with
  | nil => cases picked
  | cons head rest ih =>
    unfold first at picked
    split at picked
    · cases picked; exact mem_cons_self
    · rename_i other found
      split at picked
      · cases picked; exact mem_cons_of_mem _ (ih found)
      · cases picked; exact mem_cons_self

theorem mem_rows {keep : String → BackgroundJob → Bool} :
    (id,job) ∈ rows jobs keep ↔ jobs.get id = some job ∧ keep id job = true := by
  unfold rows
  constructor
  · intro member
    obtain ⟨entry,kept,same⟩ := mem_map.mp member
    obtain ⟨present,holds⟩ := mem_filter.mp kept
    cases same
    exact ⟨get_eq_some.mpr present,holds⟩
  · rintro ⟨present,holds⟩
    exact mem_map.mpr ⟨⟨id,job⟩,mem_filter.mpr ⟨get_eq_some.mp present,holds⟩,rfl⟩

theorem claim_cases (now : Int) (workerId : String) (skipped : List String) (jobs : Table) :
    claimNextJob now workerId skipped jobs = (jobs,none) ∨
    ∃ id job, jobs.get id = some job ∧ job.Claimable ∧
      claimNextJob now workerId skipped jobs = (jobs.set id (claimed now workerId job),some (id,claimed now workerId job)) := by
  unfold claimNextJob
  cases picked : nextClaim jobs skipped with
  | none => exact .inl rfl
  | some entry =>
    obtain ⟨id,job⟩ := entry
    obtain ⟨present,holds⟩ := mem_rows.mp (first_mem picked)
    exact .inr ⟨id,job,present,(of_decide_eq_true holds).1,rfl⟩

theorem claimants_append (claims : List (String × String)) (id other workerId : String) :
    claimants (claims ++ [(other,workerId)]) id =
      if other = id then claimants claims id ++ [workerId] else claimants claims id := by
  unfold claimants
  by_cases same : other = id
  · simp [same]
  · simp [same]

theorem claimed_accounted (now : Int) (workerId : String) (claimable : job.Claimable) (accounted : Accounted claims id job) :
    Accounted (claims ++ [(id,workerId)]) id (claimed now workerId job) := by
  refine ⟨⟨fun _ => rfl,fun _ => rfl⟩,claimable.2,?_,?_⟩
  · rw [claimants_append,if_pos rfl,length_append]
    exact congrArg (· + 1) accounted.counted
  · intro _
    rw [claimants_append,if_pos rfl,getLast?_append]
    rfl

theorem claim_consistent (now : Int) (workerId : String) (present : sys.jobs.get id = some job)
    (claimable : job.Claimable) (consistent : Consistent sys) :
    Consistent {sys with jobs := sys.jobs.set id (claimed now workerId job),claims := sys.claims ++ [(id,workerId)]} := by
  have others : ∀ {other}, other ≠ id → claimants (sys.claims ++ [(id,workerId)]) other = claimants sys.claims other := by
    intro other ne
    rw [claimants_append,if_neg ne.symm]
  -- the claimed row was live and has the resource it had
  have older : ∀ {key row}, (sys.jobs.set id (claimed now workerId job)).get key = some row →
      ∃ before, sys.jobs.get key = some before ∧ (row.Live → before.Live) ∧ row.resource = before.resource := by
    intro key row found
    by_cases same : key = id
    · subst same
      rw [get_set_self] at found
      cases found
      exact ⟨job,present,fun _ => .inl claimable.1,rfl⟩
    · rw [get_set_ne same] at found
      exact ⟨row,found,fun live => live,rfl⟩
  refine ⟨?_,?_,?_⟩
  · intro key row found
    by_cases same : key = id
    · subst same
      rw [get_set_self] at found
      cases found
      exact claimed_accounted now workerId claimable (consistent.rows key job present)
    · rw [get_set_ne same] at found
      have row := consistent.rows key row found
      exact ⟨row.locked,row.bounded,by rw [others same]; exact row.counted,by rw [others same]; exact row.holder⟩
  · intro key absent
    by_cases same : key = id
    · subst same
      rw [get_set_self] at absent
      cases absent
    · rw [get_set_ne same] at absent
      rw [others same]
      exact consistent.fresh key absent
  · intro a b row row' first second live live' some same
    obtain ⟨before,found,alive,resource⟩ := older first
    obtain ⟨before',found',alive',resource'⟩ := older second
    rw [resource] at some same
    rw [resource'] at same
    exact consistent.index a b before before' found found' (alive live) (alive' live') some same

variable {jobs after : Table}

theorem insert_cases (inserted : insertJob now id request jobs = .ok after) :
    jobs.get id = none ∧ after = jobs.set id (queuedJob now request) ∧
      ∀ key other, jobs.get key = some other → other.Live → (queuedJob now request).resource.isSome = true →
        other.resource ≠ (queuedJob now request).resource := by
  unfold insertJob at inserted
  dsimp only at inserted
  split at inserted
  · cases inserted
  · rename_i unknown
    split at inserted
    · cases inserted
    · rename_i unique
      cases inserted
      refine ⟨?_,rfl,?_⟩
      · cases found : jobs.get id with
        | none => rfl
        | some job => exact absurd (by rw [KeyMap.contains,found]; rfl) unknown
      · intro key other found live some same
        exact unique (any_iff.mpr ⟨key,other,found,decide_eq_true ⟨live,some,same⟩⟩)

theorem insert_consistent {after : Table} (inserted : insertJob now id request sys.jobs = .ok after) (consistent : Consistent sys) :
    Consistent {sys with jobs := after} := by
  obtain ⟨unknown,rfl,unique⟩ := insert_cases inserted
  have none := consistent.fresh id unknown
  refine ⟨?_,?_,?_⟩
  · intro key row found
    by_cases same : key = id
    · subst same
      rw [get_set_self] at found
      cases found
      refine ⟨⟨fun held => (nomatch held),fun running => (nomatch running)⟩,Nat.zero_le _,?_,fun running => (nomatch running)⟩
      rw [none]
      rfl
    · rw [get_set_ne same] at found
      exact consistent.rows key row found
  · intro key absent
    by_cases same : key = id
    · subst same
      exact none
    · rw [get_set_ne same] at absent
      exact consistent.fresh key absent
  · intro a b row row' first second live live' some same
    by_cases left : a = id
    · by_cases right : b = id
      · exact left.trans right.symm
      · subst left
        rw [get_set_self] at first
        rw [get_set_ne right] at second
        cases first
        exact absurd same.symm (unique b row' second live' some)
    · by_cases right : b = id
      · subst right
        rw [get_set_ne left] at first
        rw [get_set_self] at second
        cases second
        rw [same] at some
        exact absurd same (unique a row first live some)
      · rw [get_set_ne left] at first
        rw [get_set_ne right] at second
        exact consistent.index a b row row' first second live live' some same

-- What one event does to the table: nothing, an INSERT, a claim, or an UPDATE.
inductive Fired (sys next : System) : Prop where
  | idle (jobs : next.jobs = sys.jobs) (claims : next.claims = sys.claims)
  | insert (now : Int) (id : String) (request : EnqueueRequest) (inserted : insertJob now id request sys.jobs = .ok next.jobs)
      (claims : next.claims = sys.claims)
  | claim (now : Int) (id workerId : String) (job : BackgroundJob) (present : sys.jobs.get id = some job)
      (claimable : job.Claimable) (jobs : next.jobs = sys.jobs.set id (claimed now workerId job))
      (claims : next.claims = sys.claims ++ [(id,workerId)])
  | update (statement : Statement) (jobs : next.jobs = (statement.update.run sys.jobs).1) (claims : next.claims = sys.claims)

variable {next : System}

theorem advance_cases (ran : advance now jobId jobs phase = some (phase',after)) :
    after = jobs ∨ ∃ request, phase = .inserting request ∧ insertJob now jobId request jobs = .ok after := by
  cases phase with
  | counting request =>
    simp only [advance] at ran
    split at ran
    · cases ran; exact .inl rfl
    · split at ran
      · cases ran; exact .inl rfl
      · cases ran; exact .inl rfl
  | looking request =>
    simp only [advance] at ran
    split at ran
    · split at ran
      · cases ran; exact .inl rfl
      · cases ran; exact .inl rfl
    · cases ran; exact .inl rfl
  | inserting request =>
    simp only [advance] at ran
    split at ran
    · rename_i inserted
      cases ran
      exact .inr ⟨request,rfl,inserted⟩
    · cases ran; exact .inl rfl
  | done result => cases ran

theorem step_cases (fired : step sys e = some next) : Fired sys next := by
  cases e with
  | enqueue request => cases fired; exact .idle rfl rfl
  | advance task now jobId =>
    simp only [step] at fired
    split at fired
    · cases fired
    · split at fired
      · cases fired
      · rename_i ran
        cases fired
        rcases advance_cases ran with same | ⟨request,_,inserted⟩
        · exact .idle same rfl
        · exact .insert now jobId request inserted rfl
  | claim now workerId skipped =>
    rcases claim_cases now workerId skipped sys.jobs with nothing | ⟨id,job,present,claimable,handed⟩
    · simp only [step,nothing] at fired
      cases fired
      exact .idle rfl rfl
    · simp only [step,handed] at fired
      cases fired
      exact .claim now id workerId job present claimable rfl rfl
  | update statement =>
    cases fired
    exact .update statement rfl rfl

theorem Consistent.same (consistent : Consistent sys) (jobs : next.jobs = sys.jobs) (claims : next.claims = sys.claims) :
    Consistent next := by
  obtain ⟨rows,fresh,index⟩ := consistent
  rw [← jobs,← claims] at rows fresh
  rw [← jobs] at index
  exact ⟨rows,fresh,index⟩

theorem step_consistent (consistent : Consistent sys) (fired : step sys e = some next) : Consistent next := by
  cases step_cases fired with
  | idle jobs claims => exact consistent.same jobs claims
  | insert now id request inserted claims => exact (insert_consistent inserted consistent).same rfl claims
  | claim now id workerId job present claimable jobs claims =>
    exact (claim_consistent now workerId present claimable consistent).same jobs claims
  | update statement jobs claims => exact (update_consistent (statement_orderly statement _) consistent).same jobs claims

theorem step_final (present : sys.jobs.get id = some job) (ended : ¬job.Live) (fired : step sys e = some next) :
    next.jobs.get id = some job := by
  cases step_cases fired with
  | idle jobs claims => rw [jobs]; exact present
  | insert now key request inserted claims =>
    obtain ⟨unknown,after,_⟩ := insert_cases inserted
    have other : id ≠ key := by
      intro same
      rw [same,unknown] at present
      cases present
    rw [after,get_set_ne other]
    exact present
  | claim now key workerId row found claimable jobs claims =>
    have other : id ≠ key := by
      intro same
      rw [same,found] at present
      cases present
      exact ended (.inl claimable.1)
    rw [jobs,get_set_ne other]
    exact present
  | update statement jobs claims =>
    have kept : statement.update.guard id job ≠ true := fun guard => ended (statement_moves guard).live
    rw [jobs]
    simp only [Update.run,get_mapEntries,present,map_some,kept]
    rfl

def HandsOut (sys next : System) : Prop :=
  next.claims = sys.claims ∨ ∃ id workerId job after, next.claims = sys.claims ++ [(id,workerId)] ∧
    sys.jobs.get id = some job ∧ job.status = .queued ∧ job.lockedBy = none ∧
    next.jobs.get id = some after ∧ after.status = .running ∧ after.lockedBy = some workerId ∧
    ∀ other, other ≠ id → next.jobs.get other = sys.jobs.get other

theorem step_hands_out (consistent : Consistent sys) (fired : step sys e = some next) : HandsOut sys next := by
  cases step_cases fired with
  | idle jobs claims => exact .inl claims
  | insert now id request inserted claims => exact .inl claims
  | update statement jobs claims => exact .inl claims
  | claim now id workerId job present claimable jobs claims =>
    have unlocked : job.lockedBy = none := by
      cases held : job.lockedBy with
      | none => rfl
      | some worker =>
        have running := (consistent.rows id job present).locked.mp (by rw [held]; rfl)
        rw [claimable.1] at running
        cases running
    refine .inr ⟨id,workerId,job,claimed now workerId job,claims,present,claimable.1,unlocked,?_,rfl,rfl,?_⟩
    · rw [jobs,get_set_self]
    · intro other ne
      rw [jobs,get_set_ne ne]

theorem empty_consistent : Consistent empty := by
  refine ⟨?_,?_,?_⟩
  · intro id job found
    cases found
  · intro id absent
    rfl
  · intro a b job other found
    cases found

theorem queue_invariants (ran : Schedule.run step empty events = some sys) :
    Consistent sys ∧ ∀ e next, step sys e = some next →
      HandsOut sys next ∧ ∀ id job, sys.jobs.get id = some job → ¬job.Live → next.jobs.get id = some job := by
  have consistent : Consistent sys :=
    Schedule.run_preserves (fun _ _ _ held fired => step_consistent held fired) empty_consistent ran
  refine ⟨consistent,?_⟩
  intro e next fired
  exact ⟨step_hands_out consistent fired,fun id job present ended => step_final present ended fired⟩

def encodeRequest : EnqueueRequest := ⟨"u",.hlsEncode,"Encode",some "file",some "f","{}"⟩

def retriedRun : List Event :=
  [.enqueue encodeRequest,.advance 0 0 "j",.advance 0 0 "j",.advance 0 0 "j",.claim 1 "w1" [],
   .update (.failJob 2 "j" "spool missing"),.claim 3 "w2" [],.update (.completeJob 4 "j")]

theorem queue_invariants_retried : ∃ sys, Schedule.run step empty retriedRun = some sys ∧
    sys.claims = [("j","w1"),("j","w2")] ∧ (sys.jobs.get "j").map BackgroundJob.status = some .complete ∧
    Consistent sys := by
  obtain ⟨sys,ran,shown⟩ := map_eq_some_iff.mp (by decide : (Schedule.run step empty retriedRun).map
    (fun sys => (sys.claims,(sys.jobs.get "j").map BackgroundJob.status)) =
      some ([("j","w1"),("j","w2")],some .complete))
  obtain ⟨claims,status⟩ := Prod.mk.inj shown
  exact ⟨sys,ran,claims,status,(queue_invariants ran).1⟩

end Ownly.Jobs
