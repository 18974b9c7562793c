import Ownly.Jobs.Queue
import Ownly.Lib.KeyTotal
import Ownly.Lib.Slots

-- enqueue_job under races: its count, its lookup and its INSERT are three statements,
-- and the queue moves on between them.
namespace Ownly.Jobs
open List Option KeyMap
variable {sys next called final : System} {e : Event} {events left right : List Event} {now : Int}
  {request : EnqueueRequest} {phase : EnqueuePhase} {job : BackgroundJob} {jobs after : Table} {jobId userId : String}
  {rt rid : String} {kind : JobKind}

def EnqueueRequest.resource (request : EnqueueRequest) : Option (JobKind × String × String) :=
  match request.resourceType,request.resourceId with
  | some rt,some rid => some (request.kind,rt,rid)
  | _,_ => none

def Active (request : EnqueueRequest) (jobId : String) (sys : System) : Prop :=
  ∃ job, sys.jobs.get jobId = some job ∧ job.Live ∧ job.resource = request.resource

instance (request : EnqueueRequest) (jobId : String) (sys : System) : Decidable (Active request jobId sys) :=
  match found : sys.jobs.get jobId with
  | none => .isFalse (fun ⟨_,present,_⟩ => by rw [found] at present; cases present)
  | some job => decidable_of_iff (job.Live ∧ job.resource = request.resource)
      ⟨fun holds => ⟨job,found,holds⟩,fun ⟨other,present,holds⟩ => by
        rw [found] at present
        cases present
        exact holds⟩

def Answered (task : Nat) (sys : System) : Prop :=
  match sys.enqueues[task]? with
  | some (.done _) => True
  | _ => False

instance (task : Nat) (sys : System) : Decidable (Answered task sys) := by
  unfold Answered
  split
  · exact .isTrue trivial
  · exact .isFalse id

-- A call on a resource that has one job all the while, from its first statement to its answer.
structure Retry (events : List Event) where
  left : List Event
  request : EnqueueRequest
  right : List Event
  jobId : String
  before : System
  called : System
  final : System
  result : Except AppError String
  split : events = left ++ .enqueue request :: right
  reached : Schedule.run step empty left = some before
  began : step before (.enqueue request) = some called
  ended : Schedule.run step called right = some final
  about : request.resource.isSome = true
  stays : Schedule.Along step (fun sys _ => ¬Answered before.enqueues.length sys → Active request jobId sys) called right
  answered : final.enqueues[before.enqueues.length]? = some (.done result)

def Retry.task {events : List Event} (retry : Retry events) : Nat := retry.before.enqueues.length

def BelowCap (task : Nat) (request : EnqueueRequest) (sys : System) : Event → Prop
  | .advance other _ _ => other = task → sys.enqueues[task]? = some (.counting request) →
    queuedCount sys.jobs request.userId < maxQueuedJobsPerUser
  | _ => True

def Admitted (sys : System) : Event → Prop
  | .advance task now jobId => ∀ request jobs, sys.enqueues[task]? = some (.inserting request) →
    insertJob now jobId request sys.jobs = .ok jobs → queuedCount sys.jobs request.userId < maxQueuedJobsPerUser
  | _ => True

def Capped (sys : System) : Prop := ∀ userId, queuedCount sys.jobs userId ≤ maxQueuedJobsPerUser

def Bounded (sys : System) (e : Event) : Prop := ∀ next, step sys e = some next → Capped next

def share (userId : String) (_ : String) (job : BackgroundJob) : Int := if job.userId = userId ∧ job.Live then 1 else 0

theorem queuedCount_total (jobs : Table) (userId : String) : (queuedCount jobs userId : Int) = jobs.total (share userId) := by
  obtain ⟨entries,distinct⟩ := jobs
  unfold queuedCount rows KeyMap.total
  rw [length_map]
  dsimp only
  clear distinct
  induction entries with
  | nil => rfl
  | cons entry rest ih =>
    rw [map_cons,sum_cons,← ih,share]
    by_cases counts : entry.2.userId = userId ∧ entry.2.Live
    · rw [filter_cons,if_pos (decide_eq_true counts),if_pos counts,length_cons]
      omega
    · rw [filter_cons,decide_eq_false counts,if_neg Bool.false_ne_true,if_neg counts]
      omega

theorem insert_count (inserted : insertJob now jobId request jobs = .ok after) (userId : String) :
    queuedCount after userId = queuedCount jobs userId + if request.userId = userId then 1 else 0 := by
  obtain ⟨unknown,rfl,_⟩ := insert_cases inserted
  have sum := total_insert (v := queuedJob now request) (f := share userId) unknown
  rw [← queuedCount_total,← queuedCount_total] at sum
  have live : (queuedJob now request).Live := .inl rfl
  have own : share userId jobId (queuedJob now request) = if request.userId = userId then 1 else 0 := by
    unfold share
    by_cases mine : request.userId = userId
    · rw [if_pos mine,if_pos ⟨mine,live⟩]
    · rw [if_neg mine,if_neg (fun both => mine both.1)]
  rw [own] at sum
  split at sum
  · rw [if_pos (by assumption)]
    omega
  · rw [if_neg (by assumption)]
    omega

theorem statement_user (statement : Statement) (job : BackgroundJob) :
    (statement.update.set job).userId = job.userId := by
  cases statement with
  | _ => rfl

theorem claim_count {workerId : String} (present : jobs.get jobId = some job) (claimable : job.Claimable) (userId : String) :
    queuedCount (jobs.set jobId (claimed now workerId job)) userId = queuedCount jobs userId := by
  have sum := total_set (w := claimed now workerId job) (f := share userId) present
  rw [← queuedCount_total,← queuedCount_total] at sum
  have live : job.Live := .inl claimable.1
  have live' : (claimed now workerId job).Live := .inr rfl
  have same : share userId jobId (claimed now workerId job) = share userId jobId job := by
    by_cases mine : job.userId = userId
    · exact (if_pos (show (claimed now workerId job).userId = userId ∧ _ from ⟨mine,live'⟩)).trans (if_pos ⟨mine,live⟩).symm
    · exact (if_neg (show ¬((claimed now workerId job).userId = userId ∧ _) from fun both => mine both.1)).trans
        (if_neg (fun both => mine both.1)).symm
  rw [same] at sum
  omega

theorem update_count (statement : Statement) (jobs : Table) (userId : String) :
    queuedCount (statement.update.run jobs).1 userId ≤ queuedCount jobs userId := by
  have less : (statement.update.run jobs).1.total (share userId) ≤ jobs.total (share userId) := by
    rw [Update.run,total_mapEntries]
    apply total_mono
    intro id job present
    split
    · rename_i guard
      have live := (statement_moves guard).live
      unfold share
      rw [statement_user]
      by_cases mine : job.userId = userId
      · rw [if_pos (show job.userId = userId ∧ job.Live from ⟨mine,live⟩)]
        split
        · exact le_refl _
        · decide
      · rw [if_neg (fun both => mine both.1),if_neg (fun both => mine both.1)]
    · exact le_refl _
  rw [← queuedCount_total,← queuedCount_total] at less
  omega

theorem bounded_exact (capped : Capped sys) : Bounded sys e ↔ Admitted sys e := by
  constructor
  · intro bounded
    cases e with
    | advance task now jobId =>
      intro request jobs inserting inserted
      have fired : step sys (.advance task now jobId) =
          some {sys with jobs := jobs,enqueues := sys.enqueues.set task (.done (.ok jobId))} := by
        simp only [step,inserting,advance,inserted]
      have after := bounded _ fired request.userId
      rw [insert_count inserted,if_pos rfl] at after
      omega
    | _ => trivial
  · intro admitted next fired userId
    have before := capped userId
    cases e with
    | enqueue request => cases fired; exact before
    | advance task now jobId =>
      simp only [step] at fired
      split at fired
      · cases fired
      · rename_i phase found
        split at fired
        · cases fired
        · rename_i ran
          cases fired
          rcases advance_cases ran with rfl | ⟨request,rfl,inserted⟩
          · exact before
          · have below := admitted request _ found inserted
            rw [insert_count inserted]
            split
            · rename_i mine
              rw [mine] at below
              omega
            · omega
    | claim now workerId skipped =>
      rcases claim_cases now workerId skipped sys.jobs with nothing | ⟨id,job,present,claimable,handed⟩
      · simp only [step,nothing] at fired
        cases fired
        exact before
      · simp only [step,handed] at fired
        cases fired
        rw [claim_count present claimable]
        exact before
    | update statement =>
      cases fired
      exact Nat.le_trans (update_count statement sys.jobs userId) before

theorem first_none {before : BackgroundJob → BackgroundJob → Bool} {entries : List (String × BackgroundJob)}
    (missing : first before entries = none) : entries = [] := by
  cases entries with
  | nil => rfl
  | cons entry rest =>
    unfold first at missing
    split at missing
    · cases missing
    · split at missing
      · cases missing
      · cases missing

theorem resource_exact : job.resource = some (kind,rt,rid) ↔
    job.kind = kind ∧ job.resourceType = some rt ∧ job.resourceId = some rid := by
  unfold BackgroundJob.resource
  constructor
  · intro same
    split at same
    · rename_i a b first second
      cases same
      exact ⟨rfl,first,second⟩
    · cases same
  · rintro ⟨rfl,first,second⟩
    rw [first,second]

theorem findActiveJob_exact (consistent : Consistent sys)
    (present : sys.jobs.get jobId = some job) (live : job.Live) (about : job.resource = some (kind,rt,rid)) :
    ∃ found, findActiveJob sys.jobs kind rt rid = some (jobId,found) := by
  have mine := resource_exact.mp about
  have listed : (jobId,job) ∈ rows sys.jobs (fun _ job => decide (job.kind = kind ∧ job.resourceType = some rt ∧
      job.resourceId = some rid ∧ job.Live)) :=
    mem_rows.mpr ⟨present,decide_eq_true ⟨mine.1,mine.2.1,mine.2.2,live⟩⟩
  unfold findActiveJob
  cases picked : first (fun other job => decide (job.createdAt < other.createdAt)) (rows sys.jobs _) with
  | none =>
    rw [first_none picked] at listed
    cases listed
  | some entry =>
    obtain ⟨id,other⟩ := entry
    obtain ⟨present',holds⟩ := mem_rows.mp (first_mem picked)
    obtain ⟨kind',rt',rid',live'⟩ := of_decide_eq_true holds
    have same := consistent.index id jobId other job present' present live' live
      (by rw [resource_exact.mpr ⟨kind',rt',rid'⟩]; rfl) ((resource_exact.mpr ⟨kind',rt',rid'⟩).trans about.symm)
    rw [same]
    exact ⟨other,rfl⟩

theorem step_enqueue {task : Nat} (fired : step sys e = some next) (here : sys.enqueues[task]? = some phase) :
    (next.enqueues[task]? = some phase ∧ ∀ now jobId, e ≠ .advance task now jobId) ∨
    ∃ now jobId phase', e = .advance task now jobId ∧ advance now jobId sys.jobs phase = some (phase',next.jobs) ∧
      next.enqueues[task]? = some phase' := by
  obtain ⟨inside,_⟩ := List.getElem?_eq_some_iff.mp here
  cases e with
  | enqueue request =>
    cases fired
    exact .inl ⟨by rw [getElem?_append_left inside]; exact here,fun _ _ same => by cases same⟩
  | advance other now jobId =>
    simp only [step] at fired
    split at fired
    · cases fired
    · rename_i found present
      split at fired
      · cases fired
      · rename_i moved table ran
        cases fired
        by_cases same : other = task
        · subst same
          rw [here] at present
          cases present
          exact .inr ⟨now,jobId,moved,rfl,ran,getElem?_set_self inside⟩
        · refine .inl ⟨?_,?_⟩
          · rw [getElem?_set_ne same]
            exact here
          · intro _ _ equal
            cases equal
            exact same rfl
  | claim now workerId skipped =>
    rcases claim_cases now workerId skipped sys.jobs with nothing | ⟨id,job,_,_,handed⟩
    · simp only [step,nothing] at fired
      cases fired
      exact .inl ⟨here,fun _ _ same => by cases same⟩
    · simp only [step,handed] at fired
      cases fired
      exact .inl ⟨here,fun _ _ same => by cases same⟩
  | update statement =>
    cases fired
    exact .inl ⟨here,fun _ _ same => by cases same⟩

section call
variable {task : Nat} {result : Except AppError String}

theorem done_kept {answer : Except AppError String} (here : sys.enqueues[task]? = some (.done answer))
    (ended : Schedule.run step sys right = some final) : final.enqueues[task]? = some (.done answer) := by
  refine Schedule.run_preserves (motive := fun sys => sys.enqueues[task]? = some (.done answer)) ?_ here ended
  intro sys e next here fired
  rcases step_enqueue fired here with ⟨kept,_⟩ | ⟨now,jobId,phase,_,ran,_⟩
  · exact kept
  · cases ran

theorem looking_finds (consistent : Consistent sys) (here : sys.enqueues[task]? = some (.looking request))
    (typed : request.resourceType = some rt) (named : request.resourceId = some rid)
    (stays : Schedule.Along step (fun sys _ => ¬Answered task sys → Active request jobId sys) sys right)
    (ended : Schedule.run step sys right = some final) (answered : final.enqueues[task]? = some (.done result)) :
    result = .ok jobId := by
  induction right generalizing sys with
  | nil =>
    cases Schedule.run_nil ended
    rw [here] at answered
    cases answered
  | cons e rest ih =>
    obtain ⟨next,fired,ended⟩ := Schedule.run_cons ended
    rcases step_enqueue fired here with ⟨kept,_⟩ | ⟨now,id,phase,_,ran,moved⟩
    · exact ih (step_consistent consistent fired) kept (stays.2 next fired) ended
    · obtain ⟨job,present,live,about⟩ := stays.1 (by rw [Answered,here]; exact fun no => no)
      have about : job.resource = some (request.kind,rt,rid) := by rw [about,EnqueueRequest.resource,typed,named]
      obtain ⟨found,looked⟩ := findActiveJob_exact consistent present live about
      simp only [advance,typed,named,looked] at ran
      obtain ⟨rfl,_⟩ := Prod.mk.inj (Option.some.inj ran)
      have last := done_kept moved ended
      rw [last] at answered
      cases answered
      rfl

theorem advance_past {moved : EnqueuePhase} (ran : advance now jobId jobs phase = some (moved,after))
    (asked : EnqueueRequest) : moved ≠ .counting asked := by
  intro counting
  rw [counting] at ran
  cases phase with
  | counting request =>
    simp only [advance] at ran
    split at ran
    · cases ran
    · split at ran
      · cases ran
      · cases ran
  | looking request =>
    simp only [advance] at ran
    split at ran
    · split at ran
      · cases ran
      · cases ran
    · cases ran
  | inserting request =>
    simp only [advance] at ran
    split at ran
    · cases ran
    · cases ran
  | done result => cases ran

theorem past_belowCap (here : sys.enqueues[task]? = some phase) (past : ∀ asked, phase ≠ .counting asked) :
    Schedule.Along step (BelowCap task request) sys right := by
  refine Schedule.along_of (motive := fun sys => ∃ phase, sys.enqueues[task]? = some phase ∧
    ∀ asked, phase ≠ .counting asked) ?_ ?_ ⟨phase,here,past⟩
  · rintro sys e ⟨phase,here,past⟩
    cases e with
    | advance other now jobId =>
      intro _ counting
      rw [here] at counting
      cases counting
      exact absurd rfl (past request)
    | _ => trivial
  · rintro sys e next ⟨phase,here,past⟩ fired
    rcases step_enqueue fired here with ⟨kept,_⟩ | ⟨now,jobId,moved,_,ran,there⟩
    · exact ⟨phase,kept,past⟩
    · exact ⟨moved,there,advance_past ran⟩

theorem counting_exact (consistent : Consistent sys) (here : sys.enqueues[task]? = some (.counting request))
    (typed : request.resourceType = some rt) (named : request.resourceId = some rid)
    (stays : Schedule.Along step (fun sys _ => ¬Answered task sys → Active request jobId sys) sys right)
    (ended : Schedule.run step sys right = some final) (answered : final.enqueues[task]? = some (.done result)) :
    result = .ok jobId ↔ Schedule.Along step (BelowCap task request) sys right := by
  induction right generalizing sys with
  | nil =>
    cases Schedule.run_nil ended
    rw [here] at answered
    cases answered
  | cons e rest ih =>
    obtain ⟨next,fired,onward⟩ := Schedule.run_cons ended
    have later := step_consistent consistent fired
    have along : Schedule.Along step (BelowCap task request) sys (e :: rest) ↔
        BelowCap task request sys e ∧ Schedule.Along step (BelowCap task request) next rest := by
      refine ⟨fun along => ⟨along.1,along.2 next fired⟩,fun both => ⟨both.1,?_⟩⟩
      intro other same
      rw [fired] at same
      cases same
      exact both.2
    rw [along]
    rcases step_enqueue fired here with ⟨kept,idle⟩ | ⟨now,id,phase,rfl,ran,moved⟩
    · have free : BelowCap task request sys e := by
        cases e with
        | advance other now id =>
          intro same
          exact absurd (by rw [same]) (idle now id)
        | _ => trivial
      rw [ih later kept (stays.2 next fired) onward]
      exact ⟨fun along => ⟨free,along⟩,And.right⟩
    · simp only [advance] at ran
      split at ran
      · rename_i reached
        obtain ⟨rfl,_⟩ := Prod.mk.inj (Option.some.inj ran)
        rw [done_kept moved onward] at answered
        cases answered
        exact ⟨fun ok => (by cases ok),fun both => absurd (both.1 rfl here) (Nat.not_lt.mpr reached)⟩
      · rename_i below
        rw [typed,named] at ran
        obtain ⟨rfl,_⟩ := Prod.mk.inj (Option.some.inj ran)
        have found := looking_finds later moved typed named (stays.2 next fired) onward answered
        exact ⟨fun _ => ⟨fun _ _ => Nat.lt_of_not_le below,past_belowCap moved (fun _ same => by cases same)⟩,fun _ => found⟩

end call

theorem capped_empty : Capped empty := fun _ => Nat.zero_le _

-- A call on a resource with one job in it all the while answers with that job exactly
-- if it counts less than the cap, and no user gets past the cap exactly if every INSERT
-- finds its user below it.
theorem enqueue_exact (events : List Event) :
    (∀ retry : Retry events, retry.result = .ok retry.jobId ↔
      Schedule.Along step (BelowCap retry.task retry.request) retry.called retry.right) ∧
    (Schedule.Along step Bounded empty events ↔ Schedule.Along step Admitted empty events) := by
  constructor
  · intro retry
    have about := retry.about
    unfold EnqueueRequest.resource at about
    split at about
    · rename_i rt rid typed named
      have consistent := (queue_invariants retry.reached).1
      have counting : retry.called.enqueues[retry.task]? = some (.counting retry.request) := by
        rw [← Option.some.inj retry.began]
        exact getElem?_concat_length
      exact counting_exact (step_consistent consistent retry.began) counting typed named retry.stays retry.ended retry.answered
    · cases about
  · refine Schedule.along_congr (motive := Capped) (fun _ _ capped => bounded_exact capped) ?_ capped_empty
    intro sys e next capped admitted fired
    exact (bounded_exact capped).mpr admitted next fired

def archiveId (n : Nat) : String := String.ofList [Char.ofNat (n + 48)]

def archived (n : Nat) : List Event :=
  [.enqueue ⟨"u",.zipBulk,"Zip",none,none,"{}"⟩,.advance n 0 "",.advance n 0 (archiveId n)]

def fullRun : List Event :=
  [.enqueue encodeRequest,.advance 0 0 "",.advance 0 0 "",.advance 0 0 "0"] ++
    (List.range 63).flatMap (fun n => archived (n + 1))

def crowdRun : List Event :=
  (List.range 65).flatMap (fun n => [.enqueue ⟨"u",.zipBulk,"Zip",none,none,"{}"⟩,.advance n 0 ""]) ++
    (List.range 65).map (fun n => .advance n 0 (archiveId n))

set_option maxRecDepth 20000 in
theorem enqueue_unlawful :
    (¬∀ (events : List Event) (retry : Retry events), retry.result = .ok retry.jobId) ∧
    ¬∀ events, Schedule.Along step Bounded empty events := by
  constructor
  · intro all
    obtain ⟨before,reached,shown⟩ := map_eq_some_iff.mp (by decide +kernel :
      (Schedule.run step empty fullRun).map (fun sys =>
        (decide (Active encodeRequest "0" sys),queuedCount sys.jobs "u",sys.enqueues.length)) = some (true,64,64))
    obtain ⟨active,rest⟩ := Prod.mk.inj shown
    obtain ⟨count,tasks⟩ := Prod.mk.inj rest
    let called : System := {before with enqueues := before.enqueues ++ [.counting encodeRequest]}
    let final : System := {called with enqueues := called.enqueues.set before.enqueues.length (.done (.error (.rateLimited 60)))}
    have here : called.enqueues[before.enqueues.length]? = some (.counting encodeRequest) := getElem?_concat_length
    have refused : advance 0 "" called.jobs (.counting encodeRequest) = some (.done (.error (.rateLimited 60)),called.jobs) :=
      if_pos (Nat.le_of_eq count.symm)
    have fired : step called (.advance before.enqueues.length 0 "") = some final := by
      simp only [step,here,refused]
      rfl
    have inside : before.enqueues.length < called.enqueues.length := (List.getElem?_eq_some_iff.mp here).1
    have answer : (.error (.rateLimited 60) : Except AppError String) = .ok "0" := all _ {
      left := fullRun
      request := encodeRequest
      right := [.advance before.enqueues.length 0 ""]
      jobId := "0"
      before := before
      called := called
      final := final
      result := .error (.rateLimited 60)
      split := rfl
      reached := reached
      began := rfl
      ended := by rw [Schedule.run,fired]; rfl
      about := rfl
      stays := ⟨fun _ => of_decide_eq_true active,fun _ _ => trivial⟩
      answered := getElem?_set_self inside}
    cases answer
  · intro all
    obtain ⟨sys,ran,count⟩ := map_eq_some_iff.mp (by decide +kernel :
      (Schedule.run step empty crowdRun).map (fun sys => queuedCount sys.jobs "u") = some 65)
    have capped : Capped sys := Schedule.run_along (fun _ e next _ bounded fired => bounded next fired) capped_empty
      (all crowdRun) ran
    have cap := capped "u"
    rw [count] at cap
    exact absurd cap (by decide)

end Ownly.Jobs
