import Ownly.Jobs.Enqueue

-- recover_stale_queued_jobs of backend/src/jobs/recovery.rs: the rows that have waited too long
-- go to the front of the queue, one by one.
namespace Ownly.Jobs
open List

def queuedRows (jobs : Table) : List (String × BackgroundJob) := rows jobs (fun _ job => decide (job.status = .queued))

-- `COALESCE(MIN(b.created_at), now()) - INTERVAL '1 second'` over the queued rows.
def queueFront (now : Int) (jobs : Table) : Int := (((queuedRows jobs).map (fun row => row.2.createdAt)).min?).getD now - 1

def restartQueued (now : Int) (jobs : Table) (jobId payload : String) : Update :=
  ⟨fun id job => decide (id = jobId ∧ job.status = .queued),
   fun job => {job with
     progress := 0
     updatedAt := now
     createdAt := queueFront now jobs
     payload := payload
     error := job.error <|> some "restarted after prolonged queue wait"}⟩

def staleQueued (now staleMinutes : Int) (jobs : Table) : List (String × BackgroundJob) :=
  rows jobs (fun _ job => decide (job.status = .queued ∧ job.createdAt < now - clampMinutes staleMinutes * 60))

-- A sweep with the rows in the order in which its SELECT, which asks for none, returns them.
-- What refresh_queued_job_payload finds on the disk decides the payloads.
structure Sweep where
  now : Int
  staleMinutes : Int
  refresh : BackgroundJob → String
  fetched : List (String × BackgroundJob)

def restartRows (now : Int) (refresh : BackgroundJob → String) : List (String × BackgroundJob) → Table → Table × Nat
  | [],jobs => (jobs,0)
  | (id,job) :: rest,jobs =>
    let result := (restartQueued now jobs id (refresh job)).run jobs
    let others := restartRows now refresh rest result.1
    (others.1,(if 0 < result.2 then 1 else 0) + others.2)

def Sweep.recoverStaleQueuedJobs (sweep : Sweep) (jobs : Table) : Table × Nat :=
  restartRows sweep.now sweep.refresh sweep.fetched jobs

def Before (jobs : Table) (first second : String) : Prop :=
  ∃ job other, jobs.get first = some job ∧ jobs.get second = some other ∧ job.Claimable ∧ other.Claimable ∧
    job.createdAt < other.createdAt

def Stale (sweep : Sweep) (jobs : Table) (id : String) : Prop :=
  id ∈ (staleQueued sweep.now sweep.staleMinutes jobs).map Prod.fst

def Sweeps : List Sweep → Table → Prop
  | [],_ => True
  | sweep :: rest,jobs => sweep.fetched.Perm (staleQueued sweep.now sweep.staleMinutes jobs) ∧
      Sweeps rest (sweep.recoverStaleQueuedJobs jobs).1

def tables : List Sweep → Table → List Table
  | [],jobs => [jobs]
  | sweep :: rest,jobs => jobs :: tables rest (sweep.recoverStaleQueuedJobs jobs).1

def Fair : List Sweep → Table → Prop
  | [],_ => True
  | sweep :: rest,jobs =>
    (∀ after ∈ tables rest (sweep.recoverStaleQueuedJobs jobs).1, ∀ i j, Stale sweep jobs i → Stale sweep jobs j →
      Before jobs i j → Before after i j) ∧ Fair rest (sweep.recoverStaleQueuedJobs jobs).1

def NewestFirst : List Sweep → Table → Prop
  | [],_ => True
  | sweep :: rest,jobs => (sweep.fetched.map Prod.fst).Pairwise (fun i j => ¬Before jobs i j) ∧
      NewestFirst rest (sweep.recoverStaleQueuedJobs jobs).1

section
variable {now : Int} {refresh : BackgroundJob → String} {jobs : Table} {fetched : List (String × BackgroundJob)}
variable {i j id payload : String} {job other : BackgroundJob} {sweep : Sweep}

theorem queueFront_lt (present : jobs.get id = some job) (queued : job.status = .queued) : queueFront now jobs < job.createdAt := by
  have member : job.createdAt ∈ (queuedRows jobs).map (fun row => row.2.createdAt) :=
    mem_map.mpr ⟨(id,job),mem_rows.mpr ⟨present,by simp [queued]⟩,rfl⟩
  unfold queueFront
  cases least : ((queuedRows jobs).map (fun row => row.2.createdAt)).min? with
  | none => simp [min?_eq_none_iff.mp least] at member
  | some front =>
    have under := (min?_eq_some_iff.mp least).2 _ member
    simp only [Option.getD_some]
    omega

theorem restartQueued_row (now : Int) (payload : String) (present : jobs.get id = some job) (queued : job.status = .queued) :
    ∃ moved, ((restartQueued now jobs id payload).run jobs).1.get id = some moved ∧ moved.createdAt = queueFront now jobs ∧
      moved.status = .queued ∧ (moved.Claimable ↔ job.Claimable) := by
  refine ⟨(restartQueued now jobs id payload).set job,?_,rfl,queued,Iff.rfl⟩
  simp [Update.run,present,restartQueued,queued]

theorem restartQueued_other (other : i ≠ id) : ((restartQueued now jobs id payload).run jobs).1.get i = jobs.get i := by
  simp [Update.run,restartQueued,other]

def Queued (jobs : Table) (fetched : List (String × BackgroundJob)) : Prop :=
  ∀ row ∈ fetched, ∃ job, jobs.get row.1 = some job ∧ job.status = .queued

theorem restartRows_other (absent : i ∉ fetched.map Prod.fst) : (restartRows now refresh fetched jobs).1.get i = jobs.get i := by
  induction fetched generalizing jobs with
  | nil => rfl
  | cons row rest ih =>
    simp only [map_cons,mem_cons,not_or] at absent
    simp only [restartRows]
    rw [ih absent.2,restartQueued_other absent.1]

theorem Queued.tail {row : String × BackgroundJob} (queued : Queued jobs (row :: fetched)) :
    Queued ((restartQueued now jobs row.1 payload).run jobs).1 fetched := by
  intro entry member
  obtain ⟨job,present,waiting⟩ := queued entry (mem_cons_of_mem _ member)
  by_cases same : entry.1 = row.1
  · obtain ⟨moved,found,-,still,-⟩ := restartQueued_row now payload present waiting
    exact ⟨moved,same ▸ found,still⟩
  · exact ⟨job,(restartQueued_other same).trans present,waiting⟩

theorem restartRows_claimable (now : Int) (refresh : BackgroundJob → String) (queued : Queued jobs fetched) (present : jobs.get i = some job) :
    ∃ moved, (restartRows now refresh fetched jobs).1.get i = some moved ∧ (moved.Claimable ↔ job.Claimable) := by
  induction fetched generalizing jobs job with
  | nil => exact ⟨job,present,Iff.rfl⟩
  | cons row rest ih =>
    simp only [restartRows]
    by_cases same : i = row.1
    · subst i
      obtain ⟨own,found,waiting⟩ := queued row mem_cons_self
      cases present.symm.trans found
      obtain ⟨moved,placed,-,-,claimable⟩ := restartQueued_row now (refresh row.2) present waiting
      obtain ⟨last,final,kept⟩ := ih queued.tail placed
      exact ⟨last,final,kept.trans claimable⟩
    · exact ih queued.tail ((restartQueued_other same).trans present)

theorem restartRows_ahead (now : Int) (refresh : BackgroundJob → String) (queued : Queued jobs fetched) (member : i ∈ fetched.map Prod.fst) (absent : j ∉ fetched.map Prod.fst)
    (present : jobs.get j = some other) (waiting : other.status = .queued) :
    ∃ moved, (restartRows now refresh fetched jobs).1.get i = some moved ∧ moved.createdAt < other.createdAt := by
  induction fetched generalizing jobs with
  | nil => cases member
  | cons row rest ih =>
    simp only [map_cons,mem_cons,not_or] at member absent
    simp only [restartRows]
    by_cases later : i ∈ rest.map Prod.fst
    · exact ih queued.tail later absent.2 ((restartQueued_other absent.1).trans present)
    · obtain rfl : i = row.1 := member.resolve_right later
      obtain ⟨own,found,queue⟩ := queued row mem_cons_self
      obtain ⟨moved,placed,front,-,-⟩ := restartQueued_row now (refresh row.2) found queue
      exact ⟨moved,(restartRows_other later).trans placed,front ▸ queueFront_lt present waiting⟩

theorem restartRows_reversed (now : Int) (refresh : BackgroundJob → String) (queued : Queued jobs fetched) (distinct : (fetched.map Prod.fst).Nodup) :
    (fetched.map Prod.fst).Pairwise (fun i j => ∃ a b, (restartRows now refresh fetched jobs).1.get i = some a ∧
      (restartRows now refresh fetched jobs).1.get j = some b ∧ b.createdAt < a.createdAt) := by
  induction fetched generalizing jobs with
  | nil => exact List.Pairwise.nil
  | cons row rest ih =>
    obtain ⟨fresh,distinct⟩ := nodup_cons.mp distinct
    refine pairwise_cons.mpr ⟨?_,ih queued.tail distinct⟩
    intro j member
    obtain ⟨own,found,waiting⟩ := queued row mem_cons_self
    obtain ⟨moved,placed,-,still,-⟩ := restartQueued_row now (refresh row.2) found waiting
    obtain ⟨last,final,less⟩ := restartRows_ahead now refresh queued.tail member fresh placed still
    exact ⟨moved,last,(restartRows_other fresh).trans placed,final,less⟩

end

section
variable {jobs : Table} {sweep : Sweep} {i j : String}

theorem either_way {α : Type} {R : α → α → Prop} {l : List α} {a b : α} (pairs : l.Pairwise R) (ha : a ∈ l) (hb : b ∈ l) (different : a ≠ b) :
    R a b ∨ R b a := by
  have symmetric : Std.Symm (fun a b => R a b ∨ R b a) := ⟨fun _ _ => Or.symm⟩
  exact (pairs.imp Or.inl : l.Pairwise (fun a b => R a b ∨ R b a)).forall ha hb different

section
variable (legal : sweep.fetched.Perm (staleQueued sweep.now sweep.staleMinutes jobs))
include legal

theorem fetched_queued : Queued jobs sweep.fetched := by
  intro row member
  obtain ⟨present,kept⟩ := mem_rows.mp (legal.mem_iff.mp member)
  exact ⟨row.2,present,(of_decide_eq_true kept).1⟩

theorem fetched_nodup : (sweep.fetched.map Prod.fst).Nodup := by
  apply (legal.map Prod.fst).nodup_iff.mpr
  simpa [staleQueued,rows,map_map,Function.comp_def] using (filter_sublist.map Sigma.fst).nodup jobs.nodupKeys

theorem fetched_stale :
    i ∈ sweep.fetched.map Prod.fst ↔ Stale sweep jobs i := (legal.map Prod.fst).mem_iff

end

theorem Before.stale (before : Before jobs i j) (stale : Stale sweep jobs j) : Stale sweep jobs i := by
  obtain ⟨job,other,present,found,claimable,-,less⟩ := before
  obtain ⟨⟨_,row⟩,member,rfl⟩ := mem_map.mp stale
  obtain ⟨own,kept⟩ := mem_rows.mp member
  cases found.symm.trans own
  exact mem_map.mpr ⟨(i,job),mem_rows.mpr ⟨present,decide_eq_true ⟨claimable.1,less.trans (of_decide_eq_true kept).2⟩⟩,rfl⟩

theorem Before.asymm (before : Before jobs i j) : ¬Before jobs j i := by
  obtain ⟨_,_,present,found,-,-,less⟩ := before
  rintro ⟨_,_,found',present',-,-,more⟩
  cases present.symm.trans present'
  cases found.symm.trans found'
  exact lt_asymm less more

theorem Before.kept (legal : sweep.fetched.Perm (staleQueued sweep.now sweep.staleMinutes jobs))
    (newest : (sweep.fetched.map Prod.fst).Pairwise (fun i j => ¬Before jobs i j)) (before : Before jobs i j) :
    Before (sweep.recoverStaleQueuedJobs jobs).1 i j := by
  have queued := fetched_queued legal
  obtain ⟨job,other,present,found,claimable,claimable',less⟩ := id before
  obtain ⟨first,placed,kept⟩ := restartRows_claimable sweep.now sweep.refresh queued present
  obtain ⟨second,placed',kept'⟩ := restartRows_claimable sweep.now sweep.refresh queued found
  refine ⟨first,second,placed,placed',kept.mpr claimable,kept'.mpr claimable',?_⟩
  by_cases later : j ∈ sweep.fetched.map Prod.fst
  · have earlier := (fetched_stale legal).mpr (before.stale ((fetched_stale legal).mp later))
    have reversed := (restartRows_reversed sweep.now sweep.refresh queued (fetched_nodup legal)).and newest
    have different : i ≠ j := by
      rintro rfl
      exact before.asymm before
    rcases either_way reversed earlier later different with ⟨-,sooner⟩ | ⟨⟨_,_,own,own',front⟩,-⟩
    · exact absurd before sooner
    · cases placed'.symm.trans own
      cases placed.symm.trans own'
      exact front
  · have still : second = other := Option.some.inj (placed'.symm.trans ((restartRows_other later).trans found))
    by_cases earlier : i ∈ sweep.fetched.map Prod.fst
    · obtain ⟨moved,ahead,under⟩ := restartRows_ahead sweep.now sweep.refresh queued earlier later found claimable'.1
      cases placed.symm.trans ahead
      exact still ▸ under
    · cases placed.symm.trans ((restartRows_other earlier).trans present)
      exact still ▸ less

theorem Before.kept_run {sweeps : List Sweep} {after : Table} (legal : Sweeps sweeps jobs) (newest : NewestFirst sweeps jobs)
    (before : Before jobs i j) (reached : after ∈ tables sweeps jobs) : Before after i j := by
  induction sweeps generalizing jobs with
  | nil => exact mem_singleton.mp reached ▸ before
  | cons sweep rest ih =>
    rcases mem_cons.mp reached with rfl | later
    · exact before
    · exact ih legal.2 newest.2 (before.kept legal.1 newest.1) later

theorem tables_head (sweeps : List Sweep) (jobs : Table) : jobs ∈ tables sweeps jobs := by
  cases sweeps <;> exact mem_cons_self

theorem newest_of_kept (legal : sweep.fetched.Perm (staleQueued sweep.now sweep.staleMinutes jobs))
    (kept : ∀ i j, Stale sweep jobs i → Stale sweep jobs j → Before jobs i j → Before (sweep.recoverStaleQueuedJobs jobs).1 i j) :
    (sweep.fetched.map Prod.fst).Pairwise (fun i j => ¬Before jobs i j) := by
  refine (restartRows_reversed sweep.now sweep.refresh (fetched_queued legal) (fetched_nodup legal)).imp_of_mem ?_
  rintro i j hi hj ⟨a,b,placed,placed',less⟩ before
  obtain ⟨_,_,own,own',-,-,more⟩ := kept i j ((fetched_stale legal).mp hi) ((fetched_stale legal).mp hj) before
  cases placed.symm.trans own
  cases placed'.symm.trans own'
  exact lt_asymm less more

end

-- Over every run of sweeps: the claims of stale rows come in the order they had, if and only if
-- each sweep is given its rows from the newest to the oldest.
theorem sweeps_fair_iff (sweeps : List Sweep) (jobs : Table) (legal : Sweeps sweeps jobs) : Fair sweeps jobs ↔ NewestFirst sweeps jobs := by
  induction sweeps generalizing jobs with
  | nil => exact Iff.rfl
  | cons sweep rest ih =>
    have others := ih _ legal.2
    constructor
    · rintro ⟨fair,later⟩
      exact ⟨newest_of_kept legal.1 (fun i j stale stale' => fair _ (tables_head rest _) i j stale stale'),others.mp later⟩
    · rintro ⟨newest,later⟩
      refine ⟨?_,others.mpr later⟩
      intro after reached i j _ _ before
      exact (before.kept legal.1 newest).kept_run legal.2 later reached

def waiting (createdAt : Int) : BackgroundJob :=
  {queuedJob createdAt ⟨"u1",.zipBulk,"",none,none,"{}"⟩ with createdAt := createdAt}

def twoWaiting : Table := (KeyMap.empty.set "a" (waiting 0)).set "b" (waiting 1)

def sweepOf (fetched : List (String × BackgroundJob)) : Sweep := ⟨600,1,BackgroundJob.payload,fetched⟩

theorem twoWaiting_a : twoWaiting.get "a" = some (waiting 0) := by decide

theorem twoWaiting_b : twoWaiting.get "b" = some (waiting 1) := by decide

theorem newest_first_fair : Fair [sweepOf [("b",waiting 1),("a",waiting 0)]] twoWaiting := by
  have legal : Sweeps [sweepOf [("b",waiting 1),("a",waiting 0)]] twoWaiting := ⟨by decide,trivial⟩
  refine (sweeps_fair_iff _ _ legal).mpr ⟨pairwise_pair.mpr ?_,trivial⟩
  rintro ⟨_,_,present,found,-,-,less⟩
  cases twoWaiting_b.symm.trans present
  cases twoWaiting_a.symm.trans found
  exact absurd less (by decide)

theorem oldest_first_reverses : ¬∀ sweeps jobs, Sweeps sweeps jobs → Fair sweeps jobs := by
  intro fair
  have legal : Sweeps [sweepOf [("a",waiting 0),("b",waiting 1)]] twoWaiting := ⟨by decide,trivial⟩
  have newest := newest_of_kept legal.1 (fun i j stale stale' => (fair _ _ legal).1 _ (tables_head _ _) i j stale stale')
  exact pairwise_pair.mp newest ⟨_,_,twoWaiting_a,twoWaiting_b,by decide,by decide,by decide⟩

end Ownly.Jobs
