import Ownly.Lib.Slots
import Ownly.Uploads.Quota

-- What keeps used and reserved bytes within the quota while several calls charge one
-- user: no call may insert on sums that others have added to.
namespace Ownly.Uploads.Quota
open Option KeyMap

def Within (quota : Int) (owner : String) (sys : System) : Prop :=
  usedBytes sys.files owner + reservedBytes sys.sessions owner ≤ quota

instance (quota : Int) (owner : String) (sys : System) : Decidable (Within quota owner sys) :=
  inferInstanceAs (Decidable (_ ≤ quota))

def Task.stale (task : Task) : Bool :=
  match task.phase with
  | .inserting (some _) => task.missed
  | _ => false

-- A call that charges the user and inserts its row has counted every row inserted before.
def Current (owner : String) (sys : System) : Event → Prop
  | .advance i _ => ∀ task ∈ sys.tasks[i]?, task.call.owner = owner → task.stale = false
  | _ => True

instance (owner : String) (sys : System) : ∀ e, Decidable (Current owner sys e)
  | .advance i _ => inferInstanceAs (Decidable (∀ task ∈ sys.tasks[i]?, task.call.owner = owner → task.stale = false))
  | .create _ _ _ _ _ _ _ => .isTrue trivial
  | .complete _ _ _ _ _ _ _ => .isTrue trivial
  | .fail _ _ => .isTrue trivial
  | .drop _ => .isTrue trivial

def Phase.marked : Phase → Bool
  | .counting => true
  | .summing _ _ => true
  | .inserting _ => true
  | .completing => true
  | .reverting _ => true
  | _ => false

-- What a session that some completion has marked can have become.
def Settled (session : SessionRow) : Prop := session.status.InFlight ∨ session.quotaReservedBytes ≤ 0

def Marked (sessions : KeyMap String SessionRow) (sessionId : String) : Prop :=
  ∀ session, sessions.get sessionId = some session → Settled session

variable {files files' : KeyMap String FileRow} {sessions sessions' : KeyMap String SessionRow} {owner charged key : String}
  {session session' : SessionRow} {file : FileRow} {quota used reserved incoming : Int} {sys next : System} {task other : Task}
  {call : Call} {phase : Phase} {i j : Nat} {directory : Directory}

theorem used_insert (fresh : files.get key = none) :
    usedBytes (files.set key file) owner = usedBytes files owner + fileShare owner file := by
  rw [usedBytes,total_insert fresh,usedBytes,Int.add_comm]

theorem reserved_insert (fresh : sessions.get key = none) :
    reservedBytes (sessions.set key session) owner = reservedBytes sessions owner + reservedShare owner session := by
  rw [reservedBytes,total_insert fresh,reservedBytes,Int.add_comm]

theorem reserved_set (found : sessions.get key = some session) (less : reservedShare owner session' ≤ reservedShare owner session) :
    reservedBytes (sessions.set key session') owner ≤ reservedBytes sessions owner := by
  rw [reservedBytes,total_set found,reservedBytes]
  omega

theorem share_nonneg : 0 ≤ reservedShare owner session := by
  unfold reservedShare
  split
  · rename_i reserves
    exact Int.le_of_lt reserves.2.2
  · exact Int.le_refl 0

theorem share_marked (marked : session.markCompleting now userId = some session') :
    reservedShare owner session' = reservedShare owner session ∧ Settled session' := by
  unfold SessionRow.markCompleting at marked
  split at marked
  · rename_i active
    cases marked
    refine ⟨?_,.inl (.inr rfl)⟩
    simp only [reservedShare,Status.InFlight,active.2,or_true,true_or]
  · cases marked

theorem share_reactivated (settled : Settled session) :
    reservedShare owner (session.reactivated now) ≤ reservedShare owner session := by
  rcases settled with flying | empty
  · exact Int.le_of_eq (by simp only [reservedShare,SessionRow.reactivated,Status.InFlight,true_or,true_and,
      show session.status = .active ∨ session.status = .completing from flying])
  · have none : reservedShare owner (session.reactivated now) = 0 :=
      if_neg (fun reserves => Int.not_lt.mpr empty reserves.2.2)
    rw [none]
    exact share_nonneg

theorem share_complete : reservedShare owner (session.markComplete now) ≤ reservedShare owner session := by
  have none : reservedShare owner (session.markComplete now) = 0 := if_neg (fun reserves => Int.lt_irrefl 0 reserves.2.2)
  rw [none]
  exact share_nonneg

theorem marked_set {id : String} (marked : Marked sessions id) (settled : Settled session') : Marked (sessions.set key session') id := by
  intro session found
  rw [get_set] at found
  split at found
  · cases found
    exact settled
  · exact marked session found

structure Checked (quota : Int) (owner : String) (sys : System) (task : Task) : Prop where
  counting : task.phase = .counting → 0 < task.call.incoming
  summing : ∀ read used, task.phase = .summing read used → 0 < task.call.incoming ∧
    (task.call.owner = owner → read = quota ∧ (task.missed = false → usedBytes sys.files owner ≤ used))
  passed : ∀ read, task.phase = .inserting (some read) → task.call.owner = owner → task.missed = false →
    usedBytes sys.files owner + reservedBytes sys.sessions owner + task.call.incoming ≤ quota
  free : task.phase = .inserting none → task.call.incoming ≤ 0
  marked : ∀ sessionId userId fileId file, task.call = .complete sessionId userId fileId file → task.phase.marked = true →
    Marked sys.sessions sessionId

structure Bounded (quota : Int) (owner : String) (sys : System) : Prop where
  within : Within quota owner sys
  tasks : ∀ (i : Nat) (task : Task), sys.tasks[i]? = some task → Checked quota owner sys task

theorem Checked.carry (checked : Checked quota owner sys task)
    (used : task.call.owner = owner → task.missed = false → task.phase.hasCounted = true →
      usedBytes next.files owner ≤ usedBytes sys.files owner)
    (reserved : task.call.owner = owner → task.missed = false → task.phase.hasSummed = true →
      reservedBytes next.sessions owner ≤ reservedBytes sys.sessions owner)
    (marked : ∀ id, Marked sys.sessions id → Marked next.sessions id) : Checked quota owner next task := by
  refine ⟨checked.counting,?_,?_,checked.free,?_⟩
  · intro read sum summing
    obtain ⟨positive,bound⟩ := checked.summing read sum summing
    refine ⟨positive,?_⟩
    intro charges
    obtain ⟨same,bound⟩ := bound charges
    refine ⟨same,?_⟩
    intro seen
    exact Int.le_trans (used charges seen (by rw [summing]; rfl)) (bound seen)
  · intro read inserting charges seen
    have bound := checked.passed read inserting charges seen
    have used := used charges seen (by rw [inserting]; rfl)
    have reserved := reserved charges seen (by rw [inserting]; rfl)
    omega
  · intro sessionId userId fileId file call past
    exact marked sessionId (checked.marked sessionId userId fileId file call past)

theorem Checked.overtaken (checked : Checked quota owner sys task)
    (marked : ∀ id, Marked sys.sessions id → Marked next.sessions id) :
    Checked quota owner next {task with missed := true} := by
  refine ⟨checked.counting,?_,?_,checked.free,?_⟩
  · intro read sum summing
    obtain ⟨positive,bound⟩ := checked.summing read sum summing
    exact ⟨positive,fun charges => ⟨(bound charges).1,fun seen => nomatch seen⟩⟩
  · intro read inserting charges seen
    cases seen
  · intro sessionId userId fileId file call past
    exact marked sessionId (checked.marked sessionId userId fileId file call past)

theorem checked_done (past : task.phase.marked = false) : Checked quota owner sys task := by
  refine ⟨?_,?_,?_,?_,?_⟩
  · intro same
    rw [same] at past
    cases past
  · intro read sum same
    rw [same] at past
    cases past
  · intro read same
    rw [same] at past
    cases past
  · intro same
    rw [same] at past
    cases past
  · intro sessionId userId fileId file _ same
    rw [same] at past
    cases past

-- Behind the checks only the session matters.
def Phase.settles : Phase → Bool
  | .completing => true
  | .reverting _ => true
  | .done _ => true
  | .dropped => true
  | _ => false

theorem checked_settles (settles : phase.settles = true)
    (marked : ∀ sessionId userId fileId file, task.call = .complete sessionId userId fileId file →
      Marked sys.sessions sessionId) : Checked quota owner sys {task with phase := phase} := by
  refine ⟨?_,?_,?_,?_,?_⟩
  · intro same
    rw [show phase = .counting from same] at settles
    cases settles
  · intro read sum same
    rw [show phase = .summing read sum from same] at settles
    cases settles
  · intro read same
    rw [show phase = .inserting (some read) from same] at settles
    cases settles
  · intro same
    rw [show phase = .inserting none from same] at settles
    cases settles
  · intro sessionId userId fileId file call _
    exact marked sessionId userId fileId file call

theorem failing_settles (call : Call) (error : AppError) : (call.failing error).settles = true := by
  cases call with
  | create _ _ _ _ _ _ _ => rfl
  | complete _ _ _ _ => rfl

section
variable (bounded : Bounded quota owner sys)
include bounded

theorem Bounded.moved
    (reserved : reservedBytes sessions owner ≤ reservedBytes sys.sessions owner)
    (marked : ∀ id, Marked sys.sessions id → Marked sessions id)
    (checked : Checked quota owner ⟨sys.files,sessions,sys.tasks⟩ {task with phase := phase}) :
    Bounded quota owner ⟨sys.files,sessions,sys.tasks.set i {task with phase := phase}⟩ := by
  refine ⟨?_,?_⟩
  · have within := bounded.within
    unfold Within at within ⊢
    dsimp only
    omega
  · intro j other present
    rcases Slots.set_cases present with ⟨_,rfl⟩ | ⟨_,old⟩
    · exact checked.carry (fun _ _ _ => Int.le_refl _) (fun _ _ _ => Int.le_refl _) (fun _ marked => marked)
    · exact (bounded.tasks j other old).carry (fun _ _ _ => Int.le_refl _) (fun _ _ _ => reserved) marked

theorem Bounded.inserted (reads : Phase → Bool)
    (within : usedBytes files owner + reservedBytes sessions owner ≤ quota)
    (used : ∀ phase : Phase, phase.hasCounted = true → (charged = owner → reads phase = false) →
      usedBytes files owner ≤ usedBytes sys.files owner)
    (reserved : ∀ phase : Phase, phase.hasSummed = true → (charged = owner → reads phase = false) →
      reservedBytes sessions owner ≤ reservedBytes sys.sessions owner)
    (marked : ∀ id, Marked sys.sessions id → Marked sessions id)
    (checked : Checked quota owner ⟨files,sessions,sys.tasks⟩ {task with phase := phase}) :
    Bounded quota owner ⟨files,sessions,(overtake charged reads sys.tasks).set i {task with phase := phase}⟩ := by
  refine ⟨within,?_⟩
  intro j other present
  rcases Slots.set_cases present with ⟨_,rfl⟩ | ⟨_,old⟩
  · exact checked.carry (fun _ _ _ => Int.le_refl _) (fun _ _ _ => Int.le_refl _) (fun _ marked => marked)
  · rw [overtake,List.getElem?_map] at old
    obtain ⟨before,found,same⟩ := map_eq_some_iff.mp old
    have checked := bounded.tasks j before found
    split at same
    · cases same
      exact checked.overtaken marked
    · rename_i ahead
      cases same
      have unread : other.call.owner = owner → charged = owner → reads other.phase = false := by
        intro charges same
        cases read : reads other.phase with
        | false => rfl
        | true => exact absurd ⟨charges.trans same.symm,read⟩ ahead
      exact checked.carry (fun charges _ counted => used other.phase counted (unread charges))
        (fun charges _ summed => reserved other.phase summed (unread charges)) marked

theorem Bounded.still (checked : Checked quota owner sys {task with phase := phase}) :
    Bounded quota owner {sys with tasks := sys.tasks.set i {task with phase := phase}} :=
  bounded.moved (Int.le_refl _) (fun _ marked => marked) checked

end

theorem Checked.settled (checked : Checked quota owner sys task) (past : task.phase.marked = true) :
    ∀ sessionId userId fileId file, task.call = .complete sessionId userId fileId file → Marked sys.sessions sessionId :=
  fun sessionId userId fileId file call => checked.marked sessionId userId fileId file call past

theorem bigint_ok {x y : Int} (read : bigint y = .ok x) : x = y := by
  unfold bigint at read
  split at read
  · cases read
    rfl
  · cases read

theorem countUsed_ok (counted : countUsed directory files owner = .ok phase) :
    ∃ quota, resolveUserQuotaBytes directory owner = .ok quota ∧ phase = .summing quota (usedBytes files owner) := by
  unfold countUsed at counted
  cases resolved : resolveUserQuotaBytes directory owner with
  | error e =>
    rw [resolved] at counted
    cases counted
  | ok quota =>
    rw [resolved] at counted
    cases loaded : loadUserUsedBytes files owner with
    | error e =>
      rw [loaded] at counted
      cases counted
    | ok used =>
      rw [loaded] at counted
      cases counted
      exact ⟨quota,rfl,by rw [bigint_ok loaded]⟩

theorem ensureWithinQuota_ok (positive : 0 < incoming) (finite : quota < i64Max)
    (ensured : ensureWithinQuota quota used reserved incoming = .ok ()) : used + reserved + incoming ≤ quota := by
  unfold ensureWithinQuota at ensured
  split at ensured
  · cases ensured
  · rename_i enough
    simp only [saturating,i64Max] at enough finite
    omega

theorem sumReserved_ok (summed : sumReserved sessions owner quota used incoming = .ok phase) :
    phase = .inserting (some (used,reservedBytes sessions owner)) ∧
      ensureWithinQuota quota used (reservedBytes sessions owner) incoming = .ok () := by
  unfold sumReserved at summed
  cases loaded : loadUserReservedBytes sessions owner with
  | error e =>
    rw [loaded] at summed
    cases summed
  | ok reserved =>
    rw [loaded] at summed
    dsimp only at summed
    have same := bigint_ok loaded
    subst same
    cases ensured : ensureWithinQuota quota used (reservedBytes sessions owner) incoming with
    | error e =>
      rw [ensured] at summed
      cases summed
    | ok _ =>
      rw [ensured] at summed
      cases summed
      exact ⟨rfl,rfl⟩

theorem Bounded.rewritten (bounded : Bounded quota owner sys) (found : sys.sessions.get key = some session)
    (less : reservedShare owner session' ≤ reservedShare owner session) (settled : Settled session')
    (checked : Checked quota owner ⟨sys.files,sys.sessions.set key session',sys.tasks⟩ {task with phase := phase}) :
    Bounded quota owner ⟨sys.files,sys.sessions.set key session',sys.tasks.set i {task with phase := phase}⟩ :=
  bounded.moved (reserved_set found less) (fun _ marked => marked_set marked settled) checked

section Statements
variable {now : Int} {id sessionId userId fileId fileOwnerId : String} {isVideo : Bool} {totalSize chunkSize : Int}
  {contentHash : Option String} {read : Option (Int × Int)}

theorem finalize_checked (call : task.call = .complete sessionId userId fileId file) (marked : Marked sys.sessions sessionId) :
    Checked quota owner sys {task with phase := finalize file.sizeBytes} := by
  have settled : ∀ sessionId userId fileId file, task.call = .complete sessionId userId fileId file →
      Marked sys.sessions sessionId := by
    intro _ _ _ _ same
    rw [call] at same
    cases same
    exact marked
  have incoming : task.call.incoming = file.sizeBytes := by rw [call]; rfl
  unfold finalize
  split
  · exact checked_settles rfl settled
  · split
    · rename_i negative
      refine ⟨fun same => (nomatch same),fun _ _ same => (nomatch same),fun _ same => (nomatch same),?_,?_⟩
      · intro _
        rw [incoming]
        exact Int.le_of_lt negative
      · intro sessionId userId fileId file same _
        exact settled sessionId userId fileId file same
    · refine ⟨?_,fun _ _ same => (nomatch same),fun _ same => (nomatch same),fun same => (nomatch same),?_⟩
      · intro _
        rw [incoming]
        omega
      · intro sessionId userId fileId file same _
        exact settled sessionId userId fileId file same

theorem marking_bounded (bounded : Bounded quota owner sys) (call : task.call = .complete sessionId userId fileId file)
    (ran : advance directory now sys (.complete sessionId userId fileId file) .marking = some (phase,next)) :
    Bounded quota owner {next with tasks := next.tasks.set i {task with phase := phase}} := by
  dsimp only [advance] at ran
  cases marked : (sys.sessions.get sessionId).bind (SessionRow.markCompleting now userId) with
  | none =>
    rw [marked] at ran
    cases ran
    exact bounded.still (checked_done rfl)
  | some session' =>
    rw [marked] at ran
    cases ran
    obtain ⟨session,found,marks⟩ := bind_eq_some_iff.mp marked
    obtain ⟨share,settled⟩ : reservedShare owner session' = reservedShare owner session ∧ Settled session' :=
      share_marked marks
    refine bounded.rewritten found (Int.le_of_eq share) settled (finalize_checked call ?_)
    intro session again
    rw [get_set_self] at again
    cases again
    exact settled

theorem counting_bounded (resolved : resolveUserQuotaBytes directory owner = .ok quota) (bounded : Bounded quota owner sys)
    (checked : Checked quota owner sys task) (before : task.phase = .counting)
    (ran : advance directory now sys task.call .counting = some (phase,next)) :
    Bounded quota owner {next with tasks := next.tasks.set i {task with phase := phase}} := by
  dsimp only [advance] at ran
  have settled := checked.settled (by rw [before]; rfl)
  cases counted : countUsed directory sys.files task.call.owner with
  | error e =>
    rw [counted] at ran
    cases ran
    exact bounded.still (checked_settles (failing_settles task.call e) settled)
  | ok after =>
    rw [counted] at ran
    cases ran
    obtain ⟨found,limit,rfl⟩ := countUsed_ok counted
    refine bounded.still ⟨fun same => (nomatch same),?_,fun _ same => (nomatch same),fun same => (nomatch same),?_⟩
    · intro read used same
      cases same
      refine ⟨checked.counting before,?_⟩
      intro charges
      rw [show task.call.owner = owner from charges] at limit ⊢
      rw [resolved] at limit
      cases limit
      exact ⟨rfl,fun _ => Int.le_refl _⟩
    · intro sessionId userId fileId file call _
      exact settled sessionId userId fileId file call

theorem summing_bounded (finite : quota < i64Max) (bounded : Bounded quota owner sys) (checked : Checked quota owner sys task)
    (before : task.phase = .summing limit used)
    (ran : advance directory now sys task.call (.summing limit used) = some (phase,next)) :
    Bounded quota owner {next with tasks := next.tasks.set i {task with phase := phase}} := by
  dsimp only [advance] at ran
  have settled := checked.settled (by rw [before]; rfl)
  obtain ⟨positive,bound⟩ := checked.summing limit used before
  cases summed : sumReserved sys.sessions task.call.owner limit used task.call.incoming with
  | error e =>
    rw [summed] at ran
    cases ran
    exact bounded.still (checked_settles (failing_settles task.call e) settled)
  | ok after =>
    rw [summed] at ran
    cases ran
    obtain ⟨rfl,ensured⟩ := sumReserved_ok summed
    refine bounded.still ⟨fun same => (nomatch same),fun _ _ same => (nomatch same),?_,fun same => (nomatch same),?_⟩
    · intro read _ charges seen
      obtain ⟨same,fresh⟩ := bound charges
      subst same
      have enough := ensureWithinQuota_ok positive finite ensured
      have fresh := fresh seen
      rw [show task.call.owner = owner from charges] at enough
      dsimp only
      omega
    · intro sessionId userId fileId file call _
      exact settled sessionId userId fileId file call

theorem Checked.fits (checked : Checked quota owner sys task) (within : Within quota owner sys)
    (before : task.phase = .inserting read) (current : task.call.owner = owner → task.stale = false)
    (charges : task.call.owner = owner) :
    usedBytes sys.files owner + reservedBytes sys.sessions owner + max task.call.incoming 0 ≤ quota := by
  unfold Within at within
  cases read with
  | none =>
    have free := checked.free before
    omega
  | some read =>
    have seen : task.missed = false := by
      have current := current charges
      rw [Task.stale,before] at current
      exact current
    have passed := checked.passed read before charges seen
    omega

theorem share_inserted (ne : fileOwnerId ≠ owner) :
    reservedShare owner (insertSession now id userId fileOwnerId isVideo totalSize chunkSize contentHash) = 0 :=
  if_neg (fun reserves => ne reserves.1)

theorem share_insert_le :
    reservedShare owner (insertSession now id userId fileOwnerId isVideo totalSize chunkSize contentHash) ≤ max totalSize 0 := by
  unfold reservedShare
  split
  · exact Int.le_max_left _ _
  · exact Int.le_max_right _ _

section
variable (bounded : Bounded quota owner sys) (checked : Checked quota owner sys task)
variable (current : task.call.owner = owner → task.stale = false) (before : task.phase = .inserting read)
include bounded checked current before

theorem creating_bounded (call : task.call = .create id userId fileOwnerId isVideo totalSize chunkSize contentHash)
    (ran : advance directory now sys (.create id userId fileOwnerId isVideo totalSize chunkSize contentHash) (.inserting read) =
      some (phase,next)) :
    Bounded quota owner {next with tasks := next.tasks.set i {task with phase := phase}} := by
  dsimp only [advance] at ran
  cases found : sys.sessions.get id with
  | some _ =>
    rw [found] at ran
    cases ran
    exact bounded.still (checked_done rfl)
  | none =>
    rw [found] at ran
    cases ran
    refine bounded.inserted Phase.hasSummed ?_ (fun _ _ _ => Int.le_refl _) ?_ ?_ (checked_done rfl)
    · dsimp only
      rw [reserved_insert found]
      by_cases charges : fileOwnerId = owner
      · have fits := checked.fits bounded.within before current (by rw [call]; exact charges)
        have incoming : task.call.incoming = totalSize := by rw [call]; rfl
        rw [incoming] at fits
        have share : reservedShare owner (insertSession now id userId fileOwnerId isVideo totalSize chunkSize contentHash) ≤
            max totalSize 0 := share_insert_le
        omega
      · have within := bounded.within
        unfold Within at within
        rw [share_inserted charges]
        omega
    · intro phase summed ahead
      rw [reserved_insert found,share_inserted (fun same => by rw [ahead same] at summed; cases summed)]
      exact Int.le_of_eq (Int.add_zero _)
    · intro _ marked
      exact marked_set marked (.inl (.inl rfl))

theorem filing_bounded (call : task.call = .complete sessionId userId fileId file)
    (ran : advance directory now sys (.complete sessionId userId fileId file) (.inserting read) = some (phase,next)) :
    Bounded quota owner {next with tasks := next.tasks.set i {task with phase := phase}} := by
  dsimp only [advance] at ran
  have settled := checked.settled (by rw [before]; rfl)
  cases found : sys.files.get fileId with
  | some _ =>
    rw [found] at ran
    cases ran
    exact bounded.still (checked_settles rfl settled)
  | none =>
    rw [found] at ran
    cases ran
    refine bounded.inserted Phase.hasCounted ?_ ?_ (fun _ _ _ => Int.le_refl _) (fun _ marked => marked)
      (checked_settles rfl settled)
    · dsimp only
      rw [used_insert found]
      by_cases charges : file.userId = owner
      · have fits := checked.fits bounded.within before current (by rw [call]; exact charges)
        have incoming : task.call.incoming = file.sizeBytes := by rw [call]; rfl
        have share : fileShare owner file = file.sizeBytes := if_pos charges
        rw [incoming] at fits
        omega
      · have within := bounded.within
        have share : fileShare owner file = 0 := if_neg charges
        unfold Within at within
        omega
    · intro phase counted ahead
      have share : fileShare owner file = 0 := if_neg (fun same => by rw [ahead same] at counted; cases counted)
      rw [used_insert found,share]
      exact Int.le_of_eq (Int.add_zero _)

end

theorem completing_bounded (bounded : Bounded quota owner sys)
    (ran : advance directory now sys (.complete sessionId userId fileId file) .completing = some (phase,next)) :
    Bounded quota owner {next with tasks := next.tasks.set i {task with phase := phase}} := by
  dsimp only [advance] at ran
  cases found : sys.sessions.get sessionId with
  | none =>
    rw [found] at ran
    cases ran
    exact bounded.still (checked_done rfl)
  | some session =>
    rw [found] at ran
    cases ran
    exact bounded.rewritten found share_complete (.inr (Int.le_refl 0)) (checked_done rfl)

theorem reverting_bounded (bounded : Bounded quota owner sys) (marked : Marked sys.sessions sessionId)
    (ran : advance directory now sys (.complete sessionId userId fileId file) (.reverting e) = some (phase,next)) :
    Bounded quota owner {next with tasks := next.tasks.set i {task with phase := phase}} := by
  dsimp only [advance] at ran
  cases found : sys.sessions.get sessionId with
  | none =>
    rw [found] at ran
    cases ran
    exact bounded.still (checked_done rfl)
  | some session =>
    rw [found] at ran
    cases ran
    exact bounded.rewritten found (share_reactivated (marked session found)) (.inl (.inl rfl)) (checked_done rfl)

theorem advance_bounded (resolved : resolveUserQuotaBytes directory owner = .ok quota) (finite : quota < i64Max)
    (bounded : Bounded quota owner sys) (found : sys.tasks[i]? = some task)
    (current : task.call.owner = owner → task.stale = false)
    (ran : advance directory now sys task.call task.phase = some (phase,next)) :
    Bounded quota owner {next with tasks := next.tasks.set i {task with phase := phase}} := by
  have checked := bounded.tasks i task found
  obtain ⟨call,was,missed⟩ := task
  cases was with
  | marking =>
    cases call with
    | create _ _ _ _ _ _ _ => cases ran
    | complete _ _ _ _ => exact marking_bounded bounded rfl ran
  | counting => exact counting_bounded resolved bounded checked rfl ran
  | summing limit used => exact summing_bounded finite bounded checked rfl ran
  | inserting read =>
    cases call with
    | create _ _ _ _ _ _ _ => exact creating_bounded bounded checked current rfl rfl ran
    | complete _ _ _ _ => exact filing_bounded bounded checked current rfl rfl ran
  | completing =>
    cases call with
    | create _ _ _ _ _ _ _ => cases ran
    | complete _ _ _ _ => exact completing_bounded bounded ran
  | reverting e =>
    cases call with
    | create _ _ _ _ _ _ _ => cases ran
    | complete sessionId userId fileId file => exact reverting_bounded bounded (checked.marked sessionId userId fileId file rfl rfl) ran
  | done result => cases ran
  | dropped => cases ran

theorem failed_bounded (bounded : Bounded quota owner sys) (found : sys.tasks[i]? = some task)
    (ran : failed task.call error task.phase = some phase) :
    Bounded quota owner {sys with tasks := sys.tasks.set i {task with phase := phase}} := by
  have checked := bounded.tasks i task found
  obtain ⟨call,was,missed⟩ := task
  cases was with
  | marking | reverting _ =>
    cases ran
    exact bounded.still (checked_done rfl)
  | done _ | dropped => cases ran
  | counting | summing _ _ | inserting _ | completing =>
    cases ran
    exact bounded.still (checked_settles (failing_settles call error) (checked.settled rfl))

theorem beginCreate_checked : Checked quota owner sys
    ⟨.create id userId fileOwnerId isVideo totalSize chunkSize contentHash,beginCreate totalSize,false⟩ := by
  unfold beginCreate
  split
  · exact checked_done rfl
  · rename_i positive
    refine ⟨fun _ => Int.not_le.mp positive,fun _ _ same => (nomatch same),fun _ same => (nomatch same),
      fun same => (nomatch same),fun _ _ _ _ same => (nomatch same)⟩

theorem beginComplete_past (now : Int) (userId : String) (refusal : Option AppError) (session : Option SessionRow) :
    (beginComplete now userId refusal session).marked = false := by
  cases session with
  | none => rfl
  | some session =>
    dsimp only [beginComplete]
    split
    · rfl
    · generalize ensureSessionActive now session = active
      cases active with
      | error e => rfl
      | ok _ =>
        cases refusal with
        | some e => rfl
        | none => rfl

theorem begin_bounded (bounded : Bounded quota owner sys) (checked : Checked quota owner sys task) :
    Bounded quota owner {sys with tasks := sys.tasks ++ [task]} := by
  refine ⟨bounded.within,?_⟩
  intro j other present
  rcases Slots.append_cases present with ⟨_,rfl⟩ | old
  · exact checked.carry (fun _ _ _ => Int.le_refl _) (fun _ _ _ => Int.le_refl _) (fun _ marked => marked)
  · exact (bounded.tasks j other old).carry (fun _ _ _ => Int.le_refl _) (fun _ _ _ => Int.le_refl _) (fun _ marked => marked)

theorem step_bounded (resolved : resolveUserQuotaBytes directory owner = .ok quota) (finite : quota < i64Max)
    (bounded : Bounded quota owner sys) (current : Current owner sys e) (fired : step directory sys e = some next) :
    Bounded quota owner next := by
  cases e with
  | create id userId fileOwnerId isVideo totalSize chunkSize contentHash =>
    cases fired
    exact begin_bounded bounded beginCreate_checked
  | complete now sessionId userId fileId fileOwnerId spooled refusal =>
    cases fired
    exact begin_bounded bounded (checked_done (beginComplete_past _ _ _ _))
  | advance i now =>
    obtain ⟨task,phase,after,found,ran,rfl⟩ := step_advance fired
    exact advance_bounded resolved finite bounded found (current task found) ran
  | fail i error =>
    obtain ⟨task,phase,found,ran,rfl⟩ := step_fail fired
    exact failed_bounded bounded found ran
  | drop i =>
    obtain ⟨task,found,rfl⟩ := step_drop fired
    exact bounded.still (checked_done rfl)

-- Used and reserved bytes together stay within the quota over every run.
theorem quota_kept (resolved : resolveUserQuotaBytes directory owner = .ok quota) (finite : quota < i64Max)
    (start : Within quota owner ⟨files,sessions,[]⟩)
    (current : Schedule.Along (step directory) (Current owner) ⟨files,sessions,[]⟩ events)
    (ran : Schedule.run (step directory) ⟨files,sessions,[]⟩ events = some sys) : Within quota owner sys := by
  have begins : Bounded quota owner ⟨files,sessions,[]⟩ := ⟨start,fun _ _ found => nomatch found⟩
  exact (Schedule.run_along (fun _ _ _ bounded current fired => step_bounded resolved finite bounded current fired) begins
    current ran).within

end Statements

def oneGib : Directory := ⟨KeyMap.empty.set "u" (some 1),none⟩

def idle : System := ⟨KeyMap.empty,KeyMap.empty,[]⟩

def mib : Int := 1024 * 1024

def createCall (id : String) (mebibytes : Int) : Event := .create id "u" "u" false (mebibytes * mib) mib none

def completing : List Event :=
  [createCall "s" 400,.advance 0 1,.advance 0 1,.advance 0 1,.complete 2 "s" "u" "f" "u" none none,.advance 1 2,.advance 1 2,
    .advance 1 2]

def sums (events : List Event) : Option (Int × Int) :=
  (Schedule.run (step oneGib) idle events).map (fun sys => (usedBytes sys.files "u",reservedBytes sys.sessions "u"))

theorem quota_kept_completed : ∃ sys,
    Schedule.run (step oneGib) idle (completing ++ [.advance 1 3,.advance 1 3]) = some sys ∧
      usedBytes sys.files "u" = 400 * mib ∧ Within gib "u" sys := by
  obtain ⟨sys,ran,shown⟩ := map_eq_some_iff.mp
    (by decide +kernel : sums (completing ++ [.advance 1 3,.advance 1 3]) = some (400 * mib,0))
  have resolved : resolveUserQuotaBytes oneGib "u" = .ok gib := by decide +kernel
  have current : Schedule.Along (step oneGib) (Current "u") idle (completing ++ [.advance 1 3,.advance 1 3]) := by decide +kernel
  exact ⟨sys,ran,(Prod.mk.inj shown).1,
    quota_kept resolved (by decide) (by decide : Within gib "u" idle) current ran⟩

theorem over_quota (shown : sums events = some (used,reserved)) (more : gib < used + reserved) :
    ∃ sys, Schedule.run (step oneGib) idle events = some sys ∧ ¬Within gib "u" sys := by
  obtain ⟨sys,ran,read⟩ := map_eq_some_iff.mp shown
  obtain ⟨rfl,rfl⟩ := Prod.mk.inj read
  exact ⟨sys,ran,Int.not_le.mpr more⟩

theorem quota_oversubscribed : Within gib "u" idle ∧
    (∃ sys, Schedule.run (step oneGib) idle [createCall "s" 600,createCall "t" 600,.advance 0 1,.advance 0 1,.advance 1 1,
      .advance 1 1,.advance 0 1,.advance 1 1] = some sys ∧ ¬Within gib "u" sys) ∧
    (∃ sys, Schedule.run (step oneGib) idle (completing ++ [createCall "t" 900,.advance 2 3,.advance 1 3,.advance 1 3,
      .advance 2 3,.advance 2 3]) = some sys ∧ ¬Within gib "u" sys) := by
  refine ⟨by decide,?_,?_⟩
  · exact over_quota (by decide +kernel : sums _ = some (0,1200 * mib)) (by decide)
  · exact over_quota (by decide +kernel : sums _ = some (400 * mib,900 * mib)) (by decide)

end Ownly.Uploads.Quota
