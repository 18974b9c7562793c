import Ownly.Uploads.Charges

-- Whether a completion gets the bytes its session has reserved. Every finaliser calls
-- `ensure_within_quota` with the size of the file, while the reserved sum it reads still
-- has the reservation of the session that is being completed.
namespace Ownly.Uploads.Quota
open List Option KeyMap

def granted (owner : String) (session : SessionRow) : Int :=
  if session.quotaOwnerId = owner then session.totalSize else 0

def reservedByOthers (sessions : KeyMap String SessionRow) (owner id : String) : Int :=
  sessions.total (fun key session => if key = id then 0 else reservedShare owner session)

-- The bytes fit beside what others use and reserve, counted on top of the session's own
-- reservation. A quota of the largest BIGINT is never exceeded, and reservations beyond
-- it make the sum fail before anything is compared.
def Room (quota used : Int) (sessions : KeyMap String SessionRow) : Call → Prop
  | .create _ _ _ _ _ _ _ => True
  | .complete sessionId _ _ file => ∀ session ∈ sessions.get sessionId,
    quota = i64Max ∨ i64Max < reservedByOthers sessions file.userId sessionId + granted file.userId session ∨
      used + (reservedByOthers sessions file.userId sessionId + granted file.userId session) + file.sizeBytes ≤ quota

instance (quota used : Int) (sessions : KeyMap String SessionRow) : ∀ call, Decidable (Room quota used sessions call)
  | .create _ _ _ _ _ _ _ => .isTrue trivial
  | .complete sessionId _ _ _ => inferInstanceAs (Decidable (∀ session ∈ sessions.get sessionId,_ ∨ _ ∨ _))

def Phase.Room (sessions : KeyMap String SessionRow) (call : Call) : Phase → Prop
  | .summing quota used => Quota.Room quota used sessions call
  | _ => True

instance (sessions : KeyMap String SessionRow) (call : Call) : ∀ phase : Phase, Decidable (phase.Room sessions call)
  | .summing quota used => inferInstanceAs (Decidable (Quota.Room quota used sessions call))
  | .marking => .isTrue trivial
  | .counting => .isTrue trivial
  | .inserting _ => .isTrue trivial
  | .completing => .isTrue trivial
  | .reverting _ => .isTrue trivial
  | .done _ => .isTrue trivial
  | .dropped => .isTrue trivial

def CountedTwice (sys : System) : Event → Prop
  | .advance i _ => ∀ task ∈ sys.tasks[i]?, task.phase.Room sys.sessions task.call
  | _ => True

instance (sys : System) : ∀ e, Decidable (CountedTwice sys e)
  | .advance i _ => inferInstanceAs (Decidable (∀ task ∈ sys.tasks[i]?, task.phase.Room sys.sessions task.call))
  | .create _ _ _ _ _ _ _ => .isTrue trivial
  | .complete _ _ _ _ _ _ _ => .isTrue trivial
  | .fail _ _ => .isTrue trivial
  | .drop _ => .isTrue trivial

def tooLarge : AppError → Bool
  | .payloadTooLarge _ => true
  | _ => false

def Task.refused (task : Task) : Bool :=
  match task.call,task.phase with
  | .complete _ _ _ _,.reverting error => tooLarge error
  | .complete _ _ _ _,.done (.error error) => tooLarge error
  | _,_ => false

def Honoured (directory : Directory) (sys : System) (e : Event) : Prop :=
  ∀ next, step directory sys e = some next → ∀ task ∈ next.tasks, task.refused = false

-- No error from outside the quota says so: only quota.rs makes such errors.
def Foreign : Event → Prop
  | .complete _ _ _ _ _ _ refusal => ∀ error ∈ refusal, tooLarge error = false
  | .fail _ error => tooLarge error = false
  | _ => True

instance : ∀ e, Decidable (Foreign e)
  | .complete _ _ _ _ _ _ refusal => inferInstanceAs (Decidable (∀ error ∈ refusal, tooLarge error = false))
  | .fail _ error => inferInstanceAs (Decidable (tooLarge error = false))
  | .create _ _ _ _ _ _ _ => .isTrue trivial
  | .advance _ _ => .isTrue trivial
  | .drop _ => .isTrue trivial

-- What `create_session` left of every session in flight.
def Reserving (sessions : KeyMap String SessionRow) : Prop :=
  ∀ id session, sessions.get id = some session → session.status.InFlight →
    session.quotaReservedBytes = session.totalSize ∧ 0 < session.totalSize

def Task.holds (task : Task) : Option String :=
  match task.call with
  | .create _ _ _ _ _ _ _ => none
  | .complete sessionId _ _ _ => if task.phase.marked then some sessionId else none

def Completing (sessions : KeyMap String SessionRow) (id : String) : Prop :=
  ∃ session, sessions.get id = some session ∧ session.status = .completing

structure Sure (task : Task) : Prop where
  counting : task.phase = .counting → 0 < task.call.incoming
  summing : ∀ quota used, task.phase = .summing quota used → 0 < task.call.incoming ∧ quota ≤ i64Max ∧ -2^63 ≤ used
  creating : ∀ id userId fileOwnerId isVideo totalSize chunkSize contentHash read,
    task.call = .create id userId fileOwnerId isVideo totalSize chunkSize contentHash → task.phase = .inserting read →
      0 < totalSize
  unrefused : task.refused = false

structure Holding (sys : System) : Prop where
  reserving : Reserving sys.sessions
  sure : ∀ (i : Nat) (task : Task), sys.tasks[i]? = some task → Sure task
  held : ∀ (i : Nat) (task : Task), sys.tasks[i]? = some task → ∀ id, task.holds = some id → Completing sys.sessions id
  -- two completions never hold one session
  alone : ∀ (i j : Nat) (task other : Task), sys.tasks[i]? = some task → sys.tasks[j]? = some other →
    ∀ id, task.holds = some id → other.holds = some id → i = j

def Alike (tasks tasks' : List Task) : Prop :=
  ∀ (j : Nat) (other : Task), tasks'[j]? = some other →
    ∃ before, tasks[j]? = some before ∧ before.call = other.call ∧ before.phase = other.phase

variable {files : KeyMap String FileRow} {sessions : KeyMap String SessionRow} {owner id : String} {session session' : SessionRow}
  {file : FileRow} {quota used reserved incoming : Int} {sys next : System} {task other : Task} {tasks : List Task} {phase : Phase}
  {i : Nat} {directory : Directory} {e : Event} {error : AppError}

theorem reserved_nonneg : 0 ≤ reservedBytes sessions owner := by
  refine sum_nonneg ?_
  intro share member
  obtain ⟨entry,_,rfl⟩ := mem_map.mp member
  exact share_nonneg

theorem reserved_split (reserving : Reserving sessions) (found : sessions.get id = some session)
    (completing : session.status = .completing) :
    reservedBytes sessions owner = reservedByOthers sessions owner id + granted owner session := by
  have share : reservedShare owner session = granted owner session := by
    obtain ⟨whole,positive⟩ := reserving id session found (.inr completing)
    unfold reservedShare granted
    by_cases owns : session.quotaOwnerId = owner
    · rw [if_pos ⟨owns,.inr completing,by rw [whole]; exact positive⟩,if_pos owns,whole]
    · rw [if_neg (fun reserves => owns reserves.1),if_neg owns]
  rw [reservedBytes,total_split found,share,reservedByOthers]

theorem ensureWithinQuota_iff (positive : 0 < incoming) (finite : quota ≤ i64Max) (low : -2^63 ≤ used) (nonneg : 0 ≤ reserved) :
    ensureWithinQuota quota used reserved incoming = .ok () ↔ quota = i64Max ∨ used + reserved + incoming ≤ quota := by
  have exceeded : quota < saturating (saturating (used + reserved) + incoming) ↔
      ¬(quota = i64Max ∨ used + reserved + incoming ≤ quota) := by
    simp only [saturating,i64Max] at finite ⊢
    omega
  unfold ensureWithinQuota
  by_cases beyond : quota < saturating (saturating (used + reserved) + incoming)
  · rw [if_pos beyond]
    exact iff_of_false (fun same => by cases same) (exceeded.mp beyond)
  · rw [if_neg beyond]
    exact iff_of_true rfl (not_not.mp (fun none => beyond (exceeded.mpr none)))

theorem sumReserved_iff (positive : 0 < incoming) (finite : quota ≤ i64Max) (low : -2^63 ≤ used) :
    (∀ error, sumReserved sessions owner quota used incoming = .error error → tooLarge error = false) ↔
      quota = i64Max ∨ i64Max < reservedBytes sessions owner ∨ used + reservedBytes sessions owner + incoming ≤ quota := by
  have nonneg : 0 ≤ reservedBytes sessions owner := reserved_nonneg
  have ensured := ensureWithinQuota_iff positive finite low nonneg
  unfold sumReserved loadUserReservedBytes bigint
  by_cases inside : -2^63 ≤ reservedBytes sessions owner ∧ reservedBytes sessions owner ≤ i64Max
  · rw [if_pos inside]
    dsimp only
    cases answer : ensureWithinQuota quota used (reservedBytes sessions owner) incoming with
    | ok _ =>
      refine iff_of_true (fun error same => by cases same) ?_
      rcases ensured.mp answer with most | fits
      · exact .inl most
      · exact .inr (.inr fits)
    | error refusal =>
      have exceeded : refusal = quotaExceeded := by
        unfold ensureWithinQuota at answer
        split at answer
        · cases answer
          rfl
        · cases answer
      refine iff_of_false ?_ ?_
      · intro none
        have answers := none refusal rfl
        rw [exceeded] at answers
        cases answers
      · rintro (most | beyond | fits)
        · rw [ensured.mpr (.inl most)] at answer
          cases answer
        · exact Int.not_lt.mpr inside.2 beyond
        · rw [ensured.mpr (.inr fits)] at answer
          cases answer
  · rw [if_neg inside]
    refine iff_of_true ?_ (.inr (.inl ?_))
    · intro error same
      cases same
      rfl
    · simp only [i64Max] at inside ⊢
      omega

theorem Sure.alike (sure : Sure task) (call : task.call = other.call) (phase : task.phase = other.phase) : Sure other := by
  obtain ⟨counting,summing,creating,unrefused⟩ := sure
  rw [call,phase] at counting summing creating
  have same : task.refused = other.refused := by unfold Task.refused; rw [call,phase]
  exact ⟨counting,summing,creating,by rw [← same]; exact unrefused⟩

theorem holds_alike (call : task.call = other.call) (phase : task.phase = other.phase) : task.holds = other.holds := by
  unfold Task.holds
  rw [call,phase]

theorem alike_refl : Alike tasks tasks := fun _ other present => ⟨other,present,rfl,rfl⟩

theorem overtake_alike (reads : Phase → Bool) : Alike tasks (overtake owner reads tasks) := by
  intro j other present
  rw [overtake,getElem?_map] at present
  obtain ⟨before,found,same⟩ := map_eq_some_iff.mp present
  refine ⟨before,found,?_⟩
  split at same
  · cases same
    exact ⟨rfl,rfl⟩
  · cases same
    exact ⟨rfl,rfl⟩

section
variable (holding : Holding sys) (found : sys.tasks[i]? = some task) (alike : Alike sys.tasks tasks)
include holding found alike

theorem Holding.moved
    (reserving : Reserving sessions) (sure : Sure {task with phase := phase})
    (kept : ∀ id, task.holds ≠ some id → Completing sys.sessions id → Completing sessions id)
    (own : ∀ id, {task with phase := phase}.holds = some id →
      Completing sessions id ∧ (task.holds = some id ∨ ¬Completing sys.sessions id)) :
    Holding ⟨files,sessions,tasks.set i {task with phase := phase}⟩ := by
  have others : ∀ (j : Nat) (other : Task), j ≠ i → tasks[j]? = some other → ∀ id, other.holds = some id →
      ∃ before, sys.tasks[j]? = some before ∧ before.holds = some id ∧ task.holds ≠ some id := by
    intro j other ne present id holds
    obtain ⟨before,old,call,phase⟩ := alike j other present
    have held : before.holds = some id := (holds_alike call phase).trans holds
    exact ⟨before,old,held,fun same => ne (holding.alone j i before task old found id held same)⟩
  have claims : ∀ (j : Nat) (other : Task), j ≠ i → tasks[j]? = some other → ∀ id, other.holds = some id →
      {task with phase := phase}.holds ≠ some id := by
    intro j other ne present id holds same
    obtain ⟨before,old,held,free⟩ := others j other ne present id holds
    rcases (own id same).2 with mine | none
    · exact free mine
    · exact none (holding.held j before old id held)
  refine ⟨reserving,?_,?_,?_⟩
  · intro j other present
    rcases Slots.set_cases present with ⟨_,rfl⟩ | ⟨_,old⟩
    · exact sure
    · obtain ⟨before,found,call,phase⟩ := alike j other old
      exact (holding.sure j before found).alike call phase
  · intro j other present id holds
    rcases Slots.set_cases present with ⟨_,rfl⟩ | ⟨ne,old⟩
    · exact (own id holds).1
    · obtain ⟨before,found,held,free⟩ := others j other ne old id holds
      exact kept id free (holding.held j before found id held)
  · intro j k one two first second id holds again
    rcases Slots.set_cases first with ⟨rfl,rfl⟩ | ⟨ne,old⟩
    · rcases Slots.set_cases second with ⟨rfl,_⟩ | ⟨apart,late⟩
      · rfl
      · exact absurd holds (claims k two apart late id again)
    · rcases Slots.set_cases second with ⟨rfl,rfl⟩ | ⟨apart,late⟩
      · exact absurd again (claims j one ne old id holds)
      · obtain ⟨before,found,held,_⟩ := others j one ne old id holds
        obtain ⟨after,found',held',_⟩ := others k two apart late id again
        exact holding.alone j k before after found found' id held held'

theorem Holding.still
    (sure : Sure {task with phase := phase}) (own : ∀ id, {task with phase := phase}.holds = some id → task.holds = some id) :
    Holding ⟨files,sys.sessions,tasks.set i {task with phase := phase}⟩ :=
  holding.moved found alike holding.reserving sure (fun _ _ completing => completing)
    (fun id holds => ⟨holding.held i task found id (own id holds),.inl (own id holds)⟩)

end

theorem sure_settles {task : Task} (settles : task.phase.settles = true) (unrefused : task.refused = false) : Sure task := by
  refine ⟨?_,?_,?_,unrefused⟩
  · intro same
    rw [same] at settles
    cases settles
  · intro quota used same
    rw [same] at settles
    cases settles
  · intro id userId fileOwnerId isVideo totalSize chunkSize contentHash read _ same
    rw [same] at settles
    cases settles

theorem failing_unrefused (small : tooLarge error = false) : {task with phase := task.call.failing error}.refused = false := by
  unfold Task.refused
  cases called : task.call with
  | create _ _ _ _ _ _ _ => rfl
  | complete _ _ _ _ => exact small

theorem failing_refused {sessionId userId fileId : String} (call : task.call = .complete sessionId userId fileId file) :
    {task with phase := task.call.failing error}.refused = tooLarge error := by
  unfold Task.refused
  rw [call]
  rfl

theorem holds_past (past : task.phase.marked = true) : {task with phase := phase}.holds = some id → task.holds = some id := by
  unfold Task.holds
  cases task.call with
  | create _ _ _ _ _ _ _ => exact fun same => by cases same
  | complete sessionId _ _ _ =>
    dsimp only
    rw [past]
    split
    · exact fun same => same
    · intro none
      cases none

theorem resolveUserQuotaBytes_le (resolved : resolveUserQuotaBytes directory owner = .ok quota) : quota ≤ i64Max := by
  have bound : ∀ x : Int, saturating x ≤ i64Max := by
    intro x
    simp only [saturating,i64Max]
    omega
  unfold resolveUserQuotaBytes loadDefaultQuotaBytes at resolved
  split at resolved
  · cases resolved
  · cases resolved
    exact bound _
  · cases resolved
    exact bound _

theorem bigint_low {x y : Int} (read : bigint y = .ok x) : -2^63 ≤ x := by
  unfold bigint at read
  split at read
  · rename_i inside
    cases read
    exact inside.1
  · cases read

theorem countUsed_small (failed : countUsed directory files owner = .error error) : tooLarge error = false := by
  unfold countUsed resolveUserQuotaBytes loadUserUsedBytes bigint at failed
  split at failed
  · rename_i missing
    cases failed
    split at missing
    · cases missing
      rfl
    · cases missing
    · cases missing
  · rename_i beyond
    cases failed
    split at beyond
    · cases beyond
    · cases beyond
      rfl
  · cases failed

theorem reserving_set (reserving : Reserving sessions) (reserves : session.status.InFlight →
    session.quotaReservedBytes = session.totalSize ∧ 0 < session.totalSize) : Reserving (sessions.set id session) := by
  intro key row found flying
  rw [get_set] at found
  split at found
  · cases found
    exact reserves flying
  · exact reserving key row found flying

theorem completing_set_ne {key : String} (ne : id ≠ key) (completing : Completing sessions id) :
    Completing (sessions.set key session) id := by
  obtain ⟨row,found,status⟩ := completing
  exact ⟨row,by rw [get_set_ne ne]; exact found,status⟩

section Statements
variable {now : Int} {sessionId userId fileId fileOwnerId : String} {isVideo : Bool} {totalSize chunkSize : Int}
  {contentHash : Option String} {read : Option (Int × Int)}

theorem finalize_sure (call : task.call = .complete sessionId userId fileId file) :
    Sure {task with phase := finalize file.sizeBytes} := by
  have incoming : task.call.incoming = file.sizeBytes := by rw [call]; rfl
  unfold finalize
  split
  · refine sure_settles rfl ?_
    unfold Task.refused
    rw [call]
    rfl
  · rename_i some
    split
    · refine ⟨fun same => (by cases same),fun _ _ same => (by cases same),?_,?_⟩
      · intro _ _ _ _ _ _ _ _ same
        rw [call] at same
        cases same
      · unfold Task.refused
        rw [call]
    · refine ⟨?_,fun _ _ same => (by cases same),fun _ _ _ _ _ _ _ _ _ same => (by cases same),?_⟩
      · intro _
        rw [incoming]
        omega
      · unfold Task.refused
        rw [call]

section
variable (holding : Holding sys) (found : sys.tasks[i]? = some task)
include holding found

theorem marking_holding (before : task.phase = .marking)
    (call : task.call = .complete sessionId userId fileId file)
    (ran : advance directory now sys (.complete sessionId userId fileId file) .marking = some (phase,next)) :
    Holding {next with tasks := next.tasks.set i {task with phase := phase}} := by
  dsimp only [advance] at ran
  have free : task.holds = none := by
    unfold Task.holds
    rw [call,before]
    rfl
  cases marked : (sys.sessions.get sessionId).bind (SessionRow.markCompleting now userId) with
  | none =>
    rw [marked] at ran
    cases ran
    refine holding.still found alike_refl (sure_settles rfl ?_) ?_
    · unfold Task.refused
      rw [call]
      rfl
    · intro id holds
      unfold Task.holds at holds
      rw [call] at holds
      cases holds
  | some session' =>
    rw [marked] at ran
    cases ran
    obtain ⟨session,stored,marks⟩ := bind_eq_some_iff.mp marked
    unfold SessionRow.markCompleting at marks
    split at marks
    · rename_i active
      cases marks
      refine holding.moved found alike_refl (reserving_set holding.reserving ?_) (finalize_sure call) ?_ ?_
      · exact fun _ => holding.reserving sessionId session stored (.inl active.2)
      · intro id _ completing
        by_cases here : id = sessionId
        · rw [here]
          exact ⟨_,get_set_self,rfl⟩
        · exact completing_set_ne here completing
      · intro id holds
        have same : id = sessionId := by
          unfold Task.holds at holds
          rw [call] at holds
          dsimp only at holds
          split at holds
          · cases holds
            rfl
          · cases holds
        rw [same]
        refine ⟨⟨_,get_set_self,rfl⟩,.inr ?_⟩
        rintro ⟨row,again,completing⟩
        rw [stored] at again
        cases again
        rw [active.2] at completing
        cases completing
    · cases marks

theorem counting_holding (before : task.phase = .counting)
    (ran : advance directory now sys task.call .counting = some (phase,next)) :
    Holding {next with tasks := next.tasks.set i {task with phase := phase}} := by
  dsimp only [advance] at ran
  have past : task.phase.marked = true := by rw [before]; rfl
  cases counted : countUsed directory sys.files task.call.owner with
  | error error =>
    rw [counted] at ran
    cases ran
    exact holding.still found alike_refl (sure_settles (failing_settles task.call error) (failing_unrefused (countUsed_small counted)))
      (fun _ => holds_past past)
  | ok after =>
    rw [counted] at ran
    cases ran
    have positive := (holding.sure i task found).counting before
    unfold countUsed at counted
    split at counted
    · cases counted
    · cases counted
    · rename_i quota used resolved loaded
      cases counted
      refine holding.still found alike_refl ⟨fun same => (by cases same),?_,fun _ _ _ _ _ _ _ _ _ same => (by cases same),?_⟩
        (fun _ => holds_past past)
      · intro limit sum same
        cases same
        exact ⟨positive,resolveUserQuotaBytes_le resolved,bigint_low loaded⟩
      · unfold Task.refused
        cases task.call with
        | create _ _ _ _ _ _ _ => rfl
        | complete _ _ _ _ => rfl

theorem room_iff (before : task.phase = .summing quota used)
    (call : task.call = .complete sessionId userId fileId file) :
    Room quota used sys.sessions task.call ↔
      ∀ error, sumReserved sys.sessions task.call.owner quota used task.call.incoming = .error error → tooLarge error = false := by
  obtain ⟨positive,finite,low⟩ := (holding.sure i task found).summing quota used before
  have holds : task.holds = some sessionId := by
    unfold Task.holds
    rw [call,before]
    rfl
  obtain ⟨session,stored,completing⟩ := holding.held i task found sessionId holds
  have split : reservedBytes sys.sessions file.userId = reservedByOthers sys.sessions file.userId sessionId + granted file.userId session :=
    reserved_split holding.reserving stored completing
  rw [sumReserved_iff positive finite low,call]
  unfold Room
  dsimp only [Call.owner,Call.incoming]
  rw [split,stored]
  constructor
  · intro room
    exact room session rfl
  · intro room other same
    cases same
    exact room

theorem summing_holding (before : task.phase = .summing quota used)
    (room : Room quota used sys.sessions task.call)
    (ran : advance directory now sys task.call (.summing quota used) = some (phase,next)) :
    Holding {next with tasks := next.tasks.set i {task with phase := phase}} := by
  dsimp only [advance] at ran
  have past : task.phase.marked = true := by rw [before]; rfl
  obtain ⟨positive,_,_⟩ := (holding.sure i task found).summing quota used before
  cases summed : sumReserved sys.sessions task.call.owner quota used task.call.incoming with
  | error error =>
    rw [summed] at ran
    cases ran
    refine holding.still found alike_refl (sure_settles (failing_settles task.call error) ?_) (fun _ => holds_past past)
    obtain ⟨charge,call⟩ : ∃ charge, task.call = charge := ⟨task.call,rfl⟩
    cases charge with
    | create _ _ _ _ _ _ _ =>
      unfold Task.refused
      rw [call]
    | complete _ _ _ _ => exact failing_unrefused ((room_iff holding found before call).mp room error summed)
  | ok after =>
    rw [summed] at ran
    cases ran
    obtain ⟨rfl,_⟩ := sumReserved_ok summed
    refine holding.still found alike_refl ⟨fun same => (by cases same),fun _ _ same => (by cases same),?_,?_⟩
      (fun _ => holds_past past)
    · intro id userId fileOwnerId isVideo totalSize chunkSize contentHash read call _
      rw [show task.call = .create id userId fileOwnerId isVideo totalSize chunkSize contentHash from call] at positive
      exact positive
    · unfold Task.refused
      cases task.call with
      | create _ _ _ _ _ _ _ => rfl
      | complete _ _ _ _ => rfl

theorem creating_holding (before : task.phase = .inserting read)
    (call : task.call = .create id userId fileOwnerId isVideo totalSize chunkSize contentHash)
    (ran : advance directory now sys (.create id userId fileOwnerId isVideo totalSize chunkSize contentHash) (.inserting read) =
      some (phase,next)) :
    Holding {next with tasks := next.tasks.set i {task with phase := phase}} := by
  dsimp only [advance] at ran
  have settled : ∀ result, Sure {task with phase := .done result} := by
    intro result
    refine sure_settles rfl ?_
    unfold Task.refused
    rw [call]
  have free : ∀ result key, {task with phase := .done result}.holds = some key → False := by
    intro result key holds
    unfold Task.holds at holds
    rw [call] at holds
    cases holds
  cases stored : sys.sessions.get id with
  | some _ =>
    rw [stored] at ran
    cases ran
    exact holding.still found alike_refl (settled _) (fun key holds => (free _ key holds).elim)
  | none =>
    rw [stored] at ran
    cases ran
    refine holding.moved found (overtake_alike _) (reserving_set holding.reserving ?_) (settled _) ?_
      (fun key holds => (free _ key holds).elim)
    · exact fun _ => ⟨rfl,(holding.sure i task found).creating _ _ _ _ _ _ _ read call before⟩
    · intro key _ completing
      refine completing_set_ne ?_ completing
      intro same
      obtain ⟨row,found,_⟩ := completing
      rw [same,stored] at found
      cases found

theorem filing_holding (before : task.phase = .inserting read)
    (call : task.call = .complete sessionId userId fileId file)
    (ran : advance directory now sys (.complete sessionId userId fileId file) (.inserting read) = some (phase,next)) :
    Holding {next with tasks := next.tasks.set i {task with phase := phase}} := by
  dsimp only [advance] at ran
  have past : task.phase.marked = true := by rw [before]; rfl
  cases stored : sys.files.get fileId with
  | some _ =>
    rw [stored] at ran
    cases ran
    refine holding.still found alike_refl (sure_settles rfl ?_) (fun _ => holds_past past)
    unfold Task.refused
    rw [call]
    rfl
  | none =>
    rw [stored] at ran
    cases ran
    refine holding.still found (overtake_alike _) (sure_settles rfl ?_) (fun _ => holds_past past)
    unfold Task.refused
    rw [call]

theorem release_holding (holds : task.holds = some sessionId)
    (sure : Sure {task with phase := phase}) (free : phase.marked = false)
    (reserves : session'.status.InFlight → session'.quotaReservedBytes = session'.totalSize ∧ 0 < session'.totalSize) :
    Holding ⟨files,sys.sessions.set sessionId session',sys.tasks.set i {task with phase := phase}⟩ := by
  refine holding.moved found alike_refl (reserving_set holding.reserving reserves) sure ?_ ?_
  · intro id other completing
    refine completing_set_ne ?_ completing
    intro same
    exact other (by rw [same]; exact holds)
  · intro id holds
    unfold Task.holds at holds
    split at holds
    · cases holds
    · dsimp only at holds
      rw [free] at holds
      cases holds

theorem finished_holding (sure : Sure {task with phase := phase})
    (free : phase.marked = false) : Holding {sys with tasks := sys.tasks.set i {task with phase := phase}} := by
  refine holding.still found alike_refl sure ?_
  intro id holds
  unfold Task.holds at holds
  split at holds
  · cases holds
  · dsimp only at holds
    rw [free] at holds
    cases holds

theorem completing_holding (before : task.phase = .completing)
    (call : task.call = .complete sessionId userId fileId file)
    (ran : advance directory now sys (.complete sessionId userId fileId file) .completing = some (phase,next)) :
    Holding {next with tasks := next.tasks.set i {task with phase := phase}} := by
  dsimp only [advance] at ran
  have holds : task.holds = some sessionId := by
    unfold Task.holds
    rw [call,before]
    rfl
  have sure : Sure {task with phase := .done (.ok ())} := by
    refine sure_settles rfl ?_
    unfold Task.refused
    rw [call]
  cases stored : sys.sessions.get sessionId with
  | none =>
    rw [stored] at ran
    cases ran
    exact finished_holding holding found sure rfl
  | some session =>
    rw [stored] at ran
    cases ran
    refine release_holding holding found holds sure rfl ?_
    intro flying
    rcases flying with same | same
    · cases same
    · cases same

theorem reverting_holding (before : task.phase = .reverting error)
    (call : task.call = .complete sessionId userId fileId file)
    (ran : advance directory now sys (.complete sessionId userId fileId file) (.reverting error) = some (phase,next)) :
    Holding {next with tasks := next.tasks.set i {task with phase := phase}} := by
  dsimp only [advance] at ran
  have holds : task.holds = some sessionId := by
    unfold Task.holds
    rw [call,before]
    rfl
  have sure : Sure {task with phase := .done (.error error)} := by
    refine sure_settles rfl ?_
    have unrefused := (holding.sure i task found).unrefused
    unfold Task.refused at unrefused ⊢
    rw [call,before] at unrefused
    rw [call]
    exact unrefused
  obtain ⟨session,stored,completing⟩ := holding.held i task found sessionId holds
  rw [stored] at ran
  cases ran
  exact release_holding holding found holds sure rfl (fun _ => holding.reserving sessionId session stored (.inr completing))

theorem advance_holding (room : task.phase.Room sys.sessions task.call)
    (ran : advance directory now sys task.call task.phase = some (phase,next)) :
    Holding {next with tasks := next.tasks.set i {task with phase := phase}} := by
  obtain ⟨call,was,missed⟩ := task
  cases was with
  | marking =>
    cases call with
    | create _ _ _ _ _ _ _ => cases ran
    | complete _ _ _ _ => exact marking_holding holding found rfl rfl ran
  | counting => exact counting_holding holding found rfl ran
  | summing quota used => exact summing_holding holding found rfl room ran
  | inserting read =>
    cases call with
    | create _ _ _ _ _ _ _ => exact creating_holding holding found rfl rfl ran
    | complete _ _ _ _ => exact filing_holding holding found rfl rfl ran
  | completing =>
    cases call with
    | create _ _ _ _ _ _ _ => cases ran
    | complete _ _ _ _ => exact completing_holding holding found rfl rfl ran
  | reverting _ =>
    cases call with
    | create _ _ _ _ _ _ _ => cases ran
    | complete _ _ _ _ => exact reverting_holding holding found rfl rfl ran
  | done _ => cases ran
  | dropped => cases ran

theorem failed_holding (small : tooLarge error = false)
    (ran : failed task.call error task.phase = some phase) :
    Holding {sys with tasks := sys.tasks.set i {task with phase := phase}} := by
  have answers : ∀ answer, tooLarge answer = false → {task with phase := .done (.error answer)}.refused = false := by
    intro answer small
    unfold Task.refused
    cases task.call with
    | create _ _ _ _ _ _ _ => rfl
    | complete _ _ _ _ => exact small
  cases before : task.phase with
  | marking =>
    rw [before] at ran
    cases ran
    exact finished_holding holding found (sure_settles rfl (answers error small)) rfl
  | reverting first =>
    rw [before] at ran
    cases ran
    refine finished_holding holding found (sure_settles rfl ?_) rfl
    have unrefused := (holding.sure i task found).unrefused
    unfold Task.refused at unrefused ⊢
    rw [before] at unrefused
    cases called : task.call with
    | create _ _ _ _ _ _ _ => rfl
    | complete _ _ _ _ =>
      rw [called] at unrefused
      exact unrefused
  | done _ =>
    rw [before] at ran
    cases ran
  | dropped =>
    rw [before] at ran
    cases ran
  | counting | summing _ _ | inserting _ | completing =>
    rw [before] at ran
    cases ran
    exact holding.still found alike_refl (sure_settles (failing_settles task.call error) (failing_unrefused small))
      (fun _ => holds_past (by rw [before]; rfl))

end

theorem begin_holding (holding : Holding sys) (sure : Sure task) (none : ∀ id, task.holds ≠ some id) :
    Holding {sys with tasks := sys.tasks ++ [task]} := by
  refine ⟨holding.reserving,?_,?_,?_⟩
  · intro j other present
    rcases Slots.append_cases present with ⟨_,rfl⟩ | old
    · exact sure
    · exact holding.sure j other old
  · intro j other present id holds
    rcases Slots.append_cases present with ⟨_,rfl⟩ | old
    · exact absurd holds (none id)
    · exact holding.held j other old id holds
  · intro j k one two first second id holds again
    rcases Slots.append_cases first with ⟨_,rfl⟩ | old
    · exact absurd holds (none id)
    · rcases Slots.append_cases second with ⟨_,rfl⟩ | late
      · exact absurd again (none id)
      · exact holding.alone j k one two old late id holds again

theorem beginCreate_sure : Sure ⟨.create id userId fileOwnerId isVideo totalSize chunkSize contentHash,beginCreate totalSize,false⟩ := by
  unfold beginCreate
  split
  · exact sure_settles rfl rfl
  · rename_i positive
    exact ⟨fun _ => Int.not_le.mp positive,fun _ _ same => (by cases same),fun _ _ _ _ _ _ _ _ _ same => (by cases same),rfl⟩

theorem beginComplete_sure (small : ∀ error ∈ refusal, tooLarge error = false) (session : Option SessionRow) :
    Sure ⟨.complete sessionId userId fileId file,beginComplete now userId refusal session,false⟩ := by
  have answers : ∀ error, tooLarge error = false → Sure ⟨.complete sessionId userId fileId file,.done (.error error),false⟩ :=
    fun error small => sure_settles rfl small
  cases session with
  | none => exact answers .notFound rfl
  | some session =>
    dsimp only [beginComplete]
    split
    · exact answers .notFound rfl
    · cases active : ensureSessionActive now session with
      | error error =>
        refine answers error ?_
        unfold ensureSessionActive at active
        split at active
        · cases active
          rfl
        · split at active
          · cases active
            rfl
          · cases active
      | ok _ =>
        cases refusal with
        | some error => exact answers error (small error rfl)
        | none =>
          exact ⟨fun same => (by cases same),fun _ _ same => (by cases same),fun _ _ _ _ _ _ _ _ _ same => (by cases same),rfl⟩

theorem step_holding (holding : Holding sys) (foreign : Foreign e) (room : CountedTwice sys e)
    (fired : step directory sys e = some next) : Holding next := by
  cases e with
  | create id userId fileOwnerId isVideo totalSize chunkSize contentHash =>
    cases fired
    exact begin_holding holding beginCreate_sure (fun _ holds => by cases holds)
  | complete now sessionId userId fileId fileOwnerId spooled refusal =>
    cases fired
    refine begin_holding holding (beginComplete_sure foreign _) ?_
    intro id holds
    unfold Task.holds at holds
    dsimp only at holds
    rw [beginComplete_past] at holds
    cases holds
  | advance i now =>
    obtain ⟨task,phase,after,found,ran,rfl⟩ := step_advance fired
    exact advance_holding holding found (room task found) ran
  | fail i error =>
    obtain ⟨task,phase,found,ran,rfl⟩ := step_fail fired
    exact failed_holding holding found foreign ran
  | drop i =>
    obtain ⟨task,found,rfl⟩ := step_drop fired
    refine finished_holding holding found (sure_settles rfl ?_) rfl
    unfold Task.refused
    cases task.call with
    | create _ _ _ _ _ _ _ => rfl
    | complete _ _ _ _ => rfl

theorem Holding.unrefused (holding : Holding sys) : ∀ task ∈ sys.tasks, task.refused = false := by
  intro task member
  obtain ⟨i,found⟩ := mem_iff_getElem?.mp member
  exact (holding.sure i task found).unrefused

theorem honoured_room (holding : Holding sys) (honoured : Honoured directory sys e) : CountedTwice sys e := by
  cases e with
  | create _ _ _ _ _ _ _ => trivial
  | complete _ _ _ _ _ _ _ => trivial
  | fail _ _ => trivial
  | drop _ => trivial
  | advance i now =>
    intro task present
    have found : sys.tasks[i]? = some task := present
    obtain ⟨charge,call⟩ : ∃ charge, task.call = charge := ⟨task.call,rfl⟩
    cases before : task.phase with
    | summing quota used =>
      cases charge with
      | create _ _ _ _ _ _ _ =>
        rw [call]
        trivial
      | complete sessionId userId fileId file =>
        refine (room_iff holding found before call).mpr ?_
        intro error summed
        have fired : step directory sys (.advance i now) =
            some {sys with tasks := sys.tasks.set i {task with phase := task.call.failing error}} := by
          dsimp only [step]
          rw [found]
          dsimp only
          rw [before]
          dsimp only [advance]
          rw [summed]
          rfl
        have inside : i < sys.tasks.length := (List.getElem?_eq_some_iff.mp found).1
        have unrefused := honoured _ fired _ (mem_iff_getElem?.mpr ⟨i,getElem?_set_self inside⟩)
        rw [failing_refused call] at unrefused
        exact unrefused
    | marking => trivial
    | counting => trivial
    | inserting _ => trivial
    | completing => trivial
    | reverting _ => trivial
    | done _ => trivial
    | dropped => trivial

-- No completion is refused for its size exactly where each had room for its bytes a
-- second time when it read the reserved sum.
theorem reservation_honoured (reserving : Reserving sessions) (foreign : ∀ e ∈ events, Foreign e) :
    Schedule.Along (step directory) (Honoured directory) ⟨files,sessions,[]⟩ events ↔
      Schedule.Along (step directory) CountedTwice ⟨files,sessions,[]⟩ events := by
  have start : Holding ⟨files,sessions,[]⟩ :=
    ⟨reserving,fun _ _ found => (by cases found),fun _ _ found => (by cases found),fun _ _ _ _ found => (by cases found)⟩
  refine Schedule.along_congr_among (motive := Holding) ?_ ?_ start foreign
  · intro sys e holding foreign
    constructor
    · exact honoured_room holding
    · intro room next fired
      exact (step_holding holding foreign room fired).unrefused
  · intro sys e next holding foreign room fired
    exact step_holding holding foreign room fired

end Statements

def counted (mebibytes : Int) : List Event :=
  [createCall "s" mebibytes,.advance 0 1,.advance 0 1,.advance 0 1,.complete 2 "s" "u" "f" "u" none none,.advance 1 2,.advance 1 2]

theorem reservation_honoured_small :
    Schedule.Along (step oneGib) (Honoured oneGib) idle (counted 400 ++ [.advance 1 2,.advance 1 2,.advance 1 2]) :=
  (reservation_honoured (fun _ _ found => by cases found) (by decide)).mpr (by decide +kernel)

def answers (events : List Event) : Option (List Phase × Bool × Int × Int) :=
  (Schedule.run (step oneGib) idle events).map (fun sys =>
    (sys.tasks.map Task.phase,sys.tasks.any Task.refused,usedBytes sys.files "u",reservedByOthers sys.sessions "u" "s"))

theorem reservation_refused : (∀ e ∈ counted 600 ++ [.advance 1 2], Foreign e) ∧
    (∃ sys, Schedule.run (step oneGib) idle (counted 600 ++ [.advance 1 2]) = some sys ∧
      sys.tasks.map Task.phase = [.done (.ok ()),.reverting quotaExceeded] ∧
      usedBytes sys.files "u" = 0 ∧ reservedByOthers sys.sessions "u" "s" = 0) ∧
    ¬Schedule.Along (step oneGib) (Honoured oneGib) idle (counted 600 ++ [.advance 1 2]) := by
  obtain ⟨sys,ran,shown⟩ := map_eq_some_iff.mp
    (by decide +kernel : answers (counted 600 ++ [.advance 1 2]) = some ([.done (.ok ()),.reverting quotaExceeded],true,0,0))
  obtain ⟨phases,rest⟩ := Prod.mk.inj shown
  obtain ⟨refused,sums⟩ := Prod.mk.inj rest
  obtain ⟨used,others⟩ := Prod.mk.inj sums
  refine ⟨by decide,⟨sys,ran,phases,used,others⟩,?_⟩
  intro honoured
  rw [Schedule.run_append] at ran
  obtain ⟨middle,front,last⟩ := bind_eq_some_iff.mp ran
  obtain ⟨next,fired,done⟩ := Schedule.run_cons last
  obtain rfl : next = sys := Schedule.run_nil done
  obtain ⟨task,member,refuses⟩ := any_eq_true.mp refused
  have unrefused := honoured.here front next fired task member
  rw [unrefused] at refuses
  cases refuses

end Ownly.Uploads.Quota
