import Ownly.Lib.Schedule
import Ownly.Lib.Slots
import Ownly.Uploads.Store

-- One upload session under everything that writes its row: completions side by side,
-- aborts, the expiry sweeper and part uploads, statement by statement.
namespace Ownly.Uploads
open Option

structure Upload where
  session : SessionRow
  parts : KeyMap Int PartRow

-- The statements of the part endpoints. An INSERT of a row that exists fails.
inductive PartStatement where
  | upgrade (part size : Int) (sha : Option String)
  | stamp (part : Int) (sha : Option String)
  | insert (part size : Int) (sha : Option String)
  | credit (now size : Int)
  | sign (part : Int) (token : String)
  | place (part : Int) (token : String)
  | consume (part : Int) (token : String)

def PartStatement.run (upload : Upload) : PartStatement → Option Upload
  | .upgrade part size sha => some {upload with parts := upload.parts.modify part (PartRow.upgraded size sha)}
  | .stamp part sha => some {upload with parts := upload.parts.modify part (PartRow.stamped sha)}
  | .insert part size sha =>
    if upload.parts.contains part then none
    else some {upload with parts := upload.parts.set part (PartRow.recorded size sha)}
  | .credit now size => some {upload with session := upload.session.credited now size}
  | .sign part token => some {upload with parts := upload.parts.modify part (PartRow.signed token)}
  | .place part token =>
    if upload.parts.contains part then some {upload with parts := upload.parts.modify part (PartRow.signed token)}
    else some {upload with parts := upload.parts.set part (PartRow.placeholder token)}
  | .consume part token => some {upload with parts := upload.parts.modify part (PartRow.consumed token)}

namespace Sessions

-- Where a `complete_session` request stands. `finalizing` covers the three ways to
-- register the file; none of them touches the session row.
inductive Phase where
  | loaded (copy : SessionRow)
  | listed (copy : SessionRow) (received : Nat)
  | ready (copy : SessionRow)
  | finalizing
  | registered
  | failed (error : AppError)
  | done (result : Option (Except AppError Unit))
  deriving DecidableEq

structure System where
  upload : Upload
  completions : List Phase

inductive Event where
  | begin (now : Int) (userId : String)
  | list (task : Nat)
  | check (task : Nat) (instant : Bool)
  | mark (task : Nat) (now : Int)
  | finalize (task : Nat) (outcome : Except AppError Unit)
  | writeBack (task : Nat) (now : Int)
  | drop (task : Nat)
  | abort (now : Int) (userId : String)
  | expire (now : Int)
  | part (statement : PartStatement)

-- `load_session_for_user`, then `ensure_session_active` on the loaded row.
def begin (now : Int) (userId : String) (session : SessionRow) : Phase :=
  if session.userId ≠ userId then .done (some (.error .notFound))
  else match ensureSessionActive now session with
    | .error e => .done (some (.error e))
    | .ok () => .loaded session

-- `instant`: the library holds a file of the session's content hash.
def check (copy : SessionRow) (received : Nat) (instant : Bool) : Phase :=
  if copy.contentHash.isSome ∧ instant then .ready copy
  else match partsComplete copy received with
    | .ok () => .ready copy
    | .error e => .done (some (.error e))

-- One statement of a completion: its next phase, and the session row after it.
def advance (upload : Upload) : Event → Phase → Option (Phase × SessionRow)
  | .list _,.loaded copy => some (.listed copy upload.parts.entries.length,upload.session)
  | .check _ instant,.listed copy received => some (check copy received instant,upload.session)
  | .mark _ now,.ready copy =>
    match upload.session.markCompleting now copy.userId with
    | some session => some (.finalizing,session)
    | none => some (.done (some (.error (.conflict "upload session is not active"))),upload.session)
  | .finalize _ (.ok ()),.finalizing => some (.registered,upload.session)
  | .finalize _ (.error e),.finalizing => some (.failed e,upload.session)
  | .writeBack _ now,.registered => some (.done (some (.ok ())),upload.session.markComplete now)
  -- every failure exit past `mark_completing` puts the session back to active
  | .writeBack _ now,.failed e => some (.done (some (.error e)),upload.session.reactivated now)
  -- a statement that fails, or a request that is dropped, ends without another write
  | .drop _,.done _ => none
  | .drop _,_ => some (.done none,upload.session)
  | _,_ => none

def Event.task : Event → Option Nat
  | .list task => some task
  | .check task _ => some task
  | .mark task _ => some task
  | .finalize task _ => some task
  | .writeBack task _ => some task
  | .drop task => some task
  | _ => none

def advanceTask (sys : System) (e : Event) (task : Nat) : Option System :=
  match sys.completions[task]? with
  | none => none
  | some phase =>
    match advance sys.upload e phase with
    | none => none
    | some (phase,session) => some ⟨{sys.upload with session := session},sys.completions.set task phase⟩

def step (sys : System) (e : Event) : Option System :=
  match e with
  | .begin now userId => some {sys with completions := sys.completions ++ [begin now userId sys.upload.session]}
  | .abort now userId =>
    let session := (sys.upload.session.markAborted now userId).getD sys.upload.session
    some {sys with upload := {sys.upload with session := session}}
  | .expire now => some {sys with upload := {sys.upload with session := sys.upload.session.expireStale now}}
  | .part statement => (statement.run sys.upload).map (fun upload => {sys with upload := upload})
  | e => e.task.bind (advanceTask sys e)

-- A session as `create_session` inserts it.
def created (now : Int) (id userId fileOwnerId : String) (isVideo : Bool) (totalSize chunkSize : Int)
    (contentHash : Option String) : System :=
  ⟨⟨insertSession now id userId fileOwnerId isVideo totalSize chunkSize contentHash,KeyMap.empty⟩,[]⟩

-- Past `mark_completing` and before the last write of the status.
def Phase.busy : Phase → Bool
  | .finalizing => true
  | .registered => true
  | .failed _ => true
  | _ => false

def Phase.writesBack : Phase → Bool
  | .registered => true
  | .failed _ => true
  | _ => false

def Terminal (status : Status) : Prop := status = .complete ∨ status = .aborted

theorem inFlight_live {status : Status} (live : status.InFlight) : ¬Terminal status := by
  rintro (rfl | rfl)
  · rcases live with active | completing
    · cases active
    · cases completing
  · rcases live with active | completing
    · cases active
    · cases completing

def Reserves (session : SessionRow) : Prop :=
  session.quotaReservedBytes = if session.status.InFlight then session.totalSize else 0

-- What one event must keep: the reservation follows the status, and a session that
-- is complete or aborted stays so.
def Sound (sys : System) (e : Event) : Prop :=
  Reserves sys.upload.session ∧ ∀ next, step sys e = some next → Reserves next.upload.session ∧
    (Terminal sys.upload.session.status → next.upload.session.status = sys.upload.session.status)

-- The last write of a completion meets the status its `mark_completing` left.
def InTime (sys : System) (e : Event) : Prop :=
  ∀ task now phase, e = .writeBack task now → sys.completions[task]? = some phase → phase.writesBack = true →
    sys.upload.session.status = .completing

-- At most one completion is past its `mark_completing`, over a session that is
-- completing or has been aborted since.
structure Calm (sys : System) : Prop where
  reserves : Reserves sys.upload.session
  once : ∀ (i j : Nat) (p q : Phase), sys.completions[i]? = some p → sys.completions[j]? = some q → p.busy = true → q.busy = true → i = j
  held : ∀ (i : Nat) (p : Phase), sys.completions[i]? = some p → p.busy = true →
    sys.upload.session.status = .completing ∨ sys.upload.session.status = .aborted

-- What the others do to the row: nothing the status or the reservation shows, or
-- an abort of a session in flight.
inductive Outside (before after : SessionRow) : Prop where
  | same (status : after.status = before.status) (total : after.totalSize = before.totalSize)
      (reserved : after.quotaReservedBytes = before.quotaReservedBytes)
  | aborted (live : before.status.InFlight) (status : after.status = .aborted) (reserved : after.quotaReservedBytes = 0)

theorem Outside.reserves (outside : Outside before after) (reserves : Reserves before) : Reserves after := by
  cases outside with
  | same status total reserved => rw [Reserves,status,total,reserved]; exact reserves
  | aborted live status reserved => simp [Reserves,status,reserved,Status.InFlight]

theorem Outside.terminal (outside : Outside before after) (terminal : Terminal before.status) :
    after.status = before.status := by
  cases outside with
  | same status total reserved => exact status
  | aborted live status reserved => exact absurd terminal (inFlight_live live)

theorem abort_outside (now : Int) (userId : String) (session : SessionRow) :
    Outside session ((session.markAborted now userId).getD session) := by
  unfold SessionRow.markAborted
  split
  · rename_i live
    exact .aborted live.2 rfl rfl
  · exact .same rfl rfl rfl

theorem expire_outside (now : Int) (session : SessionRow) : Outside session (session.expireStale now) := by
  unfold SessionRow.expireStale
  split
  · rename_i stale
    exact .aborted stale.1 rfl rfl
  · exact .same rfl rfl rfl

theorem part_outside {statement : PartStatement} (ran : statement.run upload = some after) :
    Outside upload.session after.session := by
  cases statement with
  | upgrade part size sha => cases ran; exact .same rfl rfl rfl
  | stamp part sha => cases ran; exact .same rfl rfl rfl
  | insert part size sha =>
    simp only [PartStatement.run] at ran
    split at ran
    · cases ran
    · cases ran; exact .same rfl rfl rfl
  | credit now size => cases ran; exact .same rfl rfl rfl
  | sign part token => cases ran; exact .same rfl rfl rfl
  | place part token =>
    simp only [PartStatement.run] at ran
    split at ran
    · cases ran; exact .same rfl rfl rfl
    · cases ran; exact .same rfl rfl rfl
  | consume part token => cases ran; exact .same rfl rfl rfl

theorem begin_idle (now : Int) (userId : String) (session : SessionRow) : (begin now userId session).busy = false := by
  unfold begin
  split
  · rfl
  · split
    · rfl
    · rfl

theorem check_idle (copy : SessionRow) (received : Nat) (instant : Bool) : (check copy received instant).busy = false := by
  unfold check
  split
  · rfl
  · split
    · rfl
    · rfl

inductive Advanced (session : SessionRow) : Event → Phase → Phase → SessionRow → Prop where
  | idle (reach : after.busy = true → before.busy = true) : Advanced session e before after session
  | marks (active : session.status = .active) :
      Advanced session e (.ready copy) .finalizing {session with status := .completing,updatedAt := now}
  | completes : Advanced session (.writeBack task now) .registered (.done (some (.ok ()))) (session.markComplete now)
  | reverts : Advanced session (.writeBack task now) (.failed error) (.done (some (.error error))) (session.reactivated now)

theorem advance_cases (ran : advance upload e before = some (after,session)) :
    Advanced upload.session e before after session := by
  unfold advance at ran
  split at ran
  · cases ran; exact .idle (fun busy => by cases busy)
  · cases ran; exact .idle (fun busy => by rw [check_idle] at busy; cases busy)
  · split at ran
    · rename_i marked
      cases ran
      simp only [SessionRow.markCompleting] at marked
      split at marked
      · rename_i owned
        cases marked
        exact .marks owned.2
      · cases marked
    · cases ran; exact .idle (fun busy => by cases busy)
  · cases ran; exact .idle (fun _ => rfl)
  · cases ran; exact .idle (fun _ => rfl)
  · cases ran; exact .completes
  · cases ran; exact .reverts
  · cases ran
  · cases ran; exact .idle (fun busy => by cases busy)
  · cases ran

theorem step_cases (fired : step sys e = some next) :
    (Outside sys.upload.session next.upload.session ∧
      ∀ (i : Nat) (p : Phase), next.completions[i]? = some p → p.busy = true → sys.completions[i]? = some p) ∨
    ∃ task before after session, e.task = some task ∧ sys.completions[task]? = some before ∧
      Advanced sys.upload.session e before after session ∧
      next = ⟨{sys.upload with session := session},sys.completions.set task after⟩ := by
  unfold step at fired
  split at fired
  · cases fired
    refine .inl ⟨.same rfl rfl rfl,?_⟩
    intro i p found busy
    rcases Slots.append_cases found with ⟨_,rfl⟩ | old
    · rw [begin_idle] at busy
      cases busy
    · exact old
  · cases fired; exact .inl ⟨abort_outside _ _ _,fun _ _ found _ => found⟩
  · cases fired; exact .inl ⟨expire_outside _ _,fun _ _ found _ => found⟩
  · obtain ⟨upload,ran,rfl⟩ := map_eq_some_iff.mp fired
    exact .inl ⟨part_outside ran,fun _ _ found _ => found⟩
  · obtain ⟨task,named,advanced⟩ := bind_eq_some_iff.mp fired
    unfold advanceTask at advanced
    split at advanced
    · cases advanced
    · rename_i before found
      split at advanced
      · cases advanced
      · rename_i after session ran
        cases advanced
        exact .inr ⟨task,before,after,session,named,found,advance_cases ran,rfl⟩

section
variable (calm : Calm sys)
include calm

theorem outside_calm (outside : Outside sys.upload.session next.upload.session)
    (older : ∀ (i : Nat) (p : Phase), next.completions[i]? = some p → p.busy = true → sys.completions[i]? = some p) :
    Calm next := by
  refine ⟨outside.reserves calm.reserves,?_,?_⟩
  · intro i j p q first second busy busy'
    exact calm.once i j p q (older i p first busy) (older j q second busy') busy busy'
  · intro i p found busy
    have status := calm.held i p (older i p found busy) busy
    cases outside with
    | same same _ _ => rw [same]; exact status
    | aborted _ aborted _ => exact .inr aborted

theorem Calm.none_left (found : sys.completions[task]? = some before) (was : before.busy = true)
    (after : Phase) (done : after.busy = false) : ∀ (i : Nat) (p : Phase), (sys.completions.set task after)[i]? = some p → p.busy ≠ true := by
  intro i p present busy
  rcases Slots.set_cases present with ⟨_,rfl⟩ | ⟨other,still⟩
  · rw [done] at busy
    cases busy
  · exact other (calm.once i task p before still found busy was)

theorem advanced_calm (found : sys.completions[task]? = some before) (named : e.task = some task)
    (advanced : Advanced sys.upload.session e before after session) (timely : InTime sys e) :
    Calm ⟨{sys.upload with session := session},sys.completions.set task after⟩ ∧
      (Terminal sys.upload.session.status → session.status = sys.upload.session.status) := by
  cases advanced with
  | idle reach =>
    refine ⟨⟨calm.reserves,?_,?_⟩,fun _ => rfl⟩
    · -- a phase that is busy now was busy before, at its own place
      have older : ∀ (i : Nat) (p : Phase), (sys.completions.set task after)[i]? = some p → p.busy = true →
          ∃ q, sys.completions[i]? = some q ∧ q.busy = true := by
        intro i p present busy
        rcases Slots.set_cases present with ⟨rfl,rfl⟩ | ⟨_,still⟩
        · exact ⟨before,found,reach busy⟩
        · exact ⟨p,still,busy⟩
      intro i j p q first second busy busy'
      obtain ⟨p',first',held⟩ := older i p first busy
      obtain ⟨q',second',held'⟩ := older j q second busy'
      exact calm.once i j p' q' first' second' held held'
    · intro i p present busy
      rcases Slots.set_cases present with ⟨rfl,rfl⟩ | ⟨_,still⟩
      · exact calm.held i before found (reach busy)
      · exact calm.held i p still busy
  | marks active =>
    -- while the session is active no completion is past its mark
    have none : ∀ (i : Nat) (p : Phase), sys.completions[i]? = some p → p.busy ≠ true := by
      intro i p present busy
      rcases calm.held i p present busy with completing | aborted
      · rw [active] at completing; cases completing
      · rw [active] at aborted; cases aborted
    refine ⟨⟨?_,?_,?_⟩,?_⟩
    · have reserves := calm.reserves
      simp only [Reserves,active,Status.InFlight,true_or,if_true] at reserves
      simpa [Reserves,Status.InFlight] using reserves
    · intro i j p q first second busy busy'
      rcases Slots.set_cases first with ⟨rfl,_⟩ | ⟨_,still⟩
      · rcases Slots.set_cases second with ⟨rfl,_⟩ | ⟨_,still'⟩
        · rfl
        · exact absurd busy' (none j q still')
      · exact absurd busy (none i p still)
    · intro i p _ _
      exact .inl rfl
    · exact fun terminal => absurd terminal (inFlight_live (.inl active))
  | completes =>
    cases named
    have status := timely task _ _ rfl found rfl
    have none := calm.none_left found rfl (.done (some (.ok ()))) rfl
    refine ⟨⟨?_,?_,?_⟩,fun terminal => absurd terminal (inFlight_live (.inr status))⟩
    · simp [Reserves,SessionRow.markComplete,Status.InFlight]
    · exact fun i j p q first _ busy _ => absurd busy (none i p first)
    · exact fun i p present busy => absurd busy (none i p present)
  | @reverts _ _ error =>
    cases named
    have status := timely task _ _ rfl found rfl
    have none := calm.none_left found rfl (.done (some (.error error))) rfl
    refine ⟨⟨?_,?_,?_⟩,fun terminal => absurd terminal (inFlight_live (.inr status))⟩
    · have reserves := calm.reserves
      simp only [Reserves,status,Status.InFlight,or_true,if_true] at reserves
      simpa [Reserves,SessionRow.reactivated,Status.InFlight] using reserves
    · exact fun i j p q first _ busy _ => absurd busy (none i p first)
    · exact fun i p present busy => absurd busy (none i p present)

theorem step_calm (timely : InTime sys e) (fired : step sys e = some next) :
    Calm next ∧ (Terminal sys.upload.session.status → next.upload.session.status = sys.upload.session.status) := by
  rcases step_cases fired with ⟨outside,older⟩ | ⟨task,before,after,session,named,found,advanced,rfl⟩
  · exact ⟨outside_calm calm outside older,outside.terminal⟩
  · exact advanced_calm calm found named advanced timely

theorem late_unsound (sound : Sound sys e) : InTime sys e := by
  intro task now phase writes found last
  subst writes
  have busy : phase.busy = true := by
    cases phase with
    | registered => rfl
    | failed error => rfl
    | _ => cases last
  rcases calm.held task phase found busy with completing | aborted
  · exact completing
  · exfalso
    have kept := fun next fired => (sound.2 next fired).2 (.inr aborted)
    cases phase with
    | registered =>
      have fired : step sys (.writeBack task now) = some ⟨{sys.upload with session := sys.upload.session.markComplete now},
          sys.completions.set task (.done (some (.ok ())))⟩ := by
        simp only [step,Event.task,bind_some,advanceTask,found,advance]
      have status := kept _ fired
      rw [aborted] at status
      cases status
    | failed error =>
      have fired : step sys (.writeBack task now) = some ⟨{sys.upload with session := sys.upload.session.reactivated now},
          sys.completions.set task (.done (some (.error error)))⟩ := by
        simp only [step,Event.task,bind_some,advanceTask,found,advance]
      have status := kept _ fired
      rw [aborted] at status
      cases status
    | _ => cases last

end

theorem status_machine_iff (now : Int) (id userId fileOwnerId : String) (isVideo : Bool) (totalSize chunkSize : Int)
    (contentHash : Option String) (events : List Event) :
    Schedule.Along step Sound (created now id userId fileOwnerId isVideo totalSize chunkSize contentHash) events ↔
      Schedule.Along step InTime (created now id userId fileOwnerId isVideo totalSize chunkSize contentHash) events := by
  refine Schedule.along_congr (motive := Calm) ?_ ?_ ?_
  · intro sys e calm
    constructor
    · exact late_unsound calm
    · intro timely
      refine ⟨calm.reserves,?_⟩
      intro next fired
      obtain ⟨after,kept⟩ := step_calm calm timely fired
      exact ⟨after.reserves,kept⟩
  · intro sys e next calm timely fired
    exact (step_calm calm timely fired).1
  · refine ⟨by simp [Reserves,created,insertSession,Status.InFlight],?_,?_⟩
    · intro i j p q first
      cases first
    · intro i p found
      cases found

def smallUpload : System := created 0 "s" "u" "u" false 1048576 1048576 none

def aborting (outcome : Except AppError Unit) : List Event :=
  [.part (.insert 0 1048576 none),.part (.credit 1 1048576),.begin 2 "u",.list 0,.check 0 false,.mark 0 3,.abort 4 "u",
   .finalize 0 outcome]

def statusShown (events : List Event) : Option (Status × Int) :=
  (Schedule.run step smallUpload events).map
    (fun sys => (sys.upload.session.status,sys.upload.session.quotaReservedBytes))

theorem shown_unsound (aborted : statusShown before = some (.aborted,reserved))
    (after : statusShown (before ++ [e]) = some (status,reserved')) (moved : status ≠ .aborted) :
    ¬Schedule.Along step Sound smallUpload (before ++ [e]) := by
  intro sound
  obtain ⟨middle,ran,shown⟩ := map_eq_some_iff.mp aborted
  obtain ⟨last,whole,shown'⟩ := map_eq_some_iff.mp after
  rw [Schedule.run_append,ran] at whole
  obtain ⟨next,fired,ended⟩ := Schedule.run_cons whole
  cases Schedule.run_nil ended
  have status := (Prod.mk.inj shown).1
  have kept := ((sound.here ran).2 last fired).2 (.inr status)
  exact moved ((Prod.mk.inj shown').1.symm.trans (kept.trans status))

theorem aborted_revived :
    ¬Schedule.Along step Sound smallUpload (aborting (.error (.storage "put failed")) ++ [.writeBack 0 5]) ∧
    ¬Schedule.Along step Sound smallUpload (aborting (.ok ()) ++ [.writeBack 0 5]) := by
  constructor
  · exact shown_unsound (by decide : statusShown _ = some (.aborted,0)) (by decide : statusShown _ = some (.active,0))
      (by decide)
  · exact shown_unsound (by decide : statusShown _ = some (.aborted,0)) (by decide : statusShown _ = some (.complete,0))
      (by decide)

end Sessions

end Ownly.Uploads
