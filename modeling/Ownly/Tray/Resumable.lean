import Mathlib.Data.List.Nodup
import Ownly.Lib.Slots
import Ownly.Tray.Manager

-- One row that is uploaded through the resumable API: the attempts of `uploadClaimedItem`
-- (upload-manager.ts), each a run of `uploadFileResumableBytes` (resumable-upload.ts) under
-- `uploadFileWithProgressResumable` (client.ts), and the server's sessions for it.
namespace Ownly.Tray.Resumable
open List Option

structure ServerSession where
  totalParts : Nat
  parts : List Nat := []
  complete : Bool := false
deriving DecidableEq, Repr

structure Attempt where
  existingSessionId : Option Nat
  -- what the server has done for POST /uploads (the session, and whether it has the file
  -- already) or read for GET /uploads/{id}
  created : Option (Nat × Bool) := none
  listed : Option (List Nat) := none
  -- the session that was reported
  session : Option Nat := none
  -- the parts that no runner of `mapWithConcurrency` has taken, those that runners wait for,
  -- and those whose bytes may still come to the server
  missing : List Nat := []
  flights : List Nat := []
  air : List Nat := []
  completing : Bool := false
  registered : Bool := false
  settled : Bool := false
deriving DecidableEq, Repr

inductive Phase where
  | idle
  | running
  | backoff
  | done
deriving DecidableEq, Repr

-- `claimed` is the session in the copy of the row that `uploadClaimedItem` was given.
structure Row where
  resumableServerSessionId : Option Nat := none
  claimed : Option Nat := none
  retryAttempt : Nat := 0
  phase : Phase := .idle
  attempts : List Attempt := []
  sessions : List ServerSession := []
deriving DecidableEq, Repr

-- The quotients of upload-adaptive.ts, multiplied out.
def suggestedPartConcurrency (samples : List PartSample) : Nat :=
  let failures := (samples.filter (fun sample => !sample.ok)).length
  let ok := samples.filter (fun sample => sample.ok && decide (0 < sample.durationMs))
  let total := (ok.map PartSample.durationMs).sum
  if samples.length < 3 then 2
  else if 35 * samples.length ≤ 100 * failures then 1
  else if ok = [] then 2
  else if total < 1500 * ok.length ∧ 10 * failures < samples.length then 4
  else if total < 4000 * ok.length ∧ 5 * failures < samples.length then 3
  else 2

def putAttempt (a : Nat) (attempt : Attempt) (s : Row) : Row := { s with attempts := s.attempts.set a attempt }

def beginAttempt (existing : Option Nat) (s : Row) : Row :=
  { s with phase := .running, attempts := s.attempts ++ [{ existingSessionId := existing }] }

-- `uploadClaimedItem` for a row that was queued, or queued again by the user.
def claimRow (s : Row) : Row := beginAttempt s.resumableServerSessionId { s with claimed := s.resumableServerSessionId, retryAttempt := 0 }

def willRetry (s : Row) (error : Option ApiError) : Bool :=
  isRetryableUploadError error && decide (s.retryAttempt < uploadMaxRetries)

-- The attempt's promise is rejected; its other runners go on.
def failAttempt (a : Nat) (attempt : Attempt) (error : Option ApiError) (s : Row) : Row :=
  let s := putAttempt a { attempt with settled := true } s
  if willRetry s error then { s with phase := .backoff, retryAttempt := s.retryAttempt + 1 } else { s with phase := .idle }

-- The session, the parts it has and whether the server has the file, in the answer to come.
def answer (attempt : Attempt) : Option (Nat × List Nat × Bool) := match attempt.existingSessionId with
  | none => attempt.created.map (fun (session,dedup) => (session,[],dedup))
  | some session => attempt.listed.map (fun listed => (session,listed,false))

def missingParts (totalParts : Nat) (received : List Nat) : List Nat := (List.range totalParts).filter (fun part => decide (part ∉ received))

-- `uploadFileResumableBytes` from the answer of `ensureUploadSession` on.
def sendParts (session totalParts : Nat) (received : List Nat) (dedup : Bool) (samples : List PartSample) (attempt : Attempt) : Attempt :=
  if dedup then { attempt with session := some session, completing := true }
  else
    let missing := missingParts totalParts received
    let limit := suggestedPartConcurrency samples
    { attempt with
      session := some session
      missing := missing.drop limit
      flights := missing.take limit
      air := missing.take limit
      completing := decide (missing = []) }

def nextPart (part : Nat) (attempt : Attempt) : Attempt :=
  let left := attempt.flights.erase part ++ attempt.missing.take 1
  { attempt with
    flights := left
    missing := attempt.missing.drop 1
    air := attempt.air ++ attempt.missing.take 1
    completing := attempt.completing || (decide (left = []) && !attempt.settled) }

def storePart (part : Nat) (server : ServerSession) : ServerSession :=
  if part ∈ server.parts then server else { server with parts := server.parts ++ [part] }

inductive Event where
  | claim
  | retry
  | created (a totalParts : Nat) (dedup : Bool)
  | looked (a : Nat) (placeholders : List Nat)
  | opened (a : Nat) (samples : List PartSample)
  | openFailed (a : Nat) (error : Option ApiError)
  | stored (a part : Nat)
  | partSent (a part : Nat)
  | partFailed (a part : Nat) (error : Option ApiError)
  | committed (a : Nat) (dedup : Bool)
  | completed (a : Nat)
  | completeFailed (a : Nat) (error : Option ApiError)
deriving DecidableEq, Repr

def attemptStep (a : Nat) (attempt : Attempt) (s : Row) : Event → Option Row
  -- POST /uploads and GET /uploads/{id} at the server
  | .created _ totalParts dedup =>
    if attempt.existingSessionId = none ∧ attempt.created = none then
      some (putAttempt a { attempt with created := some (s.sessions.length,dedup) } { s with sessions := s.sessions ++ [{ totalParts }] })
    else none
  | .looked _ placeholders =>
    if attempt.listed = none then
      attempt.existingSessionId.bind (fun session => s.sessions[session]?.map (fun server =>
        putAttempt a { attempt with listed := some (server.parts ++ placeholders) } s))
    else none
  | .opened _ samples =>
    if attempt.settled = false ∧ attempt.session = none then
      (answer attempt).bind (fun (session,received,dedup) => s.sessions[session]?.map (fun server =>
        putAttempt a (sendParts session server.totalParts received dedup samples attempt) { s with resumableServerSessionId := some session }))
    else none
  | .openFailed _ error => if attempt.settled = false ∧ attempt.session = none then some (failAttempt a attempt error s) else none
  -- the bytes of a part come to the server, which takes them for an active session only
  | .stored _ part =>
    if part ∈ attempt.air then
      attempt.session.bind (fun session => s.sessions[session]?.bind (fun server =>
        if server.complete then none
        else some (putAttempt a { attempt with air := attempt.air.erase part } { s with sessions := s.sessions.set session (storePart part server) })))
    else none
  | .partSent _ part => if part ∈ attempt.flights ∧ part ∉ attempt.air then some (putAttempt a (nextPart part attempt) s) else none
  | .partFailed _ part error =>
    if part ∈ attempt.flights then
      let attempt := { attempt with flights := attempt.flights.erase part }
      some (if attempt.settled then putAttempt a attempt s else failAttempt a attempt error s)
    else none
  -- POST /uploads/{id}/complete at the server, which needs all parts unless it has the file
  | .committed _ dedup =>
    if attempt.completing = true then
      attempt.session.bind (fun session => s.sessions[session]?.bind (fun server =>
        if server.complete = false ∧ (dedup = true ∨ ∀ part < server.totalParts, part ∈ server.parts) then
          some (putAttempt a { attempt with registered := true } { s with sessions := s.sessions.set session { server with complete := true } })
        else none))
    else none
  | .completed _ =>
    if attempt.settled = false ∧ attempt.registered = true then some { putAttempt a { attempt with settled := true } s with phase := .done }
    else none
  | .completeFailed _ error => if attempt.settled = false ∧ attempt.completing = true then some (failAttempt a attempt error s) else none
  | _ => none

def attemptOf : Event → Option Nat
  | .claim => none
  | .retry => none
  | .created a _ _ => some a
  | .looked a _ => some a
  | .opened a _ => some a
  | .openFailed a _ => some a
  | .stored a _ => some a
  | .partSent a _ => some a
  | .partFailed a _ _ => some a
  | .committed a _ => some a
  | .completed a => some a
  | .completeFailed a _ => some a

def step (s : Row) (e : Event) : Option Row := match attemptOf e with
  | some a => s.attempts[a]?.bind (fun attempt => attemptStep a attempt s e)
  | none => match e with
    | .claim => if s.phase = .idle then some (claimRow s) else none
    | .retry => if s.phase = .backoff then some (beginAttempt s.claimed s) else none
    | _ => none

def start : Row := {}

def sends (s : Row) : Event → List Nat
  | .opened a samples => ((step s (.opened a samples)).bind (fun next => next.attempts[a]?.map Attempt.flights)).getD []
  | .partSent a part => if (step s (.partSent a part)).isSome then (s.attempts[a]?.map (fun attempt => attempt.missing.take 1)).getD [] else []
  | _ => []

-- A new attempt uses the session that was reported, no other is reported after it, and no
-- part is sent that the server has.
structure Reuses (s : Row) (e : Event) : Prop where
  attempts : ∀ next, step s e = some next → ∀ attempt, next.attempts[s.attempts.length]? = some attempt →
    ∀ session ∈ s.resumableServerSessionId, attempt.existingSessionId = some session
  reported : ∀ next, step s e = some next → ∀ session ∈ s.resumableServerSessionId, next.resumableServerSessionId = some session
  parts : ∀ part ∈ sends s e, ∀ server ∈ s.sessions, part ∉ server.parts

structure Single (s : Row) : Prop where
  reservations : (s.sessions.filter (fun server => !server.complete)).length ≤ 1
  files : (s.sessions.filter ServerSession.complete).length ≤ 1

def ahead (part : Nat) (attempt : Attempt) : Prop :=
  (attempt.settled = false ∧ attempt.session = none ∧ ∃ listed ∈ attempt.listed, part ∉ listed) ∨
    (attempt.flights ≠ [] ∧ part ∈ attempt.missing)

instance (part : Nat) (attempt : Attempt) : Decidable (ahead part attempt) := by unfold ahead; infer_instance

-- A request for a new session fails only where no session comes of it; an attempt that
-- reported its session is retried only in a run that was given the session; and no part
-- comes to the server while another attempt is still to send it.
def Orderly (s : Row) : Event → Prop
  | .created a _ _ => ∀ attempt ∈ s.attempts[a]?, attempt.settled = false
  | .openFailed a _ => ∀ attempt ∈ s.attempts[a]?, attempt.created = none
  | .stored a part => ∀ b < s.attempts.length, b ≠ a → ∀ attempt ∈ s.attempts[b]?, ¬ahead part attempt
  | .partFailed a _ error => ∀ attempt ∈ s.attempts[a]?, attempt.settled = false → willRetry s error = true →
      s.claimed = s.resumableServerSessionId
  | .completeFailed _ error => willRetry s error = true → s.claimed = s.resumableServerSessionId
  | _ => True

instance (s : Row) : (e : Event) → Decidable (Orderly s e) := by
  intro e
  cases e with
  | created a totalParts dedup => unfold Orderly; infer_instance
  | openFailed a error => unfold Orderly; infer_instance
  | stored a part => unfold Orderly; infer_instance
  | partFailed a part error => unfold Orderly; infer_instance
  | completeFailed a error => unfold Orderly; infer_instance
  | _ => exact instDecidableTrue

variable {s next : Row} {attempt other : Attempt} {server : ServerSession} {a b part session totalParts : Nat} {error : Option ApiError}
  {e : Event} {retryAttempt : Nat}

structure AttemptOk (s : Row) (attempt : Attempt) : Prop where
  opened : ∀ session ∈ attempt.session, s.resumableServerSessionId = some session ∧ (attempt.existingSessionId = none → attempt.created ≠ none)
  waiting : attempt.settled = false → attempt.session = none →
    attempt.existingSessionId = s.resumableServerSessionId ∧ s.claimed = s.resumableServerSessionId
  created : ∀ answered ∈ attempt.created, answered.1 < s.sessions.length ∧ (attempt.session = none → attempt.settled = false)
  existing : ∀ session ∈ attempt.existingSessionId, s.resumableServerSessionId = some session
  unsent : attempt.session = none → attempt.missing = [] ∧ attempt.flights = [] ∧ attempt.air = [] ∧
    attempt.completing = false ∧ attempt.registered = false
  once : attempt.missing.Nodup
  taken : ∀ part ∈ attempt.air, part ∉ attempt.missing
  ahead : ∀ server ∈ s.sessions, ∀ part ∈ server.parts, ¬ahead part attempt

structure Shared (s : Row) : Prop where
  one : s.sessions.length ≤ 1
  reported : ∀ session ∈ s.resumableServerSessionId, session < s.sessions.length
  unreported : s.resumableServerSessionId = none → ∀ server ∈ s.sessions, server.parts = []
  creator : s.resumableServerSessionId = none → s.sessions ≠ [] → ∃ attempt ∈ s.attempts, attempt.settled = false ∧ attempt.created ≠ none
  last : ∀ (a : Nat) (attempt : Attempt), s.attempts[a]? = some attempt → attempt.settled = false →
    a + 1 = s.attempts.length ∧ s.phase = .running
  backoff : s.phase = .backoff → s.claimed = s.resumableServerSessionId
  attempts : ∀ attempt ∈ s.attempts, AttemptOk s attempt

theorem start_shared : Shared start where
  one := Nat.zero_le _
  reported _ member := nomatch member
  unreported _ _ member := nomatch member
  creator _ some_ := absurd rfl some_
  last _ _ present := nomatch present
  backoff phase := nomatch phase
  attempts _ member := nomatch member

theorem Shared.single (shared : Shared s) : Single s :=
  ⟨Nat.le_trans (length_filter_le _ _) shared.one,Nat.le_trans (length_filter_le _ _) shared.one⟩

theorem Shared.settled (shared : Shared s) (idle : s.phase ≠ .running) (member : attempt ∈ s.attempts) : attempt.settled = true := by
  obtain ⟨a,present⟩ := mem_iff_getElem?.mp member
  refine Bool.of_not_eq_false (fun going => idle ?_)
  exact (shared.last a attempt present going).2

theorem begin_shared (shared : Shared s) (idle : s.phase ≠ .running) {claimed : Option Nat} (same : claimed = s.resumableServerSessionId)
    : Shared (beginAttempt claimed { s with claimed, retryAttempt }) where
  one := shared.one
  reported := shared.reported
  unreported := shared.unreported
  creator none_ some_ := by
    obtain ⟨attempt,member,going,_⟩ := shared.creator none_ some_
    exact absurd ((shared.settled idle member).symm.trans going) (by decide)
  last a attempt present going := by
    rcases Slots.append_cases present with ⟨rfl,_⟩ | before
    · refine ⟨?_,rfl⟩
      rw [beginAttempt,length_append]
      rfl
    · exact absurd ((shared.settled idle (mem_of_getElem? before)).symm.trans going) (by decide)
  backoff phase := nomatch phase
  attempts attempt member := by
    rcases mem_append.mp member with old | new
    · have ok := shared.attempts attempt old
      have over_ := shared.settled idle old
      exact ⟨ok.opened,fun going => absurd (over_.symm.trans going) (by decide),ok.created,ok.existing,ok.unsent,ok.once,ok.taken,
        ok.ahead⟩
    · cases mem_singleton.mp new
      refine ⟨fun _ present => (nomatch present),fun _ _ => ⟨same,same⟩,fun _ present => (nomatch present),fun _ present => same.symm.trans present,
        fun _ => ⟨rfl,rfl,rfl,rfl,rfl⟩,nodup_nil,fun _ member => (nomatch member),?_⟩
      rintro _ _ _ _ (⟨_,_,_,present,_⟩ | ⟨flights,_⟩)
      · cases present
      · exact flights rfl

theorem put_shared (sessions : List ServerSession) (shared : Shared s) (found : s.attempts[a]? = some attempt)
    (going : other.settled = false → attempt.settled = false) (length : sessions.length = s.sessions.length)
    (unreported : s.resumableServerSessionId = none → ∀ server ∈ sessions, server.parts = [])
    (creator : s.resumableServerSessionId = none → s.sessions ≠ [] → attempt.settled = false → attempt.created ≠ none →
      other.settled = false ∧ other.created ≠ none)
    (ok : AttemptOk { s with sessions } other)
    (rest : ∀ b attempt, b ≠ a → s.attempts[b]? = some attempt → ∀ server ∈ sessions, ∀ part ∈ server.parts, ¬ahead part attempt) :
    Shared (putAttempt a other { s with sessions }) where
  one := length ▸ shared.one
  reported session member := by
    show session < sessions.length
    rw [length]
    exact shared.reported session member
  unreported := unreported
  creator none_ some_ := by
    have before : s.sessions ≠ [] := by
      rintro empty
      rw [empty] at length
      exact some_ (eq_nil_of_length_eq_zero length)
    obtain ⟨old,member,going',made⟩ := shared.creator none_ before
    obtain ⟨inside,_⟩ := List.getElem?_eq_some_iff.mp found
    obtain ⟨b,present⟩ := mem_iff_getElem?.mp member
    by_cases same : b = a
    · subst same
      cases present.symm.trans found
      exact ⟨other,mem_of_getElem? (getElem?_set_self inside),creator none_ before going' made⟩
    · exact ⟨old,mem_of_getElem? ((getElem?_set_ne (Ne.symm same)).trans present),going',made⟩
  last b new present still := by
    rw [putAttempt,length_set]
    rcases Slots.set_cases present with ⟨rfl,rfl⟩ | ⟨_,before⟩
    · exact shared.last b attempt found (going still)
    · exact shared.last b new before still
  backoff := shared.backoff
  attempts new member := by
    obtain ⟨b,present⟩ := mem_iff_getElem?.mp member
    rcases Slots.set_cases present with ⟨rfl,rfl⟩ | ⟨ne,before⟩
    · exact ⟨ok.opened,ok.waiting,ok.created,ok.existing,ok.unsent,ok.once,ok.taken,
        ok.ahead⟩
    · have old := shared.attempts new (mem_of_getElem? before)
      refine ⟨old.opened,old.waiting,fun answered made => ?_,old.existing,old.unsent,old.once,old.taken,rest b new ne before⟩
      refine ⟨?_,(old.created answered made).2⟩
      show answered.1 < sessions.length
      rw [length]
      exact (old.created answered made).1

section
variable (shared : Shared s) (found : s.attempts[a]? = some attempt) (going : attempt.settled = false)
include shared found going

theorem Shared.only
    (present : s.attempts[b]? = some other) (still : other.settled = false) : a = b :=
  Nat.add_right_cancel ((shared.last a attempt found going).1.trans (shared.last b other present still).1.symm)

theorem created_shared
    (existing : attempt.existingSessionId = none) (made : attempt.created = none) (totalParts : Nat) (dedup : Bool) :
    Shared (putAttempt a { attempt with created := some (s.sessions.length,dedup) } { s with sessions := s.sessions ++ [{ totalParts }] }) := by
  have ok := shared.attempts attempt (mem_of_getElem? found)
  have unopened : attempt.session = none := by
    cases opened : attempt.session with
    | none => rfl
    | some session => exact absurd made ((ok.opened session opened).2 existing)
  obtain ⟨same,claimed⟩ := ok.waiting going unopened
  have unreported := same.symm.trans existing
  have empty : s.sessions = [] := by
    by_contra some_
    obtain ⟨old,member,still,earlier⟩ := shared.creator unreported some_
    obtain ⟨b,present⟩ := mem_iff_getElem?.mp member
    cases shared.only found going present still
    cases present.symm.trans found
    exact earlier made
  rw [empty]
  obtain ⟨inside,_⟩ := List.getElem?_eq_some_iff.mp found
  refine ⟨Nat.le_refl _,fun session reported => ?_,fun _ server member => ?_,fun _ _ => ?_,fun b new present still => ?_,shared.backoff,
    fun new member => ?_⟩
  · exact absurd (unreported.symm.trans reported) (nomatch ·)
  · cases mem_singleton.mp member
    rfl
  · exact ⟨_,mem_of_getElem? (getElem?_set_self inside),going,(nomatch ·)⟩
  · rw [putAttempt,length_set]
    rcases Slots.set_cases present with ⟨rfl,rfl⟩ | ⟨_,before⟩
    · exact shared.last b attempt found going
    · exact shared.last b new before still
  · have bare : ∀ server ∈ [({ totalParts } : ServerSession)], ∀ part ∈ server.parts, ¬ahead part new := by
      intro server member part had
      cases mem_singleton.mp member
      cases had
    obtain ⟨b,present⟩ := mem_iff_getElem?.mp member
    rcases Slots.set_cases present with ⟨rfl,rfl⟩ | ⟨_,before⟩
    · refine ⟨fun session opened => ⟨(ok.opened session opened).1,fun _ => (nomatch ·)⟩,ok.waiting,fun answered now => ?_,ok.existing,
        ok.unsent,ok.once,ok.taken,bare⟩
      cases now
      exact ⟨Nat.zero_lt_one,fun _ => going⟩
    · have old := shared.attempts new (mem_of_getElem? before)
      refine ⟨old.opened,old.waiting,fun answered now => ?_,old.existing,old.unsent,old.once,old.taken,bare⟩
      have less := (old.created answered now).1
      rw [empty] at less
      exact absurd less (Nat.not_lt_zero _)

end

theorem missing_nodup (totalParts : Nat) (received : List Nat) : (missingParts totalParts received).Nodup :=
  nodup_range.sublist filter_sublist

theorem missing_unreceived {received : List Nat} (member : part ∈ missingParts totalParts received) : part ∉ received :=
  of_decide_eq_true (mem_filter.mp member).2

theorem drop_taken {parts : List Nat} (once : parts.Nodup) (n : Nat) (member : part ∈ parts.take n) : part ∉ parts.drop n := by
  rw [← take_append_drop n parts] at once
  exact fun later => (nodup_append'.mp once).2.2 member later

theorem send_settled (session totalParts : Nat) (attempt : Attempt) (samples : List PartSample) (received : List Nat) (dedup : Bool) :
    (sendParts session totalParts received dedup samples attempt).settled = attempt.settled ∧
    (sendParts session totalParts received dedup samples attempt).session = some session ∧
    (sendParts session totalParts received dedup samples attempt).created = attempt.created ∧
    (sendParts session totalParts received dedup samples attempt).existingSessionId = attempt.existingSessionId := by
  unfold sendParts
  split <;> exact ⟨rfl,rfl,rfl,rfl⟩

theorem send_missing (session totalParts : Nat) (samples : List PartSample) (received : List Nat) (dedup : Bool)
    (missing : attempt.missing = []) (flights : attempt.flights = []) (air : attempt.air = []) :
    (sendParts session totalParts received dedup samples attempt).missing.Nodup ∧
    (∀ part ∈ (sendParts session totalParts received dedup samples attempt).air,
      part ∉ (sendParts session totalParts received dedup samples attempt).missing) ∧
    (∀ part ∈ (sendParts session totalParts received dedup samples attempt).missing, part ∉ received) ∧
    ∀ part ∈ (sendParts session totalParts received dedup samples attempt).flights, part ∉ received := by
  have once := missing_nodup totalParts received
  unfold sendParts
  split
  · dsimp only
    rw [missing,flights,air]
    exact ⟨nodup_nil,fun _ member => (nomatch member),fun _ member => (nomatch member),fun _ member => nomatch member⟩
  · exact ⟨once.sublist (drop_sublist _ _),fun _ member => drop_taken once _ member,
      fun _ member => missing_unreceived (mem_of_mem_drop member),fun _ member => missing_unreceived (mem_of_mem_take member)⟩

section
variable (shared : Shared s) (found : s.attempts[a]? = some attempt) (going : attempt.settled = false)
variable (unopened : attempt.session = none) {received : List Nat} {dedup : Bool}
variable (some_ : answer attempt = some (session,received,dedup))
include shared found going unopened some_

theorem answered :
    (∀ reported ∈ s.resumableServerSessionId, reported = session) ∧ (attempt.existingSessionId = none → attempt.created ≠ none) ∧
      (∀ existing ∈ attempt.existingSessionId, existing = session) ∧
      ∀ server ∈ s.sessions, ∀ part ∈ server.parts, part ∈ received := by
  have ok := shared.attempts attempt (mem_of_getElem? found)
  obtain ⟨same,_⟩ := ok.waiting going unopened
  rw [answer] at some_
  cases existing : attempt.existingSessionId with
  | none =>
    rw [existing] at some_ same
    obtain ⟨made,present,_⟩ := map_eq_some_iff.mp some_
    refine ⟨fun reported known => ?_,fun _ none_ => ?_,fun _ known => (nomatch known),fun server member part had => ?_⟩
    · rw [← same] at known; cases known
    · rw [none_] at present; cases present
    · rw [shared.unreported same.symm server member] at had; cases had
  | some id =>
    rw [existing] at some_ same
    obtain ⟨listed,present,pair⟩ := map_eq_some_iff.mp some_
    cases pair
    refine ⟨fun reported known => ?_,(nomatch ·),fun _ known => (Option.some.inj known).symm,fun server member part had => ?_⟩
    · rw [← same] at known; exact (Option.some.inj known).symm
    · by_contra unlisted
      exact ok.ahead server member part had (.inl ⟨going,unopened,_,present,unlisted⟩)

theorem opened_shared (inside : session < s.sessions.length) (samples : List PartSample) :
    Shared (putAttempt a (sendParts session totalParts received dedup samples attempt) { s with resumableServerSessionId := some session }) := by
  have ok := shared.attempts attempt (mem_of_getElem? found)
  obtain ⟨reported,made,existing,listed⟩ := answered shared found going unopened some_
  obtain ⟨settled,opened,created,old⟩ := send_settled session totalParts attempt samples received dedup
  obtain ⟨once,taken,missing,_⟩ := send_missing session totalParts samples received dedup (ok.unsent unopened).1 (ok.unsent unopened).2.1 (ok.unsent unopened).2.2.1
  obtain ⟨_,running⟩ := shared.last a attempt found going
  refine ⟨shared.one,fun _ now => ?_,(nomatch ·),(nomatch ·),fun b new present still => ?_,fun backoff => ?_,fun new member => ?_⟩
  · cases now
    exact inside
  · rw [putAttempt,length_set]
    rcases Slots.set_cases present with ⟨rfl,rfl⟩ | ⟨_,before⟩
    · exact shared.last b attempt found going
    · exact shared.last b new before still
  · exact absurd (running.symm.trans backoff) (nomatch ·)
  · obtain ⟨b,present⟩ := mem_iff_getElem?.mp member
    rcases Slots.set_cases present with ⟨rfl,rfl⟩ | ⟨ne,before⟩
    · refine ⟨fun now same => ⟨opened.symm.trans same,fun none_ => ?_⟩,fun _ none_ => ?_,fun answered now => ⟨?_,fun none_ => ?_⟩,
        fun now same => ?_,fun none_ => ?_,once,taken,?_⟩
      · rw [created]; exact made (old ▸ none_)
      · exact absurd (opened.symm.trans none_) (nomatch ·)
      · exact (ok.created answered (created ▸ now)).1
      · exact absurd (opened.symm.trans none_) (nomatch ·)
      · exact congrArg some (existing now (old ▸ same)).symm
      · exact absurd (opened.symm.trans none_) (nomatch ·)
      · rintro server here part had (⟨_,none_,_⟩ | ⟨_,later⟩)
        · exact absurd (opened.symm.trans none_) (nomatch ·)
        · exact missing part later (listed server here part had)
    · have old := shared.attempts new (mem_of_getElem? before)
      refine ⟨fun now same => ⟨?_,(old.opened now same).2⟩,fun still _ => ?_,old.created,fun now same => ?_,old.unsent,old.once,old.taken,old.ahead⟩
      · exact congrArg some (reported now (old.opened now same).1).symm
      · exact absurd (shared.only found going before still).symm ne
      · exact congrArg some (reported now (old.existing now same)).symm

end

theorem phase_shared {phase : Phase} (shared : Shared s) (ended : ∀ attempt ∈ s.attempts, attempt.settled = true)
    (backoff : phase = .backoff → s.claimed = s.resumableServerSessionId) : Shared { s with phase, retryAttempt } where
  one := shared.one
  reported := shared.reported
  unreported := shared.unreported
  creator := shared.creator
  last _ attempt present still := absurd ((ended attempt (mem_of_getElem? present)).symm.trans still) (by decide)
  backoff := backoff
  attempts attempt member := by
    have ok := shared.attempts attempt member
    exact ⟨ok.opened,ok.waiting,ok.created,ok.existing,ok.unsent,ok.once,ok.taken,ok.ahead⟩

theorem settle_shared (shared : Shared s) (found : s.attempts[a]? = some attempt) (going : attempt.settled = false)
    (settled : other.settled = true) (closed : s.resumableServerSessionId = none → attempt.created = none)
    (ok : AttemptOk s other) :
    Shared (putAttempt a other s) ∧ ∀ attempt ∈ (putAttempt a other s).attempts, attempt.settled = true := by
  constructor
  · refine put_shared s.sessions shared found (fun still => ?_) rfl shared.unreported (fun none_ _ _ made => ?_) ok
      (fun b attempt _ present => (shared.attempts attempt (mem_of_getElem? present)).ahead)
    · exact absurd (settled.symm.trans still) (by decide)
    · exact absurd (closed none_) made
  · intro new member
    obtain ⟨b,present⟩ := mem_iff_getElem?.mp member
    rcases Slots.set_cases present with ⟨rfl,rfl⟩ | ⟨ne,before⟩
    · exact settled
    · exact Bool.of_not_eq_false (fun still => ne (shared.only found going before still).symm)

section
variable (ok : AttemptOk s attempt) (opened : attempt.session = none → attempt.created = none)
include ok opened

theorem AttemptOk.settle :
    AttemptOk s { attempt with settled := true } where
  opened := ok.opened
  waiting going := nomatch going
  created answered made := ⟨(ok.created answered made).1,fun none_ => absurd ((opened none_).symm.trans made) (nomatch ·)⟩
  existing := ok.existing
  unsent := ok.unsent
  once := ok.once
  taken := ok.taken
  ahead server member part had := by
    rintro (⟨going,_⟩ | busy)
    · cases going
    · exact ok.ahead server member part had (.inr busy)

theorem AttemptOk.closed
    (none_ : s.resumableServerSessionId = none) : attempt.created = none := by
  refine opened ?_
  cases present : attempt.session with
  | none => rfl
  | some session => exact absurd (none_.symm.trans (ok.opened session present).1) (nomatch ·)

end

theorem fail_shared (shared : Shared s) (found : s.attempts[a]? = some attempt) (going : attempt.settled = false)
    (closed : s.resumableServerSessionId = none → attempt.created = none) (ok : AttemptOk s { other with settled := true })
    (again : willRetry s error = true → s.claimed = s.resumableServerSessionId) : Shared (failAttempt a other error s) := by
  obtain ⟨put,ended⟩ := settle_shared shared found going rfl closed ok
  unfold failAttempt
  dsimp only
  split
  · next retries => exact phase_shared put ended (fun _ => again retries)
  · exact phase_shared put ended (fun backoff => nomatch backoff)

theorem AttemptOk.land (ok : AttemptOk s attempt) (member : part ∈ attempt.flights) :
    AttemptOk s { attempt with flights := attempt.flights.erase part } where
  opened := ok.opened
  waiting := ok.waiting
  created := ok.created
  existing := ok.existing
  unsent none_ := by
    rw [(ok.unsent none_).2.1] at member
    cases member
  once := ok.once
  taken := ok.taken
  ahead server inside part had := by
    rintro (open_ | ⟨_,later⟩)
    · exact ok.ahead server inside part had (.inl open_)
    · exact ok.ahead server inside part had (.inr ⟨ne_nil_of_mem member,later⟩)

theorem AttemptOk.through (ok : AttemptOk s attempt) (member : part ∈ attempt.flights) : AttemptOk s (nextPart part attempt) where
  opened := ok.opened
  waiting := ok.waiting
  created := ok.created
  existing := ok.existing
  unsent none_ := by
    rw [(ok.unsent none_).2.1] at member
    cases member
  once := ok.once.sublist (drop_sublist _ _)
  taken other flying := by
    rcases mem_append.mp flying with old | new
    · exact fun later => ok.taken other old (mem_of_mem_drop later)
    · exact drop_taken ok.once 1 new
  ahead server inside other had := by
    rintro (open_ | ⟨_,later⟩)
    · exact ok.ahead server inside other had (.inl open_)
    · exact ok.ahead server inside other had (.inr ⟨ne_nil_of_mem member,mem_of_mem_drop later⟩)

theorem AttemptOk.look (ok : AttemptOk s attempt) {listed : List Nat} (all : ∀ server ∈ s.sessions, ∀ part ∈ server.parts, part ∈ listed) :
    AttemptOk s { attempt with listed := some listed } where
  opened := ok.opened
  waiting := ok.waiting
  created := ok.created
  existing := ok.existing
  unsent := ok.unsent
  once := ok.once
  taken := ok.taken
  ahead server inside part had := by
    rintro (⟨_,_,other,present,unlisted⟩ | busy)
    · cases present
      exact unlisted (all server inside part had)
    · exact ok.ahead server inside part had (.inr busy)

theorem attempt_shared (shared : Shared s) (found : s.attempts[a]? = some attempt) (going : other.settled = attempt.settled)
    (created : other.created = attempt.created) (ok : AttemptOk s other) : Shared (putAttempt a other s) :=
  put_shared s.sessions shared found (fun still => going ▸ still) rfl shared.unreported
    (fun _ _ still made => ⟨going.trans still,created ▸ made⟩) ok
    (fun _ attempt _ present => (shared.attempts attempt (mem_of_getElem? present)).ahead)

theorem set_server {sessions : List ServerSession} {old new : ServerSession} (member : old ∈ sessions.set session new) :
    old = new ∨ old ∈ sessions := by
  obtain ⟨k,present⟩ := mem_iff_getElem?.mp member
  rcases Slots.set_cases present with ⟨_,rfl⟩ | ⟨_,before⟩
  · exact .inl rfl
  · exact .inr (mem_of_getElem? before)

theorem stored_parts {had : Nat} (member : had ∈ (storePart part server).parts) : had = part ∨ had ∈ server.parts := by
  unfold storePart at member
  split at member
  · exact .inr member
  · rcases mem_append.mp member with old | new
    · exact .inr old
    · exact .inl (mem_singleton.mp new)

section
variable (shared : Shared s) (found : s.attempts[a]? = some attempt)
include shared found

theorem stored_shared (flying : part ∈ attempt.air)
    (opened : attempt.session = some session) (here : s.sessions[session]? = some server)
    (alone : ∀ b < s.attempts.length, b ≠ a → ∀ attempt ∈ s.attempts[b]?, ¬ahead part attempt) :
    Shared (putAttempt a { attempt with air := attempt.air.erase part } { s with sessions := s.sessions.set session (storePart part server) }) := by
  have ok := shared.attempts attempt (mem_of_getElem? found)
  have reported := (ok.opened session opened).1
  have from_ : ∀ old ∈ s.sessions.set session (storePart part server), ∀ had ∈ old.parts,
      had = part ∨ ∃ server ∈ s.sessions, had ∈ server.parts := by
    intro old member had inside
    rcases set_server member with rfl | before
    · exact (stored_parts inside).imp (fun same => same) (fun before => ⟨server,mem_of_getElem? here,before⟩)
    · exact .inr ⟨old,before,inside⟩
  refine put_shared _ shared found (fun still => still) length_set (fun none_ => ?_) (fun _ _ still made => ⟨still,made⟩)
    ⟨ok.opened,ok.waiting,fun answered made => ?_,ok.existing,fun none_ => ?_,ok.once,fun other member => ?_,fun old member had inside => ?_⟩
    (fun b other ne present old member had inside => ?_)
  · exact absurd (none_.symm.trans reported) (nomatch ·)
  · refine ⟨?_,(ok.created answered made).2⟩
    show answered.1 < (s.sessions.set session (storePart part server)).length
    rw [length_set]
    exact (ok.created answered made).1
  · exact absurd (opened.symm.trans none_) (nomatch ·)
  · exact ok.taken other (mem_of_mem_erase member)
  · rintro (⟨_,none_,_⟩ | ⟨busy,later⟩)
    · exact absurd (opened.symm.trans none_) (nomatch ·)
    · rcases from_ old member had inside with rfl | ⟨server,before,earlier⟩
      · exact ok.taken had flying later
      · exact ok.ahead server before had earlier (.inr ⟨busy,later⟩)
  · rcases from_ old member had inside with rfl | ⟨server,before,earlier⟩
    · exact alone b (List.getElem?_eq_some_iff.mp present).1 ne other present
    · exact (shared.attempts other (mem_of_getElem? present)).ahead server before had earlier

theorem committed_shared (opened : attempt.session = some session)
    (here : s.sessions[session]? = some server) :
    Shared (putAttempt a { attempt with registered := true } { s with sessions := s.sessions.set session { server with complete := true } }) := by
  have ok := shared.attempts attempt (mem_of_getElem? found)
  have from_ : ∀ old ∈ s.sessions.set session { server with complete := true }, ∃ server ∈ s.sessions, old.parts = server.parts := by
    intro old member
    rcases set_server member with rfl | before
    · exact ⟨server,mem_of_getElem? here,rfl⟩
    · exact ⟨old,before,rfl⟩
  refine put_shared _ shared found (fun still => still) length_set (fun none_ => ?_) (fun _ _ still made => ⟨still,made⟩)
    ⟨ok.opened,ok.waiting,fun answered made => ?_,ok.existing,fun none_ => ?_,ok.once,ok.taken,fun old member had inside => ?_⟩
    (fun b other _ present old member had inside => ?_)
  · exact absurd (none_.symm.trans (ok.opened session opened).1) (nomatch ·)
  · refine ⟨?_,(ok.created answered made).2⟩
    show answered.1 < (s.sessions.set session { server with complete := true }).length
    rw [length_set]
    exact (ok.created answered made).1
  · exact absurd (opened.symm.trans none_) (nomatch ·)
  · obtain ⟨server,before,same⟩ := from_ old member
    exact ok.ahead server before had (same ▸ inside)
  · obtain ⟨server,before,same⟩ := from_ old member
    exact (shared.attempts other (mem_of_getElem? present)).ahead server before had (same ▸ inside)

theorem attemptStep_shared (mine : attemptOf e = some a)
    (orderly : Orderly s e) (fired : attemptStep a attempt s e = some next) : Shared next := by
  have ok := shared.attempts attempt (mem_of_getElem? found)
  cases e with
  | claim => cases fired
  | retry => cases fired
  | created b totalParts dedup =>
    cases mine
    obtain ⟨⟨existing,made⟩,same⟩ := ite_none_right_eq_some.mp fired
    cases same
    exact created_shared shared found (orderly attempt found) existing made totalParts dedup
  | looked b placeholders =>
    cases mine
    obtain ⟨_,fired⟩ := ite_none_right_eq_some.mp fired
    obtain ⟨session,_,fired⟩ := bind_eq_some_iff.mp fired
    obtain ⟨server,here,rfl⟩ := map_eq_some_iff.mp fired
    refine attempt_shared shared found rfl rfl (ok.look (fun other member part had => mem_append_left _ ?_))
    have one := shared.one
    obtain ⟨inside,same⟩ := List.getElem?_eq_some_iff.mp here
    obtain ⟨k,inside',same'⟩ := getElem_of_mem member
    have index : k = session := by omega
    subst index
    rw [← same,same']
    exact had
  | opened b samples =>
    cases mine
    obtain ⟨⟨going,unopened⟩,fired⟩ := ite_none_right_eq_some.mp fired
    obtain ⟨⟨session,received,dedup⟩,some_,fired⟩ := bind_eq_some_iff.mp fired
    obtain ⟨server,here,rfl⟩ := map_eq_some_iff.mp fired
    exact opened_shared shared found going unopened some_ (List.getElem?_eq_some_iff.mp here).1 samples
  | openFailed b error =>
    cases mine
    obtain ⟨⟨going,unopened⟩,same⟩ := ite_none_right_eq_some.mp fired
    cases same
    have none_ := orderly attempt found
    exact fail_shared shared found going (fun _ => none_) (ok.settle (fun _ => none_)) (fun _ => (ok.waiting going unopened).2)
  | stored b part =>
    cases mine
    obtain ⟨flying,fired⟩ := ite_none_right_eq_some.mp fired
    obtain ⟨session,opened,fired⟩ := bind_eq_some_iff.mp fired
    obtain ⟨server,here,fired⟩ := bind_eq_some_iff.mp fired
    split at fired
    · cases fired
    · cases fired
      exact stored_shared shared found flying opened here orderly
  | partSent b part =>
    cases mine
    obtain ⟨⟨flying,_⟩,same⟩ := ite_none_right_eq_some.mp fired
    cases same
    exact attempt_shared shared found rfl rfl (ok.through flying)
  | partFailed b part error =>
    cases mine
    obtain ⟨flying,same⟩ := ite_none_right_eq_some.mp fired
    cases same
    have landed := ok.land flying
    have opened : attempt.session = none → attempt.created = none := by
      intro none_
      rw [(ok.unsent none_).2.1] at flying
      cases flying
    split
    · exact attempt_shared shared found rfl rfl landed
    · next going =>
      have still := Bool.eq_false_iff.mpr going
      exact fail_shared shared found still (ok.closed opened) (landed.settle opened) (orderly attempt found still)
  | committed b dedup =>
    cases mine
    obtain ⟨_,fired⟩ := ite_none_right_eq_some.mp fired
    obtain ⟨session,opened,fired⟩ := bind_eq_some_iff.mp fired
    obtain ⟨server,here,fired⟩ := bind_eq_some_iff.mp fired
    obtain ⟨_,same⟩ := ite_none_right_eq_some.mp fired
    cases same
    exact committed_shared shared found opened here
  | completed b =>
    cases mine
    obtain ⟨⟨going,registered⟩,same⟩ := ite_none_right_eq_some.mp fired
    cases same
    have opened : attempt.session = none → attempt.created = none :=
      fun none_ => absurd ((ok.unsent none_).2.2.2.2.symm.trans registered) (by decide)
    obtain ⟨put,ended⟩ := settle_shared shared found going rfl (ok.closed opened) (ok.settle opened)
    exact phase_shared put ended (fun backoff => nomatch backoff)
  | completeFailed b error =>
    cases mine
    obtain ⟨⟨going,completing⟩,same⟩ := ite_none_right_eq_some.mp fired
    cases same
    have opened : attempt.session = none → attempt.created = none :=
      fun none_ => absurd ((ok.unsent none_).2.2.2.1.symm.trans completing) (by decide)
    exact fail_shared shared found going (ok.closed opened) (ok.settle opened) orderly

end

theorem step_shared (shared : Shared s) (orderly : Orderly s e) (fired : step s e = some next) : Shared next := by
  cases mine : attemptOf e with
  | some a =>
    unfold step at fired
    rw [mine] at fired
    obtain ⟨attempt,found,fired⟩ := bind_eq_some_iff.mp fired
    exact attemptStep_shared shared found mine orderly fired
  | none =>
    cases e with
    | claim =>
      obtain ⟨idle,same⟩ := ite_none_right_eq_some.mp fired
      cases same
      exact begin_shared shared (by rw [idle]; exact (nomatch ·)) rfl
    | retry =>
      obtain ⟨backoff,same⟩ := ite_none_right_eq_some.mp fired
      cases same
      exact begin_shared shared (by rw [backoff]; exact (nomatch ·)) (shared.backoff backoff)
    | _ => cases mine

theorem fail_row : (failAttempt a attempt error s).attempts.length = s.attempts.length ∧
    (failAttempt a attempt error s).resumableServerSessionId = s.resumableServerSessionId := by
  unfold failAttempt
  dsimp only
  split <;> exact ⟨length_set,rfl⟩

theorem attemptStep_row (shared : Shared s) (found : s.attempts[a]? = some attempt)
    (fired : attemptStep a attempt s e = some next) : next.attempts.length = s.attempts.length ∧
      ∀ session ∈ s.resumableServerSessionId, next.resumableServerSessionId = some session := by
  cases e with
  | claim | retry => cases fired
  | created _ _ _ | partSent _ _ | completed _ =>
    obtain ⟨_,same⟩ := ite_none_right_eq_some.mp fired
    cases same
    exact ⟨length_set,fun _ known => known⟩
  | looked b placeholders =>
    obtain ⟨_,fired⟩ := ite_none_right_eq_some.mp fired
    obtain ⟨session,_,fired⟩ := bind_eq_some_iff.mp fired
    obtain ⟨server,_,rfl⟩ := map_eq_some_iff.mp fired
    exact ⟨length_set,fun _ known => known⟩
  | opened b samples =>
    obtain ⟨⟨going,unopened⟩,fired⟩ := ite_none_right_eq_some.mp fired
    obtain ⟨⟨session,received,dedup⟩,some_,fired⟩ := bind_eq_some_iff.mp fired
    obtain ⟨server,_,rfl⟩ := map_eq_some_iff.mp fired
    refine ⟨length_set,fun reported known => ?_⟩
    exact congrArg some ((answered shared found going unopened some_).1 reported known).symm
  | stored b part =>
    obtain ⟨_,fired⟩ := ite_none_right_eq_some.mp fired
    obtain ⟨session,_,fired⟩ := bind_eq_some_iff.mp fired
    obtain ⟨server,_,fired⟩ := bind_eq_some_iff.mp fired
    split at fired
    · cases fired
    · cases fired
      exact ⟨length_set,fun _ known => known⟩
  | partFailed b part error =>
    obtain ⟨_,same⟩ := ite_none_right_eq_some.mp fired
    cases same
    split
    · exact ⟨length_set,fun _ known => known⟩
    · exact ⟨fail_row.1,fun _ known => fail_row.2.trans known⟩
  | committed b dedup =>
    obtain ⟨_,fired⟩ := ite_none_right_eq_some.mp fired
    obtain ⟨session,_,fired⟩ := bind_eq_some_iff.mp fired
    obtain ⟨server,_,fired⟩ := bind_eq_some_iff.mp fired
    obtain ⟨_,same⟩ := ite_none_right_eq_some.mp fired
    cases same
    exact ⟨length_set,fun _ known => known⟩
  | openFailed _ _ | completeFailed _ _ =>
    obtain ⟨_,same⟩ := ite_none_right_eq_some.mp fired
    cases same
    exact ⟨fail_row.1,fun _ known => fail_row.2.trans known⟩

theorem sends_new (shared : Shared s) : ∀ part ∈ sends s e, ∀ server ∈ s.sessions, part ∉ server.parts := by
  intro part sent server here had
  cases e with
  | opened a samples =>
    cases fired : step s (.opened a samples) with
    | none =>
      rw [sends,fired] at sent
      cases sent
    | some next =>
      obtain ⟨attempt,found,opened⟩ := bind_eq_some_iff.mp fired
      obtain ⟨⟨going,unopened⟩,opened⟩ := ite_none_right_eq_some.mp opened
      obtain ⟨⟨session,received,dedup⟩,some_,opened⟩ := bind_eq_some_iff.mp opened
      obtain ⟨server',_,rfl⟩ := map_eq_some_iff.mp opened
      obtain ⟨inside,_⟩ := List.getElem?_eq_some_iff.mp found
      rw [sends,fired,bind_some,putAttempt,getElem?_set_self inside] at sent
      have ok := shared.attempts attempt (mem_of_getElem? found)
      obtain ⟨missing,flights,air,_⟩ := ok.unsent unopened
      exact (send_missing _ _ _ _ _ missing flights air).2.2.2 part sent ((answered shared found going unopened some_).2.2.2 server here part had)
  | partSent a done =>
    cases fired : step s (.partSent a done) with
    | none =>
      rw [sends,fired] at sent
      cases sent
    | some next =>
      obtain ⟨attempt,found,through⟩ := bind_eq_some_iff.mp fired
      obtain ⟨⟨flying,_⟩,_⟩ := ite_none_right_eq_some.mp through
      rw [sends,fired,if_pos (show (some next).isSome = true from rfl),found] at sent
      exact (shared.attempts attempt (mem_of_getElem? found)).ahead server here part had
        (.inr ⟨ne_nil_of_mem flying,mem_of_mem_take sent⟩)
  | _ => cases sent

theorem shared_reuses (shared : Shared s) : Reuses s e := by
  have row : ∀ a, attemptOf e = some a → ∀ next, step s e = some next → next.attempts.length = s.attempts.length ∧
      ∀ session ∈ s.resumableServerSessionId, next.resumableServerSessionId = some session := by
    intro a mine next fired
    unfold step at fired
    rw [mine] at fired
    obtain ⟨attempt,found,fired⟩ := bind_eq_some_iff.mp fired
    exact attemptStep_row shared found fired
  refine ⟨fun next fired attempt present session known => ?_,fun next fired session known => ?_,sends_new shared⟩
  · cases mine : attemptOf e with
    | some a =>
      have less := (List.getElem?_eq_some_iff.mp present).1
      rw [(row a mine next fired).1] at less
      exact absurd less (Nat.lt_irrefl _)
    | none =>
      cases e with
      | claim =>
        obtain ⟨_,same⟩ := ite_none_right_eq_some.mp fired
        cases same
        cases (getElem?_concat_length.symm.trans present)
        exact known
      | retry =>
        obtain ⟨backoff,same⟩ := ite_none_right_eq_some.mp fired
        cases same
        cases (getElem?_concat_length.symm.trans present)
        exact (shared.backoff backoff).trans known
      | _ => cases mine
  · cases mine : attemptOf e with
    | some a => exact (row a mine next fired).2 session known
    | none =>
      cases e with
      | claim =>
        obtain ⟨_,same⟩ := ite_none_right_eq_some.mp fired
        cases same
        exact known
      | retry =>
        obtain ⟨_,same⟩ := ite_none_right_eq_some.mp fired
        cases same
        exact known
      | _ => cases mine

-- Whatever fails and is retried, in an orderly run the row has one session: every attempt
-- after its report uses it, and one reservation and one file come of it at most.
theorem session_shared (events : List Event) (orderly : Schedule.Along step Orderly start events) :
    Schedule.Along step Reuses start events ∧
      ∀ left right reached, events = left ++ right → Schedule.run step start left = some reached → Single reached := by
  constructor
  · exact Schedule.along_under (motive := Shared) (fun _ _ shared _ => shared_reuses shared)
      (fun _ _ _ shared now fired => step_shared shared now fired) start_shared orderly
  · intro left right reached split ran
    exact Shared.single (orderly.reached (fun _ _ _ shared now fired => step_shared shared now fired) start_shared split ran)

def dropped : Option ApiError := some ⟨"network_error",0,none⟩

def refused : Option ApiError := some ⟨"request_failed",400,none⟩

def resumed : List Event := [.claim,.created 0 3 false,.opened 0 [],.stored 0 0,.partSent 0 0,.partFailed 0 1 refused,.stored 0 2,.partSent 0 2,
  .claim,.looked 1 [],.opened 1 [],.partFailed 1 1 dropped,.retry,.looked 2 [],.opened 2 [],.stored 2 1,.partSent 2 1,.committed 2 false,
  .completed 2]

theorem session_shared_resumed : Schedule.Along step Orderly start resumed ∧ Schedule.Along step Reuses start resumed ∧
    ∀ left right reached, resumed = left ++ right → Schedule.run step start left = some reached → Single reached := by
  have orderly : Schedule.Along step Orderly start resumed := by decide +kernel
  exact ⟨orderly,session_shared resumed orderly⟩

def reopened : List Event := [.claim,.created 0 2 false,.opened 0 [],.stored 0 0,.partSent 0 0,.partFailed 0 1 dropped,.retry,.created 1 2 false]

-- ... also where the first session was completed.
def completedTwice : List Event := [.claim,.created 0 1 false,.opened 0 [],.stored 0 0,.partSent 0 0,.committed 0 false,.completeFailed 0 dropped,
  .retry,.created 1 1 false,.opened 1 [],.stored 1 0,.partSent 1 0,.committed 1 false,.completed 1]

-- A runner of the failed attempt goes on beside the next attempt.
def overtaken : List Event := [.claim,.created 0 4 false,.opened 0 [],.partFailed 0 0 refused,.claim,.looked 1 [],.stored 0 1]

-- The answer to POST /uploads is lost.
def unanswered : List Event := [.claim,.created 0 1 false,.openFailed 0 dropped,.retry,.created 1 1 false]

theorem session_unshared : (¬∀ events, Schedule.Along step Reuses start events ∧
      ∀ left right reached, events = left ++ right → Schedule.run step start left = some reached → Single reached) ∧
    (∃ reached, Schedule.run step start reopened = some reached ∧ (reached.sessions.filter (fun server => !server.complete)).length = 2 ∧
      ∃ part ∈ sends reached (.opened 1 []), ∃ server ∈ reached.sessions, part ∈ server.parts) ∧
    (∃ reached, Schedule.run step start completedTwice = some reached ∧ (reached.sessions.filter ServerSession.complete).length = 2) ∧
    (∃ reached, Schedule.run step start overtaken = some reached ∧ reached.sessions.length = 1 ∧
      ∃ part ∈ sends reached (.opened 1 []), ∃ server ∈ reached.sessions, part ∈ server.parts) ∧
    ∃ reached, Schedule.run step start unanswered = some reached ∧ (reached.sessions.filter (fun server => !server.complete)).length = 2 := by
  have twice : ∃ reached, Schedule.run step start completedTwice = some reached ∧
      (reached.sessions.filter ServerSession.complete).length = 2 := Schedule.reached_of_any (by decide +kernel)
  refine ⟨fun all => ?_,Schedule.reached_of_any (by decide +kernel),twice,Schedule.reached_of_any (by decide +kernel),
    Schedule.reached_of_any (by decide +kernel)⟩
  obtain ⟨reached,ran,files⟩ := twice
  have few := ((all completedTwice).2 completedTwice [] reached (append_nil _).symm ran).files
  omega

end Ownly.Tray.Resumable
