import Ownly.Auth.Sessions
import Ownly.Lib.Schedule
import Ownly.Lib.Slots

-- Revocations of one user that run at the same time: the list and the epoch are each
-- loaded by one statement and stored by a later one.
namespace Ownly.Auth.RevocationRaces
open Sessions
open List

inductive Phase where
  | listLoad (sessionId : String)
  | listStore (sessionId : String) (ids : List String)
  | latest (sessionId : String)
  | epochLoad
  | epochStore (next : Nat)
  | rowsLoad (keep : Option String)
  | sweepLoad (keep : Option String) (rows : List Login)
  | sweepStore (sweep : Sweep)
  | iatStore (minIat : Int)
  | returned
deriving DecidableEq

structure Running where
  phase : Phase
  revokes : List String := []
deriving DecidableEq

def sessionIds (store : Store) : List String := store.auditLogs.map (·.id)

def statement (store : Store) (call : Running) : Store × Running :=
  match call.phase with
  | .listLoad sid =>
    let revoked := loadRevokedSessionIds store
    (store,{ call with phase := if revoked.contains sid then .latest sid else .listStore sid (revoked ++ [sid]) })
  | .listStore sid ids => (storeRevokedSessionIds store ids,{ call with phase := .latest sid })
  | .latest sid => (store,{ call with phase := if isLatestLoginSession store sid then .epochLoad else .returned })
  | .epochLoad =>
    let epoch := loadSessionEpoch store
    (store,⟨.epochStore (nextEpoch epoch),if epoch < maxEpoch then call.revokes ++ sessionIds store else call.revokes⟩)
  | .epochStore next => (storeSessionEpoch store next,{ call with phase := .returned })
  | .rowsLoad keep => (store,{ call with phase := .sweepLoad keep (recentLogins store sessionWindow) })
  | .sweepLoad keep rows =>
    let sweep := sweepRows rows (loadRevokedSessionIds store) keep
    (store,⟨.sweepStore sweep,(rows.map (·.id)).filter (sweep.revoked.contains ·)⟩)
  | .sweepStore sweep =>
    (storeRevokedSessionIds store sweep.revoked,{ call with
      phase := match sweep.keptCreatedAt with
        | some createdAt => .iatStore (timestamp createdAt)
        | none => .returned })
  | .iatStore minIat => (storeMinValidIat store minIat,{ call with phase := .returned })
  | .returned => (store,call)

structure State where
  store : Store := {}
  tokens : List Token := []
  calls : List Running := []
deriving DecidableEq

inductive Event where
  | login (id : String) (createdAt : Int)
  | revokeSessionId (sessionId : String)
  | revokeAllExceptSession (keep : Option String)
  | advance (call : Nat)
deriving DecidableEq

def step (s : State) : Event → Option State
  | .login id createdAt =>
    if s.store.auditLogs.all (fun row => row.id != id && decide (row.createdAt < createdAt)) then
      let (store,token) := login s.store id createdAt
      some { s with store, tokens := token :: s.tokens }
    else none
  | .revokeSessionId sid => some { s with calls := s.calls ++ [⟨.listLoad sid,[sid]⟩] }
  | .revokeAllExceptSession keep => some { s with calls := s.calls ++ [⟨.rowsLoad keep,[]⟩] }
  | .advance i => (s.calls[i]?).map (fun call =>
      let (store,call) := statement s.store call
      { s with store, calls := s.calls.set i call })

def start : State := {}

def accepts (store : Store) (token : Token) : Bool := isTokenSessionValid store token.sid token.ver token.iat

-- No token of a session that a returned call revoked is accepted.
def NoneLost (s : State) : Prop :=
  ∀ call ∈ s.calls, call.phase = .returned → ∀ sid ∈ call.revokes, ∀ token ∈ s.tokens, token.sid = some sid →
    accepts s.store token = false

-- A list that is stored has all ids of the list that it replaces, an epoch that is
-- stored is none below the one it replaces.
def upToDate (store : Store) : Phase → Bool
  | .listStore _ ids => (loadRevokedSessionIds store).all (ids.contains ·)
  | .sweepStore sweep => (loadRevokedSessionIds store).all (sweep.revoked.contains ·)
  | .epochStore next => decide (loadSessionEpoch store ≤ next)
  | _ => true

def Current (s : State) : Event → Prop
  | .advance i => ∀ call, s.calls[i]? = some call → upToDate s.store call.phase = true
  | _ => True

def Below (s : State) (epoch : Nat) (sid : String) : Prop :=
  sid ∈ sessionIds s.store ∧ ∀ token ∈ s.tokens, token.sid = some sid → token.ver < epoch

def Secured (s : State) (sid : String) : Phase → Prop
  | .listLoad named => sid = named
  | .listStore _ ids => sid ∈ ids
  | .latest _ | .epochLoad => sid ∈ loadRevokedSessionIds s.store
  | .epochStore next => sid ∈ loadRevokedSessionIds s.store ∨ Below s next sid
  | .rowsLoad _ | .sweepLoad _ _ => False
  | .sweepStore sweep => sid ∈ sweep.revoked
  | .iatStore _ | .returned => sid ∈ loadRevokedSessionIds s.store ∨ Below s (loadSessionEpoch s.store) sid

structure Sound (s : State) : Prop where
  bounded : ∀ token ∈ s.tokens, token.ver ≤ loadSessionEpoch s.store
  secured : ∀ call ∈ s.calls, ∀ sid ∈ call.revokes, Secured s sid call.phase

variable {s next : State} {call : Running} {sid : String} {i : Nat}

theorem start_sound : Sound start := ⟨fun _ member => (nomatch member),fun _ member => (nomatch member)⟩

theorem Sound.noneLost (sound : Sound s) : NoneLost s := by
  intro call member returned sid revoked token found named
  have secured := sound.secured call member sid revoked
  rw [returned] at secured
  rw [accepts,named,← Bool.not_eq_true,valid_iff]
  rintro ⟨above,unlisted⟩
  rcases secured with listed | ⟨_,below⟩
  · exact unlisted listed
  · exact Nat.not_lt.mpr above (below token found named)

structure Grows (s next : State) : Prop where
  list : ∀ sid ∈ loadRevokedSessionIds s.store, sid ∈ loadRevokedSessionIds next.store
  epoch : loadSessionEpoch s.store ≤ loadSessionEpoch next.store
  below : ∀ epoch sid, Below s epoch sid → Below next epoch sid

theorem Below.mono (below : Below s low sid) (le : low ≤ high) : Below s high sid :=
  ⟨below.1,fun token member named => Nat.lt_of_lt_of_le (below.2 token member named) le⟩

theorem Secured.grows {phase : Phase} (grows : Grows s next) (secured : Secured s sid phase) : Secured next sid phase := by
  cases phase with
  | listLoad => exact secured
  | listStore => exact secured
  | latest => exact grows.list sid secured
  | epochLoad => exact grows.list sid secured
  | epochStore => exact secured.imp (grows.list sid) (grows.below _ sid)
  | rowsLoad => exact secured
  | sweepLoad => exact secured
  | sweepStore => exact secured
  | iatStore => exact secured.imp (grows.list sid) (fun below => (grows.below _ sid below).mono grows.epoch)
  | returned => exact secured.imp (grows.list sid) (fun below => (grows.below _ sid below).mono grows.epoch)

theorem login_grows (fresh : s.store.auditLogs.all (fun row => row.id != sid && decide (row.createdAt < createdAt)) = true)
    (calls : List Running) : Grows s ⟨(login s.store sid createdAt).1,(login s.store sid createdAt).2 :: s.tokens,calls⟩ := by
  refine ⟨fun _ listed => listed,Nat.le_refl _,?_⟩
  rintro epoch other ⟨session,below⟩
  refine ⟨mem_cons_of_mem _ session,?_⟩
  rintro token (_ | ⟨_,old⟩) named
  · cases Option.some.inj named
    obtain ⟨row,found,same⟩ := mem_map.mp session
    have apart := (Bool.and_eq_true_iff.mp (all_eq_true.mp fresh row found)).1
    exact absurd same (bne_iff_ne.mp apart)
  · exact below token old named

theorem statement_grows (current : upToDate s.store call.phase = true) (calls : List Running) :
    Grows s { s with store := (statement s.store call).1, calls } := by
  obtain ⟨phase,revokes⟩ := call
  have still : Grows s { s with calls } := ⟨fun _ listed => listed,Nat.le_refl _,fun _ _ below => below⟩
  cases phase with
  | listStore named ids =>
    have kept : ∀ x ∈ loadRevokedSessionIds s.store, x ∈ ids := by simpa [upToDate] using current
    exact ⟨kept,Nat.le_refl _,fun _ _ below => below⟩
  | sweepStore sweep =>
    have kept : ∀ x ∈ loadRevokedSessionIds s.store, x ∈ sweep.revoked := by simpa [upToDate] using current
    exact ⟨kept,Nat.le_refl _,fun _ _ below => below⟩
  | epochStore epoch => exact ⟨fun _ listed => listed,of_decide_eq_true current,fun _ _ below => below⟩
  | iatStore minIat => exact ⟨fun _ listed => listed,Nat.le_refl _,fun _ _ below => below⟩
  | listLoad | latest | epochLoad | rowsLoad | sweepLoad | returned => exact still

theorem statement_secured (bounded : ∀ token ∈ s.tokens, token.ver ≤ loadSessionEpoch s.store)
    (secured : ∀ sid ∈ call.revokes, Secured s sid call.phase) (calls : List Running)
    (revoked : sid ∈ (statement s.store call).2.revokes) :
    Secured { s with store := (statement s.store call).1, calls } sid (statement s.store call).2.phase := by
  obtain ⟨phase,revokes⟩ := call
  cases phase with
  | listLoad named =>
    obtain rfl : sid = named := secured sid revoked
    simp only [statement]
    split
    · rename_i listed
      exact contains_iff_mem.mp listed
    · exact mem_append_right _ (mem_singleton.mpr rfl)
  | listStore named ids => exact secured sid revoked
  | latest named =>
    have listed : sid ∈ loadRevokedSessionIds s.store := secured sid revoked
    simp only [statement]
    split
    · exact listed
    · exact .inl listed
  | epochLoad =>
    simp only [statement] at revoked
    by_cases room : loadSessionEpoch s.store < maxEpoch
    · rw [if_pos room,mem_append] at revoked
      rcases revoked with named | session
      · exact .inl (secured sid named)
      · refine .inr ⟨session,fun token member _ => ?_⟩
        have bound := bounded token member
        rw [nextEpoch]
        omega
    · rw [if_neg room] at revoked
      exact .inl (secured sid revoked)
  | epochStore epoch => exact secured sid revoked
  | rowsLoad keep => exact (secured sid revoked).elim
  | sweepLoad keep rows =>
    have listed := (mem_filter.mp revoked).2
    exact contains_iff_mem.mp listed
  | sweepStore sweep =>
    have listed : sid ∈ sweep.revoked := secured sid revoked
    simp only [statement]
    split
    · exact .inl listed
    · exact .inl listed
  | iatStore minIat => exact secured sid revoked
  | returned => exact secured sid revoked

theorem Sound.grows (sound : Sound s) (grows : Grows s next) (same : next.calls = s.calls)
    (bounded : ∀ token ∈ next.tokens, token.ver ≤ loadSessionEpoch next.store) : Sound next := by
  refine ⟨bounded,fun call member sid revoked => ?_⟩
  rw [same] at member
  exact (sound.secured call member sid revoked).grows grows

theorem step_sound (sound : Sound s) (current : Current s e) (fired : step s e = some next) : Sound next := by
  cases e with
  | login id createdAt =>
    simp only [step] at fired
    split at fired
    · rename_i fresh
      cases fired
      refine sound.grows (login_grows fresh s.calls) rfl ?_
      rintro token (_ | ⟨_,old⟩)
      · exact Nat.le_refl _
      · exact sound.bounded token old
    · cases fired
  | revokeSessionId named =>
    cases fired
    refine ⟨sound.bounded,fun call member sid revoked => ?_⟩
    rcases mem_append.mp member with old | new
    · exact (sound.secured call old sid revoked).grows ⟨fun _ listed => listed,Nat.le_refl _,fun _ _ below => below⟩
    · cases mem_singleton.mp new
      exact mem_singleton.mp revoked
  | revokeAllExceptSession keep =>
    cases fired
    refine ⟨sound.bounded,fun call member sid revoked => ?_⟩
    rcases mem_append.mp member with old | new
    · exact (sound.secured call old sid revoked).grows ⟨fun _ listed => listed,Nat.le_refl _,fun _ _ below => below⟩
    · cases mem_singleton.mp new
      cases revoked
  | advance i =>
    obtain ⟨call,found,rfl⟩ := Option.map_eq_some_iff.mp fired
    have grows := statement_grows (current call found) (s.calls.set i (statement s.store call).2)
    refine ⟨fun token member => Nat.le_trans (sound.bounded token member) grows.epoch,?_⟩
    intro other member sid revoked
    rcases mem_or_eq_of_mem_set member with old | rfl
    · exact (sound.secured other old sid revoked).grows grows
    · exact statement_secured sound.bounded (sound.secured call (mem_of_getElem? found)) _ revoked

-- Where each store is up to date with what it replaces, no revocation is lost.
theorem none_lost (ran : Schedule.run step start events = some final) (current : Schedule.Along step Current start events) :
    NoneLost final :=
  (Schedule.run_along (fun _ _ _ sound current fired => step_sound sound current fired) start_sound current ran).noneLost

def threeLogins : List Event := [.login "laptop" 1000000,.login "phone" 2000000,.login "tablet" 3000000]

instance (s : State) (e : Event) : Decidable (Current s e) := by
  unfold Current
  cases e with
  | advance i => exact decidable_of_iff _ (Option.all_eq_true (fun call => upToDate s.store call.phase) s.calls[i]?)
  | login | revokeSessionId | revokeAllExceptSession => exact .isTrue trivial

theorem none_lost_serial : ∃ final, Schedule.run step start (threeLogins ++ [.revokeSessionId "laptop",.advance 0,.advance 0,
      .advance 0,.revokeSessionId "phone",.advance 1,.advance 1,.advance 1]) = some final ∧
    NoneLost final ∧ loadRevokedSessionIds final.store = ["laptop","phone"] := by
  obtain ⟨final,ran,listed⟩ : ∃ final, Schedule.run step start (threeLogins ++ [.revokeSessionId "laptop",.advance 0,.advance 0,
      .advance 0,.revokeSessionId "phone",.advance 1,.advance 1,.advance 1]) = some final ∧
      loadRevokedSessionIds final.store = ["laptop","phone"] := Schedule.reached_of_any (by decide +kernel)
  exact ⟨final,ran,none_lost ran (by decide +kernel),listed⟩

theorem revocation_lost : ¬∀ events final, Schedule.run step start events = some final → NoneLost final := by
  intro all
  obtain ⟨final,ran,facts⟩ : ∃ final, Schedule.run step start (threeLogins ++ [.revokeSessionId "laptop",
      .revokeSessionId "phone",.advance 0,.advance 1,.advance 0,.advance 0,.advance 1,.advance 1]) = some final ∧
      (⟨.returned,["laptop"]⟩ ∈ final.calls ∧ ⟨some "laptop",0,1⟩ ∈ final.tokens ∧
        accepts final.store ⟨some "laptop",0,1⟩ = true) := Schedule.reached_of_any (by decide +kernel)
  have rejected := all _ final ran _ facts.1 rfl "laptop" (mem_singleton.mpr rfl) _ facts.2.1 rfl
  rw [facts.2.2] at rejected
  cases rejected

end Ownly.Auth.RevocationRaces
