import Ownly.Collab.Store

-- What an error of `save_cas` says about the two stores, and what the retry loop of
-- `submit_op` makes of it.
namespace Ownly.Collab.CasAtomicity
open Store

-- The SETEX of the session key ran (with Redis), or the map took the session.
def wrote (now : Nat) (replies : Replies) (stores : Stores) (session : CollabSession) (expectedVersion : Nat) : Bool :=
  match stores.redis with
  | none => (saveCas now replies stores session expectedVersion).1.isOk
  | some redis =>
    decide (session.version = expectedVersion) && decide (replies.get = .ok) &&
      (casCheck (redis.sessions session.id) expectedVersion).isOk &&
      (match replies.setSession with | .failed _ => false | _ => true)

def Torn (now : Nat) (replies : Replies) (stores : Stores) (session : CollabSession) (expectedVersion : Nat) : Prop :=
  stores.redis.isSome = true ∧ wrote now replies stores session expectedVersion = true ∧
    (replies.setSession ≠ .ok ∨ replies.setFile ≠ .ok ∨
      staleCopy now stores.memory session.id expectedVersion = true)

def sameSession (before after : Stores) (sessionId : String) : Prop :=
  after.redis.map (fun redis => redis.sessions sessionId) = before.redis.map (fun redis => redis.sessions sessionId) ∧
    after.memory.sessions.get sessionId = before.memory.sessions.get sessionId

def Atomic (before : Stores) (sessionId : String) (outcome : Except CasError CollabSession × Stores) : Prop :=
  ∀ e, outcome.1 = .error e → sameSession before outcome.2 sessionId

theorem setSession_get (redis : Redis) (session : CollabSession) :
    (setSession redis session).sessions session.id = some (.json session) := by
  simp [setSession]

theorem unwritten (silent : wrote now replies ⟨some redis,memory⟩ session expectedVersion = false) :
    (∃ e, (saveCas now replies ⟨some redis,memory⟩ session expectedVersion).1 = .error e) ∧
      (saveCas now replies ⟨some redis,memory⟩ session expectedVersion).2 = ⟨some redis,memory⟩ := by
  simp only [wrote] at silent
  unfold saveCas
  split
  · exact ⟨⟨_,rfl⟩,rfl⟩
  · rename_i same
    have versions : session.version = expectedVersion := by simpa using same
    simp only [redisSaveCas,stamped]
    cases got : replies.get with
    | failed e => exact ⟨⟨_,rfl⟩,rfl⟩
    | lost e => exact ⟨⟨_,rfl⟩,rfl⟩
    | ok =>
      cases checked : casCheck (redis.sessions session.id) expectedVersion with
      | error e => exact ⟨⟨_,rfl⟩,rfl⟩
      | ok passed =>
        cases sent : replies.setSession with
        | failed e =>
          simp only [redisSave,sent]
          exact ⟨⟨_,rfl⟩,trivial⟩
        | lost e => simp [versions,got,checked,sent,Except.isOk,Except.toBool] at silent
        | ok => simp [versions,got,checked,sent,Except.isOk,Except.toBool] at silent

section
variable (done : wrote now replies ⟨some redis,memory⟩ session expectedVersion = true)
include done

theorem written :
    session.version = expectedVersion ∧ casCheck (redis.sessions session.id) expectedVersion = .ok () ∧
    ((saveCas now replies ⟨some redis,memory⟩ session expectedVersion).2.redis.map
      (fun redis => redis.sessions session.id)) = some (some (.json (stamped now session))) ∧
    ((saveCas now replies ⟨some redis,memory⟩ session expectedVersion).1 = .ok (stamped now session) ↔
      ¬Torn now replies ⟨some redis,memory⟩ session expectedVersion) ∧
    (Torn now replies ⟨some redis,memory⟩ session expectedVersion →
      ∃ e, (saveCas now replies ⟨some redis,memory⟩ session expectedVersion).1 = .error e) := by
  have ran := done
  simp only [wrote,Bool.and_eq_true,decide_eq_true_eq] at done
  obtain ⟨⟨⟨versions,got⟩,checked⟩,sent⟩ := done
  have passed : casCheck (redis.sessions session.id) expectedVersion = .ok () := by
    cases found : casCheck (redis.sessions session.id) expectedVersion with
    | error e => simp [found,Except.isOk,Except.toBool] at checked
    | ok passed => rfl
  have stored := setSession_get redis (stamped now session)
  have sameId : (stamped now session).id = session.id := rfl
  rw [sameId] at stored
  have copy : staleCopy now memory (stamped now session).id expectedVersion =
    staleCopy now memory session.id expectedVersion := rfl
  refine ⟨versions,passed,?_⟩
  simp only [Torn,Option.isSome_some,ran,true_and]
  unfold saveCas
  rw [if_neg (by simpa using versions)]
  simp only [redisSaveCas,got,sameId,passed,redisSave]
  cases first : replies.setSession with
  | failed e => simp [first] at sent
  | lost e => simp [stored]
  | ok =>
    cases second : replies.setFile with
    | failed e => simp [stored]
    | lost e => simp [setFile,stored]
    | ok =>
      cases stale : staleCopy now memory session.id expectedVersion with
      | true =>
        have refused := copy.trans stale
        simp [memorySaveCas_exact,refused,setFile,stored]
      | false =>
        have taken := copy.trans stale
        simp [memorySaveCas_exact,taken,setFile,stored]

theorem written_changes :
    redis.sessions session.id ≠ some (.json (stamped now session)) := by
  obtain ⟨versions,passed,_⟩ := written done
  intro same
  rw [same] at passed
  have newer : (stamped now session).version ≠ expectedVersion := by
    simp only [stamped,← versions]
    omega
  simp [casCheck,newer] at passed

end

theorem saveCas_atomic_iff (now : Nat) (replies : Replies) (redis : Redis) (memory : MemoryState)
    (session : CollabSession) (expectedVersion : Nat) :
    Atomic ⟨some redis,memory⟩ session.id (saveCas now replies ⟨some redis,memory⟩ session expectedVersion) ↔
      ¬Torn now replies ⟨some redis,memory⟩ session expectedVersion := by
  cases ran : wrote now replies ⟨some redis,memory⟩ session expectedVersion with
  | false =>
    obtain ⟨_,unchanged⟩ := unwritten ran
    refine iff_of_true ?_ (fun torn => by have done := torn.2.1; rw [ran] at done; cases done)
    intro e _
    rw [unchanged]
    exact ⟨rfl,rfl⟩
  | true =>
    obtain ⟨_,_,stored,reports,fails⟩ := written ran
    constructor
    · intro atomic torn
      obtain ⟨e,failed⟩ := fails torn
      have unchanged := (atomic e failed).1
      rw [stored] at unchanged
      exact written_changes ran (Option.some.inj unchanged).symm
    · intro whole e failed
      rw [reports.mpr whole] at failed
      cases failed

-- One round of the retry loop as its surroundings leave it: the clock, the fresh op
-- id, what the commands answer, and what others do between the read and the save.
structure Attempt where
  now : Nat
  opId : String
  getReply : Reply
  meanwhile : Stores → Stores
  savedAt : Nat
  replies : Replies

structure Request where
  sessionId : String
  userId : String
  baseSeq : Nat
  opType : OpType
  payload : Value
  clientOpId : Option String

structure Outcome where
  result : Except CollabError (OpEnvelope × CollabSession)
  stores : Stores
  -- the ops this call has put in the stored log, one for each session it wrote
  added : List OpEnvelope

def addedOp (ran : Bool) (op : OpEnvelope) : List OpEnvelope := if ran then [op] else []

def submitOp (request : Request) : List Attempt → Stores → Outcome
  | [],stores => ⟨.error (.conflict "submit_op CAS contention"),stores,[]⟩
  | attempt :: rest,stores =>
    match get attempt.now attempt.getReply stores request.sessionId with
    | (none,stores) => ⟨.error .notFound,stores,[]⟩
    | (some session,stores) =>
      match Engine.submitOp attempt.now attempt.opId session request.userId request.baseSeq request.opType
        request.payload request.clientOpId with
      | .error e => ⟨.error e,stores,[]⟩
      | .ok (op,next) =>
        let stores := attempt.meanwhile stores
        let added := addedOp (wrote attempt.savedAt attempt.replies stores next next.version) op
        match saveCas attempt.savedAt attempt.replies stores next next.version with
        | (.ok saved,stores) => ⟨.ok (op,saved),stores,added⟩
        | (.error (.storage e),stores) => ⟨.error (.storage e),stores,added⟩
        | (.error .versionMismatch,stores) =>
          let outcome := submitOp request rest stores
          {outcome with added := added ++ outcome.added}

def Whole (request : Request) : List Attempt → Stores → Prop
  | [],_ => True
  | attempt :: rest,stores =>
    match get attempt.now attempt.getReply stores request.sessionId with
    | (none,_) => True
    | (some session,stores) =>
      match Engine.submitOp attempt.now attempt.opId session request.userId request.baseSeq request.opType
        request.payload request.clientOpId with
      | .error _ => True
      | .ok (_,next) =>
        let stores := attempt.meanwhile stores
        ¬Torn attempt.savedAt attempt.replies stores next next.version ∧
          match saveCas attempt.savedAt attempt.replies stores next next.version with
          | (.error .versionMismatch,stores) => Whole request rest stores
          | _ => True

def ReportsAdded (outcome : Outcome) : Prop :=
  match outcome.result with
  | .error _ => outcome.added = []
  | .ok (op,_) => outcome.added = [op]

theorem saved_wrote (saved : (saveCas now replies stores session expectedVersion).1 = .ok after) :
    wrote now replies stores session expectedVersion = true ∧ ¬Torn now replies stores session expectedVersion := by
  obtain ⟨redis,memory⟩ := stores
  cases redis with
  | none => exact ⟨by simp [wrote,saved,Except.isOk,Except.toBool],fun torn => by cases torn.1⟩
  | some redis =>
    cases ran : wrote now replies ⟨some redis,memory⟩ session expectedVersion with
    | false =>
      obtain ⟨⟨e,failed⟩,_⟩ := unwritten ran
      rw [failed] at saved
      cases saved
    | true =>
      obtain ⟨_,_,_,_,fails⟩ := written ran
      refine ⟨rfl,fun torn => ?_⟩
      obtain ⟨e,failed⟩ := fails torn
      rw [failed] at saved
      cases saved

theorem failed_wrote (failed : (saveCas now replies stores session expectedVersion).1 = .error e) :
    wrote now replies stores session expectedVersion = true ↔ Torn now replies stores session expectedVersion := by
  obtain ⟨redis,memory⟩ := stores
  cases redis with
  | none =>
    simp only [wrote,failed,Torn]
    simp [Except.isOk,Except.toBool]
  | some redis =>
    refine ⟨fun ran => ?_,fun torn => torn.2.1⟩
    obtain ⟨_,_,_,reports,_⟩ := written ran
    apply Classical.byContradiction
    intro whole
    rw [reports.mpr whole] at failed
    cases failed

theorem acknowledged_added (request : Request) (attempts : List Attempt) (stores : Stores)
    (acknowledged : (submitOp request attempts stores).result = .ok (op,saved)) :
    op ∈ (submitOp request attempts stores).added := by
  induction attempts generalizing stores with
  | nil => cases acknowledged
  | cons attempt rest ih =>
    unfold submitOp at acknowledged ⊢
    split at acknowledged
    · cases acknowledged
    · rename_i session after found
      split at acknowledged
      · cases acknowledged
      · rename_i op' next ran
        dsimp only at acknowledged ⊢
        split at acknowledged
        · rename_i after' stores' outcome
          cases acknowledged
          have done := (saved_wrote (congrArg Prod.fst outcome)).1
          simp [addedOp,done]
        · cases acknowledged
        · rename_i stores' outcome
          exact List.mem_append_right _ (ih _ acknowledged)

theorem submitOp_reports_iff (request : Request) (attempts : List Attempt) (stores : Stores) :
    ReportsAdded (submitOp request attempts stores) ↔ Whole request attempts stores := by
  induction attempts generalizing stores with
  | nil => simp [submitOp,ReportsAdded,Whole]
  | cons attempt rest ih =>
    unfold submitOp Whole
    split
    · simp [ReportsAdded]
    · rename_i session after found
      split
      · simp [ReportsAdded]
      · rename_i op next ran
        dsimp only
        split
        · rename_i saved stores' outcome
          obtain ⟨done,whole⟩ := saved_wrote (congrArg Prod.fst outcome)
          simp [ReportsAdded,addedOp,done,whole,outcome]
        · rename_i e stores' outcome
          rw [← failed_wrote (congrArg Prod.fst outcome)]
          simp [ReportsAdded,addedOp,outcome]
        · rename_i stores' outcome
          have tears := failed_wrote (congrArg Prod.fst outcome)
          rw [← tears,outcome]
          cases done : wrote attempt.savedAt attempt.replies (attempt.meanwhile after) next next.version with
          | false =>
            simp only [addedOp,Bool.false_eq_true,if_false,List.nil_append,not_false_eq_true,true_and]
            exact ih stores'
          | true =>
            refine iff_of_false ?_ (fun whole => whole.1 rfl)
            intro reports
            simp only [addedOp,if_true,ReportsAdded] at reports
            -- the op of this round is already stored; an acknowledged later one is stored too
            split at reports
            · cases reports
            · rename_i op' saved acknowledged
              have member := acknowledged_added request rest stores' acknowledged
              have empty : (submitOp request rest stores').added = [] := (List.cons.inj reports).2
              rw [empty] at member
              cases member

theorem error_atomicity_iff (now : Nat) (replies : Replies) (redis : Redis) (memory : MemoryState)
    (session : CollabSession) (expectedVersion : Nat) (request : Request) (attempts : List Attempt) (stores : Stores) :
    (Atomic ⟨some redis,memory⟩ session.id (saveCas now replies ⟨some redis,memory⟩ session expectedVersion) ↔
      ¬Torn now replies ⟨some redis,memory⟩ session expectedVersion) ∧
    (ReportsAdded (submitOp request attempts stores) ↔ Whole request attempts stores) :=
  ⟨saveCas_atomic_iff now replies redis memory session expectedVersion,submitOp_reports_iff request attempts stores⟩

def alice : Participant := ⟨"u1","Alice","#2563EB",0,Document.presenceDefaults⟩

def sessionAt (version : Nat) : CollabSession :=
  {id := "s",roomKind := .document,fileId := "f",createdAt := 0,lastActiveAt := 0
   participants := KeyMap.empty.set "u1" alice,ops := [],nextSeq := 1,snapshot := Document.emptySnapshot
   version := version}

def staleReplica : Stores :=
  ⟨some ⟨fun key => if key = "s" then some (.json (sessionAt 2)) else none,fun _ => some "s"⟩
   ,⟨KeyMap.empty.set "s" (sessionAt 1),KeyMap.empty.set (.document,"f") "s"⟩⟩

def answered : Replies := ⟨.ok,.ok,.ok⟩

def typeX : Request :=
  ⟨"s","u1",0,.replace,Document.replacePayload ⟨0,0,['x']⟩,none⟩

def round : Attempt := ⟨0,"op",.ok,id,0,answered⟩

def errorOf : Except CollabError (OpEnvelope × CollabSession) → Option CollabError
  | .error e => some e
  | .ok _ => none

def logLength (stores : Stores) (sessionId : String) : Option Nat :=
  match stores.redis.bind (fun redis => redis.sessions sessionId) with
  | some (.json session) => some session.ops.length
  | _ => none

theorem stale_replica_tears :
    ¬Atomic staleReplica "s" (saveCas 0 answered staleReplica (sessionAt 2) 2) ∧
    errorOf (submitOp typeX (List.replicate casRetries round) staleReplica).result =
      some (.conflict "submit_op CAS contention") ∧
    logLength staleReplica "s" = some 0 ∧
    logLength (submitOp typeX (List.replicate casRetries round) staleReplica).stores "s" = some casRetries := by
  refine ⟨?_,?_,?_,?_⟩
  · intro atomic
    exact (saveCas_atomic_iff 0 answered _ _ (sessionAt 2) 2).mp atomic ⟨rfl,by decide,.inr (.inr (by decide))⟩
  · decide +kernel
  · rfl
  · decide +kernel

end Ownly.Collab.CasAtomicity
