import Ownly.Collab.Document
import Ownly.Collab.Spreadsheet

namespace Ownly.Collab

-- `CollabEngine::domain` picks the plugin by the room kind.
namespace Domain

def seedSnapshot : RoomKind → Option Value → DomainSnapshot
  | .document => Document.seedSnapshot
  | .spreadsheet => Spreadsheet.seedSnapshot

def validateAndTransform (kind : RoomKind) (snapshot : DomainSnapshot) (intervening : List OpEnvelope)
    (op : OpEnvelope) (actor : String) (participants : Participants) : Except CollabError OpEnvelope :=
  match kind with
  | .document => Document.validateAndTransform snapshot intervening op actor participants
  | .spreadsheet => Spreadsheet.validateAndTransform intervening op

def apply (kind : RoomKind) (snapshot : DomainSnapshot) (op : OpEnvelope) : Except CollabError DomainSnapshot :=
  match kind with
  | .document => Document.apply snapshot op
  | .spreadsheet => .ok (Spreadsheet.apply snapshot op)

def transformPresence (kind : RoomKind) (presence : Fields) (op : OpEnvelope) : Fields :=
  match kind with
  | .document => Document.transformPresence presence op
  | .spreadsheet => presence

def presenceDefaults : RoomKind → Fields
  | .document => Document.presenceDefaults
  | .spreadsheet => Spreadsheet.presenceDefaults

end Domain

def casRetries : Nat := 8

-- The engine's calls: what happens to the copy of a session between the store
-- read and `save_cas`. `now` is the clock of that step.
namespace Engine

def newSession (now : Nat) (id : String) (kind : RoomKind) (fileId : String) (snapshot : DomainSnapshot) :
    CollabSession :=
  {id := id,roomKind := kind,fileId := fileId,createdAt := now,lastActiveAt := now,participants := KeyMap.empty,
   ops := [],nextSeq := 1,snapshot := snapshot,version := 0}

def reseed (session : CollabSession) (kind : RoomKind) (seed : Option Value) : DomainSnapshot :=
  match (session.snapshot.data.get "text").bind Value.asStr,seed with
  | some [],some seed => if kind = .document then Domain.seedSnapshot kind (some seed) else session.snapshot
  | _,_ => session.snapshot

def join (now : Nat) (session : CollabSession) (kind : RoomKind) (userId displayName : String) (seed : Option Value) :
    CollabSession :=
  {session with
    snapshot := reseed session kind seed
    participants := session.participants.set userId
      ⟨userId,displayName,participantColor userId,now,Domain.presenceDefaults kind⟩
    lastActiveAt := now}

def mergePresence (target body : Fields) : Fields := body.foldl (fun fields entry => fields.set entry.1 entry.2) target

def heartbeat (now : Nat) (session : CollabSession) (userId : String) (presence : Option Value) :
    Except CollabError CollabSession :=
  match session.participants.get userId with
  | none => .error .notParticipant
  | some participant =>
    let merged := match presence.bind Value.asObject with
      | some body => mergePresence participant.presence body
      | none => participant.presence
    .ok {session with
      participants := session.participants.set userId {participant with lastSeen := now,presence := merged}
      lastActiveAt := now}

-- `while session.ops.len() > DEFAULT_MAX_OPS` drop the oldest and raise the floor.
def compactRing : List OpEnvelope → Nat → List OpEnvelope × Nat
  | [],snapshotSeq => ([],snapshotSeq)
  | dropped :: rest,snapshotSeq =>
    if defaultMaxOps < rest.length + 1 then compactRing rest (max snapshotSeq dropped.seq)
    else (dropped :: rest,snapshotSeq)

def trailSeq (ops : List OpEnvelope) (snapshotSeq : Nat) : Nat :=
  match ops.head? with
  | some first => if snapshotSeq + 1 < first.seq then first.seq - 1 else snapshotSeq
  | none => snapshotSeq

def movePresence (kind : RoomKind) (participants : Participants) (userId : String) (op : OpEnvelope) : Participants :=
  let participants := match kind with
    | .document => participants.modify userId
        (fun p => {p with presence := Document.applyLockPresence p.presence op})
    | .spreadsheet => participants
  participants.mapValues (fun p => {p with presence := Domain.transformPresence kind p.presence op})

def append (now : Nat) (session : CollabSession) (userId : String) (snapshot : DomainSnapshot) (op : OpEnvelope) :
    CollabSession :=
  let ring := compactRing (session.ops ++ [op]) snapshot.snapshotSeq
  let participants := movePresence session.roomKind session.participants userId op
  {session with
    snapshot := {snapshot with snapshotSeq := trailSeq ring.1 ring.2}
    participants := participants.modify userId (fun p => {p with lastSeen := now})
    nextSeq := session.nextSeq + 1
    ops := ring.1
    lastActiveAt := now}

def submitOp (now : Nat) (opId : String) (session : CollabSession) (userId : String) (baseSeq : Nat)
    (opType : OpType) (payload : Value) (clientOpId : Option String) : Except CollabError (OpEnvelope × CollabSession) :=
  if !session.participants.contains userId then .error .notParticipant
  else
    let latest := session.latestSeq
    if latest < baseSeq then .error (.invalidOp s!"base_seq {baseSeq} ahead of latest {latest}")
    else
      let intervening := session.opsAfter baseSeq
      let op : OpEnvelope := ⟨opId,0,userId,now,baseSeq,opType,payload,clientOpId⟩
      match Domain.validateAndTransform session.roomKind session.snapshot intervening op userId session.participants with
      | .error e => .error e
      | .ok op =>
        match Domain.apply session.roomKind session.snapshot op with
        | .error e => .error e
        | .ok snapshot =>
          let op := {op with seq := session.nextSeq}
          .ok (op,append now session userId snapshot op)

end Engine

inductive Call where
  | join (kind : RoomKind) (fileId userId displayName : String) (seed : Option Value)
  | heartbeat (sessionId userId : String) (presence : Option Value)
  | submitOp (sessionId userId : String) (baseSeq : Nat) (opType : OpType) (payload : Value) (clientOpId : Option String)

-- The part of a call that runs between the read of the session and `save_cas`: the
-- op it will have committed, and the changed copy.
def Call.compute (now : Nat) (opId : String) (session : CollabSession) :
    Call → Except CollabError (Option OpEnvelope × CollabSession)
  | .join kind _ userId displayName seed => .ok (none,Engine.join now session kind userId displayName seed)
  | .heartbeat _ userId presence =>
    match Engine.heartbeat now session userId presence with
    | .error e => .error e
    | .ok next => .ok (none,next)
  | .submitOp _ userId baseSeq opType payload clientOpId =>
    match Engine.submitOp now opId session userId baseSeq opType payload clientOpId with
    | .error e => .error e
    | .ok (op,next) => .ok (some op,next)

-- The session a call works on: `join` finds it by its file, the others by its id.
def Call.Reaches (session : CollabSession) : Call → Prop
  | .join kind fileId _ _ _ => session.roomKind = kind ∧ session.fileId = fileId
  | .heartbeat sessionId _ _ => session.id = sessionId
  | .submitOp sessionId _ _ _ _ _ => session.id = sessionId

instance (session : CollabSession) : (call : Call) → Decidable (call.Reaches session)
  | .join _ _ _ _ _ => inferInstanceAs (Decidable (_ ∧ _))
  | .heartbeat _ _ _ => inferInstanceAs (Decidable (_ = _))
  | .submitOp _ _ _ _ _ _ => inferInstanceAs (Decidable (_ = _))

namespace Engine

-- What a submitted op that reaches `save_cas` has passed and left in the copy.
structure Submitted (now : Nat) (opId : String) (session : CollabSession) (userId : String) (baseSeq : Nat)
    (opType : OpType) (payload : Value) (clientOpId : Option String) (op : OpEnvelope) (next : CollabSession) : Prop where
  member : session.participants.contains userId = true
  base : baseSeq ≤ session.latestSeq
  passed : ∃ validated snapshot,
    Domain.validateAndTransform session.roomKind session.snapshot (session.opsAfter baseSeq)
      ⟨opId,0,userId,now,baseSeq,opType,payload,clientOpId⟩ userId session.participants = .ok validated ∧
    Domain.apply session.roomKind session.snapshot validated = .ok snapshot ∧
    op = {validated with seq := session.nextSeq} ∧ next = append now session userId snapshot op

theorem submitOp_exact : submitOp now opId session userId baseSeq opType payload clientOpId = .ok (op,next) ↔
    Submitted now opId session userId baseSeq opType payload clientOpId op next := by
  constructor
  · intro ran
    unfold submitOp at ran
    split at ran
    · cases ran
    · rename_i member
      dsimp only at ran
      split at ran
      · cases ran
      · rename_i base
        split at ran
        · cases ran
        · rename_i validated valid
          split at ran
          · cases ran
          · rename_i snapshot applied
            cases ran
            exact ⟨by simpa using member,Nat.le_of_not_lt base,validated,snapshot,valid,applied,rfl,rfl⟩
  · rintro ⟨member,base,validated,snapshot,valid,applied,rfl,rfl⟩
    unfold submitOp
    rw [member]
    simp only [Bool.not_true,Bool.false_eq_true,↓reduceIte,Nat.not_lt.mpr base,valid,applied]

theorem validate_envelope (valid : Domain.validateAndTransform kind snapshot intervening op actor participants = .ok out) :
    ∃ payload, out = {op with payload := payload} := by
  cases kind with
  | document => exact Document.validate_envelope valid
  | spreadsheet =>
    simp only [Domain.validateAndTransform,Spreadsheet.validateAndTransform] at valid
    split at valid
    · cases valid
    · split at valid
      · cases valid
      · cases valid; exact ⟨op.payload,rfl⟩

section
variable (done : Submitted now opId session userId baseSeq opType payload clientOpId op next)
include done

theorem Submitted.envelope :
    ∃ payload', op = ⟨opId,session.nextSeq,userId,now,baseSeq,opType,payload',clientOpId⟩ := by
  obtain ⟨validated,snapshot,valid,_,rfl,_⟩ := done.passed
  obtain ⟨payload',rfl⟩ := validate_envelope valid
  exact ⟨payload',rfl⟩

theorem Submitted.seq :
    op.seq = session.nextSeq := by
  obtain ⟨payload',rfl⟩ := done.envelope
  rfl

end

theorem compactRing_ops (ops : List OpEnvelope) (snapshotSeq : Nat) :
    (compactRing ops snapshotSeq).1 = ops.drop (ops.length - defaultMaxOps) := by
  induction ops generalizing snapshotSeq with
  | nil => simp [compactRing]
  | cons dropped rest ih =>
    unfold compactRing
    split
    · rename_i oversized
      rw [ih,List.length_cons,Nat.succ_sub (by omega),List.drop_succ_cons]
    · rename_i fits
      rw [List.length_cons,Nat.sub_eq_zero_of_le (by omega),List.drop_zero]

theorem append_ops (now : Nat) (session : CollabSession) (userId : String) (snapshot : DomainSnapshot) (op : OpEnvelope) :
    (append now session userId snapshot op).ops =
      (session.ops ++ [op]).drop (session.ops.length + 1 - defaultMaxOps) := by
  simp only [append,compactRing_ops,List.length_append,List.length_singleton]

theorem append_members (now : Nat) (session : CollabSession) (userId : String) (snapshot : DomainSnapshot)
    (op : OpEnvelope) (member : String) :
    (append now session userId snapshot op).participants.contains member = session.participants.contains member := by
  simp only [append,movePresence,KeyMap.contains,KeyMap.modify]
  cases session.roomKind with
  | document => simp
  | spreadsheet => simp

theorem submitOp_replace (now : Nat) (opId : String) (clientOpId : Option String) (document : session.roomKind = .document)
    (member : session.participants.contains userId = true) (base : baseSeq ≤ session.latestSeq)
    (unlocked : Document.Unlocked session.participants userId) (parsed : Document.parseReplace payload = .ok sent)
    (transformed : Document.clampReplace (Document.textOf session.snapshot) (transformReplaceThrough sent
      ((session.opsAfter baseSeq).filterMap Document.replaceFromOp)) = replace) :
    submitOp now opId session userId baseSeq .replace payload clientOpId =
      if replace.delete = 0 ∧ replace.insert = [] then .error (.invalidOp "replace is a no-op")
      else
        let op := ⟨opId,session.nextSeq,userId,now,baseSeq,.replace,Document.replacePayload replace,clientOpId⟩
        .ok (op,append now session userId (Document.withText session.snapshot
          (applyReplace (Document.textOf session.snapshot) replace)) op) := by
  unfold submitOp
  rw [member]
  have valid : Document.validateAndTransform session.snapshot (session.opsAfter baseSeq)
      ⟨opId,0,userId,now,baseSeq,.replace,payload,clientOpId⟩ userId session.participants =
      .ok ⟨opId,0,userId,now,baseSeq,.replace,Document.replacePayload replace,clientOpId⟩ := by
    rw [Document.validate_unlocked rfl parsed unlocked,transformed]
  simp only [Bool.not_true,Bool.false_eq_true,↓reduceIte,Nat.not_lt.mpr base,document,Domain.validateAndTransform,valid,
    Domain.apply]
  rw [Document.apply_replace rfl rfl]
  by_cases empty : replace.delete = 0 ∧ replace.insert = []
  · rw [if_pos empty,if_pos empty]
  · rw [if_neg empty,if_neg empty]

end Engine

end Ownly.Collab
