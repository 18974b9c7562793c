import Ownly.Sheets.Record

-- Two editors of one spreadsheet room. Each shows its own edits at once and takes those
-- of the other as the server's op stream brings them; what else the messages carry is
-- left aside here.
namespace Ownly.Sheets.Peers
open Collab (OpEnvelope Timeline Commit Logged)
open Collab.Client (CollabClient PendingOp submitOp bodyOf callOf handleServerMessage isLocal clearPending)
open Collab.Timeline (Reached)

structure Replica where
  userId : String
  screen : Screen
  -- own ops that the server committed, each with its seq
  committed : List (String × Nat)
  -- the seqs of the ops that messages brought
  received : List Nat

inductive Side where
  | left
  | right
  deriving DecidableEq

def Side.other : Side → Side
  | .left => .right
  | .right => .left

structure Room where
  server : Timeline
  left : Replica
  right : Replica

def Room.peer (room : Room) : Side → Replica
  | .left => room.left
  | .right => room.right

def Room.put (room : Room) (side : Side) (replica : Replica) : Room :=
  match side with
  | .left => {room with left := replica}
  | .right => {room with right := replica}

inductive Transport where
  | ws
  | http

inductive Event where
  | edit (side : Side) (now : Nat) (edit : Edit) (clientOpId : String)
  | commit (side : Side) (clientOpId : String) (prunedAt : List Nat) (now : Nat) (opId : String) (savedAt : Nat)
  | refuse (side : Side) (clientOpId : String)
  -- a join or a heartbeat of anyone
  | visit (c : Commit)
  | broadcast (side : Side) (position now : Nat)
  | answer (side : Side) (position now : Nat) (transport : Transport)

def isPending (client : CollabClient) (clientOpId : String) : Bool :=
  client.pendingOps.any (fun p => p.clientOpId = clientOpId)

def fresh (room : Room) (clientOpId : String) : Bool :=
  !isPending room.left.screen.client clientOpId && !isPending room.right.screen.client clientOpId &&
    room.server.log.all (fun op => op.clientOpId ≠ some clientOpId)

def answered (env : Env) (now : Nat) (screen : Screen) (op : OpEnvelope) : Transport → Screen
  | .ws =>
    let (client,delivered) := handleServerMessage screen.client (.ack op.seq op.clientOpId (some op))
    ⟨client,delivered.foldl (onOp env now) screen.workbook⟩
  | .http => ingest env now screen op true

def step (env : Env) (room : Room) : Event → Option Room
  | .edit side now edit clientOpId =>
    if fresh room clientOpId then
      let replica := room.peer side
      let (client,_) := submitOp replica.screen.client edit.opType edit.payload clientOpId
      some (room.put side {replica with screen := ⟨client,applyOp env now replica.screen.workbook edit⟩})
    else none
  | .commit side clientOpId prunedAt now opId savedAt =>
    let replica := room.peer side
    match replica.screen.client.pendingOps.find? (fun p => p.clientOpId = clientOpId) with
    | none => none
    | some p =>
      if clientOpId ∈ replica.committed.map Prod.fst then none
      else
        let call := callOf room.server.session.id replica.userId (bodyOf p)
        (Timeline.step room.server ⟨prunedAt,now,opId,call,savedAt⟩).map (fun server =>
          {room with server := server}.put side
            {replica with committed := replica.committed ++ [(clientOpId,server.session.latestSeq)]})
  | .refuse side clientOpId =>
    let replica := room.peer side
    let (client,_) := handleServerMessage replica.screen.client (.error (some clientOpId) none)
    some (room.put side {replica with screen := {replica.screen with client := client}})
  | .visit c =>
    match c.call with
    | .submitOp _ _ _ _ _ _ => none
    | .join _ _ _ _ _ | .heartbeat _ _ _ =>
      (Timeline.step room.server c).map (fun server => {room with server := server})
  | .broadcast side position now =>
    let replica := room.peer side
    match room.server.log[position]? with
    | none => none
    | some op => some (room.put side {replica with
        screen := ingest env now replica.screen op false
        received := replica.received ++ [op.seq]})
  | .answer side position now transport =>
    let replica := room.peer side
    match room.server.log[position]? with
    | none => none
    | some op =>
      if op.clientOpId.any (fun clientOpId => (clientOpId,op.seq) ∈ replica.committed) then
        some (room.put side {replica with
          screen := answered env now replica.screen op transport
          received := replica.received ++ [op.seq]})
      else none

def Settled (base : Nat) (room : Room) : Prop := ∀ side,
  (∀ p ∈ (room.peer side).screen.client.pendingOps, p.clientOpId ∈ (room.peer side).committed.map Prod.fst) ∧
    ∀ op ∈ room.server.log.drop base, op.seq ∈ (room.peer side).received

-- Both editors have seen all of the log and show the same workbook.
structure Opened (initial : SpreadsheetWorkbook) (room : Room) : Prop where
  reached : ∃ start sessionId fileId seed, Reached start sessionId .spreadsheet fileId seed room.server
  fresh : ∀ side, ∃ userId localUserId, room.peer side =
    ⟨userId,⟨⟨localUserId,room.server.session.latestSeq,[]⟩,initial⟩,[],[]⟩

section Orderly
variable (env : Env) (moment base : Nat) (initial : SpreadsheetWorkbook)

def seen (log : List OpEnvelope) (latestSeq : Nat) : SpreadsheetWorkbook :=
  replay env moment initial (((log.take latestSeq).drop base).map editOf)

-- The own edits that are on the screen already when the op arrives, and come after it in
-- the log: all pending ones, or those made before it where it is an own op.
def overtaken (client : CollabClient) (op : OpEnvelope) : List Edit :=
  (client.pendingOps.takeWhile (fun p => decide (op.clientOpId ≠ some p.clientOpId))).map editOfPending

structure InTurn (log : List OpEnvelope) (client : CollabClient) (op : OpEnvelope) : Prop where
  next : op.seq = client.latestSeq + 1
  slides : Reorder.Slides (applyOp env moment) (editOf op) (seen env moment base initial log client.latestSeq)
    (overtaken client op)

def Steady (now : Nat) (workbook : SpreadsheetWorkbook) (edit : Edit) : Prop :=
  applyOp env now workbook edit = applyOp env moment workbook edit

def Own (client : CollabClient) (op : OpEnvelope) : Prop := ∃ p ∈ client.pendingOps, op.clientOpId = some p.clientOpId

def Orderly (room : Room) : Event → Prop
  | .edit side now edit _ => Steady env moment now (room.peer side).screen.workbook edit
  | .refuse _ _ => False
  | .commit _ _ _ _ _ _ | .visit _ => True
  | .broadcast side position now => ∀ op ∈ room.server.log[position]?,
      let screen := (room.peer side).screen
      op.seq ≤ screen.client.latestSeq ∨
        InTurn env moment base initial room.server.log screen.client op ∧
          (isLocal screen.client op = true → Own screen.client op) ∧
          (isLocal screen.client op = false → Steady env moment now screen.workbook (editOf op))
  | .answer side position _ _ => ∀ op ∈ room.server.log[position]?,
      let client := (room.peer side).screen.client
      op.seq ≤ client.latestSeq ∨ InTurn env moment base initial room.server.log client op ∧ Own client op

end Orderly

end Ownly.Sheets.Peers
