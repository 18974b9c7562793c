import Ownly.Sheets.CollabOps
import Ownly.Lib.Reorder
import Ownly.Collab.Client

-- frontend/src/hooks/useSpreadsheetCollab.ts between the collab client and the editor.
namespace Ownly.Sheets
open Collab (Value OpType OpEnvelope DomainSnapshot CollabSession)
open Collab.Client (CollabClient PendingOp Delivery ingestOp)

def remoteWorkbook (value : Option Value) (workbook : SpreadsheetWorkbook) : SpreadsheetWorkbook :=
  match value with
  | some value => if isObject value then readWorkbook value else workbook
  | none => workbook

def onOp (env : Env) (now : Nat) (workbook : SpreadsheetWorkbook) (delivery : Delivery) : SpreadsheetWorkbook :=
  if delivery.op.opType = .stateCommit ∧ delivery.isLocalEcho = false then
    remoteWorkbook (delivery.op.payload.get "workbook") workbook
  else if delivery.isLocalEcho = false then applyCollabOpsToWorkbook env now workbook [delivery.op]
  else workbook

-- `onSession` and `onSnapshot` do the same with the snapshot they are given.
def onSnapshot (workbook : SpreadsheetWorkbook) (snapshot : DomainSnapshot) : SpreadsheetWorkbook :=
  remoteWorkbook (snapshot.data.get "workbook") workbook

structure Screen where
  client : CollabClient
  workbook : SpreadsheetWorkbook

def ingest (env : Env) (now : Nat) (screen : Screen) (op : OpEnvelope) (fromAck : Bool) : Screen :=
  let (client,delivered) := ingestOp screen.client op fromAck
  ⟨client,delivered.toList.foldl (onOp env now) screen.workbook⟩

def applySession (screen : Screen) (session : CollabSession) : Screen :=
  ⟨Collab.Client.applySession screen.client session.latestSeq,
    onSnapshot (onSnapshot screen.workbook session.snapshot) session.snapshot⟩

-- The message `publish_op` makes of a committed op and the session it was saved in.
def receive (env : Env) (now : Nat) (screen : Screen) (op : OpEnvelope) (session : CollabSession) : Screen :=
  applySession (ingest env now screen op false) session

-- What an op of someone else does to the workbook, and an own one when it is made.
def applyOp (env : Env) (now : Nat) (workbook : SpreadsheetWorkbook) (edit : Edit) : SpreadsheetWorkbook :=
  if edit.opType = .stateCommit then remoteWorkbook (edit.payload.get "workbook") workbook
  else applyCollabOpToWorkbook env now workbook edit

theorem applyOp_rename (env : Env) (now : Nat) (rename : edit.opType = .sheetRename) (workbook : SpreadsheetWorkbook) :
    applyOp env now workbook edit =
      match asNumber (edit.payload.get "index"),nonEmpty (asString (edit.payload.get "name")) with
      | some index,some name => renameSheet workbook index name
      | _,_ => workbook := by
  obtain ⟨opType,payload⟩ := edit
  have same : opType = .sheetRename := rename
  subst same
  rfl

def replay (env : Env) (now : Nat) (workbook : SpreadsheetWorkbook) (edits : List Edit) : SpreadsheetWorkbook :=
  edits.foldl (applyOp env now) workbook

theorem onOp_remote (env : Env) (now : Nat) (workbook : SpreadsheetWorkbook) (op : OpEnvelope) :
    onOp env now workbook ⟨op,false⟩ = applyOp env now workbook (editOf op) := by
  unfold onOp applyOp
  by_cases commit : op.opType = .stateCommit
  · rw [if_pos ⟨commit,rfl⟩,if_pos (show (editOf op).opType = .stateCommit from commit)]
    rfl
  · rw [if_neg (fun both => commit both.1),if_pos rfl,
      if_neg (show ¬(editOf op).opType = .stateCommit from commit)]
    exact applyCollabOpsToWorkbook_single env now workbook op

theorem onOp_echo (env : Env) (now : Nat) (workbook : SpreadsheetWorkbook) (op : OpEnvelope) :
    onOp env now workbook ⟨op,true⟩ = workbook := by
  simp [onOp]

def Brings (edit : Edit) (value : Value) : Prop :=
  edit.opType = .stateCommit ∧ edit.payload.get "workbook" = some value ∧ isObject value = true

theorem remoteWorkbook_object (object : isObject value = true) (workbook : SpreadsheetWorkbook) :
    remoteWorkbook (some value) workbook = readWorkbook value := if_pos object

theorem applyOp_brings (brings : Brings edit value) (env : Env) (now : Nat) (workbook : SpreadsheetWorkbook) :
    applyOp env now workbook edit = readWorkbook value := by
  obtain ⟨commit,carried,object⟩ := brings
  rw [applyOp,if_pos commit,carried,remoteWorkbook_object object]

theorem replay_cons (env : Env) (now : Nat) (workbook : SpreadsheetWorkbook) (edit : Edit) (rest : List Edit) :
    replay env now workbook (edit :: rest) = replay env now (applyOp env now workbook edit) rest := rfl

theorem replay_append (env : Env) (now : Nat) (workbook : SpreadsheetWorkbook) (first second : List Edit) :
    replay env now workbook (first ++ second) = replay env now (replay env now workbook first) second :=
  List.foldl_append

theorem replay_brings (brings : Brings edit value) (env : Env) (now : Nat) (workbook : SpreadsheetWorkbook)
    (before after : List Edit) :
    replay env now workbook (before ++ edit :: after) = replay env now (readWorkbook value) after := by
  rw [replay_append,← applyOp_brings brings env now (replay env now workbook before)]
  rfl

def editOfPending (p : PendingOp) : Edit := ⟨p.opType,p.payload⟩

def pendingEdits (client : CollabClient) : List Edit := client.pendingOps.map editOfPending

theorem ingestOp_sheet {op : OpEnvelope} (kind : op.opType ≠ .replace)
    (taken : ¬(op.seq ≤ client.latestSeq ∧ fromAck = false)) : ingestOp client op fromAck =
      ({Collab.Client.clearPending client op.clientOpId with latestSeq := max client.latestSeq op.seq},
        some ⟨op,Collab.Client.isLocal client op || fromAck⟩) := by
  have asIs : ∀ client, Collab.Client.rebaseRemoteAgainstPending client op = op := by
    intro client
    rw [Collab.Client.rebaseRemoteAgainstPending,if_pos kind]
  have alone : ∀ client, Collab.Client.rebasePendingThroughRemote client op = client := by
    intro client
    rw [Collab.Client.rebasePendingThroughRemote,if_pos kind]
  unfold Collab.Client.ingestOp
  rw [if_neg taken]
  dsimp only
  rw [asIs,alone,Collab.Client.clearPending_latestSeq]
  split <;> rfl

theorem ingest_old (env : Env) (now : Nat) {screen : Screen} (old : op.seq ≤ screen.client.latestSeq) :
    ingest env now screen op false = screen := by
  unfold ingest Collab.Client.ingestOp
  rw [if_pos ⟨old,rfl⟩]
  rfl

theorem ingest_sheet (env : Env) (now : Nat) {screen : Screen} (kind : op.opType ≠ .replace)
    (taken : ¬(op.seq ≤ screen.client.latestSeq ∧ fromAck = false)) : ingest env now screen op fromAck =
      ⟨{Collab.Client.clearPending screen.client op.clientOpId with latestSeq := max screen.client.latestSeq op.seq},
        if Collab.Client.isLocal screen.client op || fromAck then screen.workbook
        else applyOp env now screen.workbook (editOf op)⟩ := by
  unfold ingest
  rw [ingestOp_sheet kind taken]
  cases mine : (Collab.Client.isLocal screen.client op || fromAck) with
  | true => simp [onOp_echo]
  | false => simp [onOp_remote]

end Ownly.Sheets
