import Ownly.Sheets.Hook
import Ownly.Collab.Timeline

-- What the server keeps of the ops of a spreadsheet room: the newest ones as they came,
-- the last workbook that a state_commit brought, and how far back the ring reaches.
namespace Ownly.Sheets
open Collab (Value OpType OpEnvelope DomainSnapshot CollabSession Call Commit Timeline Logged Engine.compactRing
  Engine.trailSeq Engine.append defaultMaxOps map_seq_drop)
open Collab.Timeline (created Reached read reached_logged reached_frame step_exact step_logged step_frame)

variable {ops : List OpEnvelope} {log : List OpEnvelope}

section
variable (seqs : ops.map OpEnvelope.seq = List.range' (floor + 1) ops.length)
include seqs

theorem compactRing_floor :
    (Engine.compactRing ops floor).2 = floor + (ops.length - defaultMaxOps) := by
  induction ops generalizing floor with
  | nil => rfl
  | cons dropped rest ih =>
    rw [List.map_cons,List.length_cons,List.range'_succ] at seqs
    obtain ⟨first,others⟩ := List.cons.inj seqs
    unfold Engine.compactRing
    split
    · rename_i oversized
      have raised : max floor dropped.seq = floor + 1 := by omega
      rw [raised,ih others,List.length_cons]
      omega
    · rename_i fits
      rw [List.length_cons]
      omega

theorem trailSeq_floor :
    Engine.trailSeq ops floor = floor := by
  cases ops with
  | nil => rfl
  | cons first rest =>
    rw [List.map_cons,List.length_cons,List.range'_succ] at seqs
    have front : first.seq = floor + 1 := (List.cons.inj seqs).1
    simp [Engine.trailSeq,front]

end

theorem append_floor (now : Nat) (userId : String) {op : OpEnvelope}
    (seqs : (session.ops ++ [op]).map OpEnvelope.seq = List.range' (snapshot.snapshotSeq + 1) (session.ops ++ [op]).length) :
    (Engine.append now session userId snapshot op).snapshot.snapshotSeq =
      snapshot.snapshotSeq + ((session.ops ++ [op]).length - defaultMaxOps) := by
  have kept : (Engine.compactRing (session.ops ++ [op]) snapshot.snapshotSeq).1.map OpEnvelope.seq =
      List.range' (snapshot.snapshotSeq + ((session.ops ++ [op]).length - defaultMaxOps) + 1)
        (Engine.compactRing (session.ops ++ [op]) snapshot.snapshotSeq).1.length := by
    rw [Collab.Engine.compactRing_ops,List.map_drop,seqs,List.drop_range',List.length_drop,Nat.mul_one,
      Nat.add_right_comm]
  have unfolded : (Engine.append now session userId snapshot op).snapshot.snapshotSeq =
      Engine.trailSeq (Engine.compactRing (session.ops ++ [op]) snapshot.snapshotSeq).1
        (Engine.compactRing (session.ops ++ [op]) snapshot.snapshotSeq).2 := rfl
  rw [unfolded,compactRing_floor seqs]
  exact trailSeq_floor kept

theorem mem_drop (logged : Logged session log) (member : op ∈ log) (late : count < op.seq) : op ∈ log.drop count := by
  obtain ⟨position,found⟩ := List.getElem?_of_mem member
  obtain ⟨seq,_⟩ := logged.seq_at found
  have inside : (log.drop count)[position - count]? = some op := by
    rw [List.getElem?_drop,Nat.add_sub_of_le (by omega)]
    exact found
  exact List.mem_of_getElem? inside

theorem seq_of_drop (logged : Logged session log) (member : op ∈ log.drop count) : count < op.seq := by
  obtain ⟨position,found⟩ := List.getElem?_of_mem member
  rw [List.getElem?_drop] at found
  have seq := (logged.seq_at found).1
  omega

def commitOf (op : OpEnvelope) : Option Value :=
  if op.opType = .stateCommit then op.payload.get "workbook" else none

theorem apply_field (snapshot : DomainSnapshot) (op : OpEnvelope) :
    (Collab.Spreadsheet.apply snapshot op).data.get "workbook" = (commitOf op).or (snapshot.data.get "workbook") := by
  unfold Collab.Spreadsheet.apply commitOf
  split
  · cases carried : op.payload.get "workbook" with
    | none => rfl
    | some workbook => exact Collab.Fields.get_set_self _ _ _
  · rfl

theorem apply_snapshotSeq (snapshot : DomainSnapshot) (op : OpEnvelope) :
    (Collab.Spreadsheet.apply snapshot op).snapshotSeq = snapshot.snapshotSeq := by
  unfold Collab.Spreadsheet.apply
  split
  · split <;> rfl
  · rfl

structure Recorded (t : Timeline) (c : Commit) (op : OpEnvelope) (t' : Timeline) : Prop where
  call : ∃ sessionId baseSeq, c.call = .submitOp sessionId op.userId baseSeq op.opType op.payload op.clientOpId
  known : Collab.Spreadsheet.knownOp op.opType = true
  seq : op.seq = t.session.nextSeq
  log : t'.log = t.log ++ [op]
  saved : t'.session = Collab.Store.stamped c.savedAt (Engine.append c.now (read t.session c.prunedAt) op.userId
    (Collab.Spreadsheet.apply t.session.snapshot op) op)

section
variable (spreadsheet : t.session.roomKind = .spreadsheet) (fired : Timeline.step t c = some t')
include spreadsheet fired

theorem step_records :
    (t'.log = t.log ∧ t'.session.snapshot = t.session.snapshot) ∨ ∃ op, Recorded t c op t' := by
  obtain ⟨reaches,added,next,ran,rfl⟩ := step_exact fired
  cases call : c.call with
  | join kind fileId userId displayName seed =>
    left
    rw [call] at ran reaches
    have same : kind = .spreadsheet := reaches.1.symm.trans spreadsheet
    subst same
    cases ran
    refine ⟨List.append_nil _,?_⟩
    have kept : Collab.Engine.reseed (read t.session c.prunedAt) .spreadsheet seed = (read t.session c.prunedAt).snapshot := by
      unfold Collab.Engine.reseed
      split <;> rfl
    exact kept.trans (Collab.Timeline.read_snapshot t.session c.prunedAt)
  | heartbeat sessionId userId presence =>
    left
    rw [call] at ran
    simp only [Call.compute] at ran
    split at ran
    · cases ran
    · rename_i after beat
      cases ran
      obtain ⟨participant,_,rfl⟩ := Collab.Engine.heartbeat_exact.mp beat
      exact ⟨List.append_nil _,Collab.Timeline.read_snapshot t.session c.prunedAt⟩
  | submitOp sessionId userId baseSeq opType payload clientOpId =>
    right
    rw [call] at ran
    simp only [Call.compute] at ran
    split at ran
    · cases ran
    · rename_i op after done
      cases ran
      obtain ⟨validated,snapshot,valid,applied,envelope,rfl⟩ := (Collab.Engine.submitOp_exact.mp done).passed
      rw [Collab.Timeline.read_roomKind,spreadsheet] at valid applied
      simp only [Collab.Domain.validateAndTransform,Collab.Spreadsheet.validateAndTransform] at valid
      split at valid
      · cases valid
      · rename_i known
        split at valid
        · cases valid
        · cases valid
          cases applied
          subst envelope
          rw [Collab.Timeline.read_snapshot]
          exact ⟨_,⟨sessionId,baseSeq,call⟩,by simpa using known,Collab.Timeline.read_nextSeq _ _,rfl,rfl⟩

theorem submit_records
    (call : c.call = .submitOp sessionId userId baseSeq opType payload clientOpId) :
    ∃ op, Recorded t c op t' ∧ editOf op = ⟨opType,payload⟩ ∧ op.clientOpId = clientOpId := by
  obtain ⟨added,_,_,same⟩ := Collab.Timeline.step_submits fired call
  have log : t'.log = t.log ++ [added] := by rw [same]
  rcases step_records spreadsheet fired with ⟨quiet,_⟩ | ⟨op,recorded⟩
  · rw [log] at quiet
    exact absurd (congrArg List.length quiet) (by simp)
  · obtain ⟨_,_,submits⟩ := recorded.call
    rw [call] at submits
    cases submits
    exact ⟨op,recorded,rfl,rfl⟩

end

theorem Recorded.field (recorded : Recorded t c op t') :
    t'.session.snapshot.data.get "workbook" = (commitOf op).or (t.session.snapshot.data.get "workbook") := by
  rw [recorded.saved]
  exact apply_field t.session.snapshot op

theorem Recorded.floor (recorded : Recorded t c op t') (logged : Logged t.session t.log)
    (floor : t.session.snapshot.snapshotSeq = t.log.length - defaultMaxOps) :
    t'.session.snapshot.snapshotSeq = t'.log.length - defaultMaxOps := by
  have seqs : ((read t.session c.prunedAt).ops ++ [op]).map OpEnvelope.seq =
      List.range' ((Collab.Spreadsheet.apply t.session.snapshot op).snapshotSeq + 1)
        ((read t.session c.prunedAt).ops ++ [op]).length := by
    have retained := map_seq_drop logged.seqs (t.log.length - defaultMaxOps)
    have next := recorded.seq
    rw [logged.next] at next
    have reaches : t.log.length + 1 = t.log.length - defaultMaxOps + 1 + 1 * (t.log.drop (t.log.length - defaultMaxOps)).length := by
      rw [List.length_drop]
      omega
    rw [Collab.Timeline.read_ops,apply_snapshotSeq,floor,logged.ring,List.map_append,retained,List.length_append,
      List.length_singleton,List.range'_concat,List.map_singleton,next,reaches]
  have appended := append_floor c.now op.userId seqs
  rw [apply_snapshotSeq,floor,Collab.Timeline.read_ops,logged.ring,List.length_append,List.length_drop,
    List.length_singleton] at appended
  have same : t'.session.snapshot.snapshotSeq = (Engine.append c.now (read t.session c.prunedAt) op.userId
      (Collab.Spreadsheet.apply t.session.snapshot op) op).snapshot.snapshotSeq := by
    rw [recorded.saved]
    rfl
  rw [same,appended,recorded.log,List.length_append,List.length_singleton]
  omega

theorem reached_next (reached : Reached start sessionId kind fileId seed t) (fired : Timeline.step t c = some t') :
    Reached start sessionId kind fileId seed t' := by
  obtain ⟨commits,ran⟩ := reached
  refine ⟨commits ++ [c],?_⟩
  have last : Schedule.run Timeline.step t [c] = some t' := by
    rw [Schedule.run,fired]
    rfl
  rw [Schedule.run_append,ran]
  exact last

theorem submits_known (spreadsheet : t.session.roomKind = .spreadsheet) (logged : Logged t.session t.log)
    (member : t.session.participants.contains userId = true) (known : Collab.Spreadsheet.knownOp opType = true)
    (now savedAt : Nat) (opId : String) (payload : Value) (clientOpId : Option String) :
    ∃ op t', Timeline.step t
        ⟨[],now,opId,.submitOp t.session.id userId t.session.latestSeq opType payload clientOpId,savedAt⟩ = some t' ∧
      op = ⟨opId,t.session.nextSeq,userId,now,t.session.latestSeq,opType,payload,clientOpId⟩ ∧
      t'.log = t.log ++ [op] ∧
      ∀ other, t'.session.participants.contains other = t.session.participants.contains other := by
  have unseen : t.session.opsAfter t.session.latestSeq = [] := by
    rw [logged.opsAfter,logged.latestSeq]
    exact List.drop_eq_nil_of_le (Nat.le_max_left _ _)
  obtain ⟨op,envelope⟩ : ∃ op : OpEnvelope, op =
    ⟨opId,t.session.nextSeq,userId,now,t.session.latestSeq,opType,payload,clientOpId⟩ := ⟨_,rfl⟩
  obtain ⟨snapshot,applied⟩ : ∃ snapshot, snapshot = Collab.Spreadsheet.apply t.session.snapshot
    ⟨opId,0,userId,now,t.session.latestSeq,opType,payload,clientOpId⟩ := ⟨_,rfl⟩
  have passed : Collab.Engine.Submitted now opId t.session userId t.session.latestSeq opType payload clientOpId op
      (Engine.append now t.session userId snapshot op) := by
    refine ⟨member,Nat.le_refl _,⟨opId,0,userId,now,t.session.latestSeq,opType,payload,clientOpId⟩,snapshot,?_,?_,
      envelope,rfl⟩
    · rw [spreadsheet,unseen]
      simp [Collab.Domain.validateAndTransform,Collab.Spreadsheet.validateAndTransform,known]
    · rw [spreadsheet,applied]
      rfl
  have ran := Collab.Engine.submitOp_exact.mpr passed
  have found : Call.Reaches t.session (.submitOp t.session.id userId t.session.latestSeq opType payload clientOpId) := rfl
  have same : read t.session [] = t.session := rfl
  refine ⟨op,⟨Collab.Store.stamped savedAt (Engine.append now t.session userId snapshot op),t.log ++ [op]⟩,?_,envelope,
    rfl,?_⟩
  · unfold Timeline.step
    rw [if_pos found]
    simp only [same,Call.compute,ran]
    rfl
  · intro other
    exact Collab.Engine.append_members now t.session userId snapshot op other

def renameOf (index : UInt64) (name : String) : Edit :=
  ⟨.sheetRename,.object [("index",.ofU64 index),("name",.string (textOf name))]⟩

structure Attended (start : Nat) (sessionId fileId : String) (seed : Option Value) (userId : String) (t : Timeline) :
    Prop where
  reached : Reached start sessionId .spreadsheet fileId seed t
  member : t.session.participants.contains userId = true

theorem attended (start : Nat) (sessionId fileId userId : String) (seed : Option Value) :
    ∃ t, Attended start sessionId fileId seed userId t ∧ t.log = [] := by
  have found : Call.Reaches (created start sessionId .spreadsheet fileId seed).session
    (.join .spreadsheet fileId userId userId none) := ⟨rfl,rfl⟩
  obtain ⟨session,entered⟩ : ∃ session, session = Collab.Engine.join start
    (created start sessionId .spreadsheet fileId seed).session .spreadsheet userId userId none := ⟨_,rfl⟩
  have joined : Timeline.step (created start sessionId .spreadsheet fileId seed)
      ⟨[],start,"",.join .spreadsheet fileId userId userId none,start⟩ =
      some ⟨Collab.Store.stamped start session,[]⟩ := by
    unfold Timeline.step
    rw [if_pos found,entered]
    rfl
  have run : Reached start sessionId .spreadsheet fileId seed (created start sessionId .spreadsheet fileId seed) := ⟨[],rfl⟩
  refine ⟨⟨Collab.Store.stamped start session,[]⟩,⟨reached_next run joined,?_⟩,rfl⟩
  rw [entered]
  exact Option.isSome_iff_exists.mpr ⟨_,KeyMap.get_set_self⟩

theorem Attended.write (here : Attended start sessionId fileId seed userId t)
    (known : Collab.Spreadsheet.knownOp edit.opType = true) :
    ∃ t', Attended start sessionId fileId seed userId t' ∧ t'.log.map editOf = t.log.map editOf ++ [edit] := by
  obtain ⟨op,t',fired,rfl,log,members⟩ := submits_known (reached_frame here.reached).2.1 (reached_logged here.reached)
    here.member known 0 0 "" edit.payload none
  refine ⟨t',⟨reached_next here.reached fired,(members userId).trans here.member⟩,?_⟩
  rw [log,List.map_append]
  rfl

theorem Attended.writes (here : Attended start sessionId fileId seed userId t) (edits : List Edit)
    (known : ∀ edit ∈ edits, Collab.Spreadsheet.knownOp edit.opType = true) :
    ∃ t', Attended start sessionId fileId seed userId t' ∧ t'.log.map editOf = t.log.map editOf ++ edits := by
  induction edits generalizing t with
  | nil => exact ⟨t,here,(List.append_nil _).symm⟩
  | cons edit rest ih =>
    obtain ⟨middle,there,first⟩ := here.write (known edit List.mem_cons_self)
    obtain ⟨t',final,others⟩ := ih there (fun other member => known other (List.mem_cons_of_mem _ member))
    exact ⟨t',final,by rw [others,first,List.append_assoc]; rfl⟩

end Ownly.Sheets
