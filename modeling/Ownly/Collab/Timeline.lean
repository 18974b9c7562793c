import Ownly.Collab.Store
import Ownly.Lib.Schedule

-- One session as a line of commits: each call starts from what the last save left,
-- less the participants that expired before the call read it.
namespace Ownly.Collab
open Store
open Option

structure Commit where
  prunedAt : List Nat
  now : Nat
  opId : String
  call : Call
  savedAt : Nat

-- The log keeps every op committed so far, oldest first; the session's own ring
-- forgets the old ones.
structure Timeline where
  session : CollabSession
  log : List OpEnvelope

namespace Timeline

def read (session : CollabSession) (prunedAt : List Nat) : CollabSession :=
  prunedAt.foldl (fun session now => pruneParticipants now session) session

def step (t : Timeline) (c : Commit) : Option Timeline :=
  if c.call.Reaches t.session then
    match c.call.compute c.now c.opId (read t.session c.prunedAt) with
    | .error _ => none
    | .ok (added,next) => some ⟨stamped c.savedAt next,t.log ++ added.toList⟩
  else none

-- `join` builds a session for a file that has none; its own save is the first commit.
def created (now : Nat) (sessionId : String) (kind : RoomKind) (fileId : String) (seed : Option Value) : Timeline :=
  ⟨Engine.newSession now sessionId kind fileId (Domain.seedSnapshot kind seed),[]⟩

def Reached (now : Nat) (sessionId : String) (kind : RoomKind) (fileId : String) (seed : Option Value)
    (t : Timeline) : Prop :=
  ∃ commits, Schedule.run step (created now sessionId kind fileId seed) commits = some t

end Timeline

section
variable (session : CollabSession) (prunedAt : List Nat)
include session prunedAt

theorem Timeline.read_exact :
    ∃ participants, Timeline.read session prunedAt = {session with participants := participants} ∧
      ∀ userId p, participants.get userId = some p → session.participants.get userId = some p := by
  induction prunedAt generalizing session with
  | nil => exact ⟨session.participants,rfl,fun _ _ found => found⟩
  | cons now rest ih =>
    obtain ⟨participants,same,kept⟩ := ih (pruneParticipants now session)
    refine ⟨participants,same,?_⟩
    intro userId p found
    have older := kept userId p found
    simp only [pruneParticipants,KeyMap.get_retain,filter_eq_some_iff] at older
    exact older.1

@[simp] theorem Timeline.read_roomKind :
    (Timeline.read session prunedAt).roomKind = session.roomKind := by
  obtain ⟨participants,same,_⟩ := Timeline.read_exact session prunedAt
  rw [same]

@[simp] theorem Timeline.read_snapshot :
    (Timeline.read session prunedAt).snapshot = session.snapshot := by
  obtain ⟨participants,same,_⟩ := Timeline.read_exact session prunedAt
  rw [same]

@[simp] theorem Timeline.read_nextSeq :
    (Timeline.read session prunedAt).nextSeq = session.nextSeq := by
  obtain ⟨participants,same,_⟩ := Timeline.read_exact session prunedAt
  rw [same]

@[simp] theorem Timeline.read_ops :
    (Timeline.read session prunedAt).ops = session.ops := by
  obtain ⟨participants,same,_⟩ := Timeline.read_exact session prunedAt
  rw [same]

@[simp] theorem Timeline.read_version :
    (Timeline.read session prunedAt).version = session.version := by
  obtain ⟨participants,same,_⟩ := Timeline.read_exact session prunedAt
  rw [same]

@[simp] theorem Timeline.read_id :
    (Timeline.read session prunedAt).id = session.id := by
  obtain ⟨participants,same,_⟩ := Timeline.read_exact session prunedAt
  rw [same]

end

theorem Engine.heartbeat_exact : Engine.heartbeat now session userId presence = .ok next ↔
    ∃ participant, session.participants.get userId = some participant ∧
      next = {session with
        participants := session.participants.set userId {participant with
          lastSeen := now
          presence := match presence.bind Value.asObject with
            | some body => Engine.mergePresence participant.presence body
            | none => participant.presence}
        lastActiveAt := now} := by
  unfold Engine.heartbeat
  cases found : session.participants.get userId with
  | none => simp
  | some participant =>
    simp only [Except.ok.injEq,Option.some.injEq,exists_eq_left']
    exact eq_comm

theorem Call.compute_frame {call : Call} (ran : call.compute now opId session = .ok (added,next)) :
    next.id = session.id ∧ next.roomKind = session.roomKind ∧ next.fileId = session.fileId ∧
      next.version = session.version := by
  cases call with
  | join kind fileId userId displayName seed => cases ran; exact ⟨rfl,rfl,rfl,rfl⟩
  | heartbeat sessionId userId presence =>
    simp only [Call.compute] at ran
    split at ran
    · cases ran
    · rename_i after beat
      cases ran
      obtain ⟨participant,_,rfl⟩ := Engine.heartbeat_exact.mp beat
      exact ⟨rfl,rfl,rfl,rfl⟩
  | submitOp sessionId userId baseSeq opType payload clientOpId =>
    simp only [Call.compute] at ran
    split at ran
    · cases ran
    · rename_i op after done
      cases ran
      obtain ⟨validated,snapshot,_,_,_,rfl⟩ := (Engine.submitOp_exact.mp done).passed
      exact ⟨rfl,rfl,rfl,rfl⟩

structure Logged (session : CollabSession) (log : List OpEnvelope) : Prop where
  next : session.nextSeq = log.length + 1
  seqs : log.map OpEnvelope.seq = List.range' 1 log.length
  ring : session.ops = log.drop (log.length - defaultMaxOps)

theorem Logged.same (logged : Logged session log) (ops : session'.ops = session.ops)
    (seq : session'.nextSeq = session.nextSeq) : Logged session' log :=
  ⟨seq.trans logged.next,logged.seqs,ops.trans logged.ring⟩

theorem Logged.append (logged : Logged session log) (seq : op.seq = session.nextSeq)
    (ops : session'.ops = (session.ops ++ [op]).drop (session.ops.length + 1 - defaultMaxOps))
    (next : session'.nextSeq = session.nextSeq + 1) : Logged session' (log ++ [op]) := by
  obtain ⟨counted,seqs,ring⟩ := logged
  refine ⟨by rw [next,counted,List.length_append]; rfl,?_,?_⟩
  · rw [List.map_append,seqs,List.length_append,List.length_singleton,List.range'_concat,List.map_singleton,seq,
      counted]
    simp [Nat.add_comm]
  · -- whatever was dropped before, the last 1024 of the longer log are what is left
    generalize defaultMaxOps = most at ops ring ⊢
    have kept : log.length - most ≤ log.length := Nat.sub_le _ _
    rw [ops,ring,List.length_drop,← List.drop_append_of_le_length kept,List.drop_drop,List.length_append,
      List.length_singleton]
    congr 1
    omega

theorem Call.compute_logged {call : Call} (ran : call.compute now opId session = .ok (added,next))
    (logged : Logged session log) : Logged next (log ++ added.toList) := by
  cases call with
  | join kind fileId userId displayName seed =>
    cases ran
    rw [toList_none,List.append_nil]
    exact logged.same rfl rfl
  | heartbeat sessionId userId presence =>
    simp only [Call.compute] at ran
    split at ran
    · cases ran
    · rename_i after beat
      cases ran
      obtain ⟨participant,_,rfl⟩ := Engine.heartbeat_exact.mp beat
      rw [toList_none,List.append_nil]
      exact logged.same rfl rfl
  | submitOp sessionId userId baseSeq opType payload clientOpId =>
    simp only [Call.compute] at ran
    split at ran
    · cases ran
    · rename_i op after done
      cases ran
      have submitted := Engine.submitOp_exact.mp done
      obtain ⟨validated,snapshot,_,_,_,rfl⟩ := submitted.passed
      exact logged.append submitted.seq (Engine.append_ops _ _ _ _ _) rfl

theorem Logged.read (logged : Logged session log) (prunedAt : List Nat) :
    Logged (Timeline.read session prunedAt) log := logged.same (Timeline.read_ops _ _) (Timeline.read_nextSeq _ _)

theorem Logged.latestSeq (logged : Logged session log) : session.latestSeq = log.length := by
  rw [CollabSession.latestSeq,logged.next,Nat.add_sub_cancel]

theorem filter_after (log : List OpEnvelope) (before after : Nat)
    (seqs : log.map OpEnvelope.seq = List.range' (before + 1) log.length) :
    log.filter (fun op => after < op.seq) = log.drop (after - before) := by
  induction log generalizing before with
  | nil => simp
  | cons op rest ih =>
    rw [List.map_cons,List.length_cons,List.range'_succ] at seqs
    obtain ⟨first,others⟩ := List.cons.inj seqs
    have tail := ih (before + 1) others
    by_cases newer : after < op.seq
    · rw [List.filter_cons_of_pos (by simpa using newer),tail,Nat.sub_eq_zero_of_le (by omega),
        Nat.sub_eq_zero_of_le (by omega)]
      rfl
    · have gap : after - before = (after - (before + 1)) + 1 := by omega
      rw [List.filter_cons_of_neg (by simpa using newer),tail,gap,List.drop_succ_cons]

theorem map_seq_drop {log : List OpEnvelope} (seqs : log.map OpEnvelope.seq = List.range' 1 log.length) (count : Nat) :
    (log.drop count).map OpEnvelope.seq = List.range' (count + 1) (log.drop count).length := by
  rw [List.map_drop,seqs,List.drop_range',List.length_drop]
  congr 1
  omega

theorem Logged.seq_at (logged : Logged session log) (found : log[position]? = some op) :
    op.seq = position + 1 ∧ position < log.length := by
  obtain ⟨inside,_⟩ := List.getElem?_eq_some_iff.mp found
  have mapped : (log.map OpEnvelope.seq)[position]? = some op.seq := by rw [List.getElem?_map,found,map_some]
  rw [logged.seqs,List.getElem?_range' inside] at mapped
  have same : 1 + 1 * position = op.seq := Option.some.inj mapped
  exact ⟨by omega,inside⟩

theorem Logged.opsAfter (logged : Logged session log) (afterSeq : Nat) :
    session.opsAfter afterSeq = log.drop (max afterSeq (log.length - defaultMaxOps)) := by
  have retained := map_seq_drop logged.seqs (log.length - defaultMaxOps)
  have later : log.length - defaultMaxOps + (afterSeq - (log.length - defaultMaxOps)) =
      max afterSeq (log.length - defaultMaxOps) := by omega
  rw [CollabSession.opsAfter,logged.ring,filter_after _ (log.length - defaultMaxOps) afterSeq retained,
    List.drop_drop,later]

namespace Timeline

theorem step_exact (fired : step t c = some t') : c.call.Reaches t.session ∧ ∃ added next,
    c.call.compute c.now c.opId (read t.session c.prunedAt) = .ok (added,next) ∧
      t' = ⟨stamped c.savedAt next,t.log ++ added.toList⟩ := by
  unfold step at fired
  split at fired
  · rename_i reaches
    split at fired
    · cases fired
    · rename_i added next ran
      cases fired
      exact ⟨reaches,added,next,ran,rfl⟩
  · cases fired

-- What the commit of a replace leaves, read off the state behind it.
structure Replaced (t : Timeline) (userId : String) (baseSeq : Nat) (replace : TextReplace) (clientOpId : Option String)
    (op : OpEnvelope) (t' : Timeline) : Prop where
  envelope : ∃ opId now, op =
    ⟨opId,t.session.nextSeq,userId,now,baseSeq,.replace,Document.replacePayload replace,clientOpId⟩
  log : t'.log = t.log ++ [op]
  text : Document.textOf t'.session.snapshot = applyReplace (Document.textOf t.session.snapshot) replace

theorem submits_replace (now savedAt : Nat) (opId : String) (clientOpId : Option String)
    (document : t.session.roomKind = .document) (member : t.session.participants.contains userId = true)
    (base : baseSeq ≤ t.session.latestSeq) (unlocked : Document.Unlocked t.session.participants userId)
    (parsed : Document.parseReplace payload = .ok sent)
    (transformed : Document.clampReplace (Document.textOf t.session.snapshot) (transformReplaceThrough sent
      ((t.session.opsAfter baseSeq).filterMap Document.replaceFromOp)) = replace)
    (real : ¬(replace.delete = 0 ∧ replace.insert = [])) : ∃ op t',
      step t ⟨[],now,opId,.submitOp t.session.id userId baseSeq .replace payload clientOpId,savedAt⟩ = some t' ∧
      Replaced t userId baseSeq replace clientOpId op t' ∧
      ∀ other, t'.session.participants.contains other = t.session.participants.contains other := by
  have ran := Engine.submitOp_replace now opId clientOpId document member base unlocked parsed transformed
  rw [if_neg real] at ran
  obtain ⟨op,envelope⟩ : ∃ op : OpEnvelope, op =
    ⟨opId,t.session.nextSeq,userId,now,baseSeq,.replace,Document.replacePayload replace,clientOpId⟩ := ⟨_,rfl⟩
  simp only [← envelope] at ran
  refine ⟨op,⟨stamped savedAt (Engine.append now t.session userId (Document.withText t.session.snapshot
    (applyReplace (Document.textOf t.session.snapshot) replace)) op),t.log ++ [op]⟩,?_,⟨⟨opId,now,envelope⟩,rfl,?_⟩,?_⟩
  · have found : Call.Reaches t.session (.submitOp t.session.id userId baseSeq .replace payload clientOpId) := rfl
    have same : read t.session [] = t.session := rfl
    unfold step
    rw [if_pos found]
    simp only [same,Call.compute,ran]
    rfl
  · exact Document.textOf_withText t.session.snapshot _
  · intro other
    exact Engine.append_members now t.session userId (Document.withText t.session.snapshot
      (applyReplace (Document.textOf t.session.snapshot) replace)) op other

theorem created_logged (now : Nat) (sessionId : String) (kind : RoomKind) (fileId : String) (seed : Option Value) :
    Logged (created now sessionId kind fileId seed).session (created now sessionId kind fileId seed).log :=
  ⟨rfl,rfl,List.drop_nil.symm⟩

theorem step_logged (logged : Logged t.session t.log) (fired : step t c = some t') : Logged t'.session t'.log := by
  obtain ⟨_,added,next,ran,rfl⟩ := step_exact fired
  have after := Call.compute_logged ran (logged.read c.prunedAt)
  exact after.same rfl rfl

theorem step_frame (fired : step t c = some t') : t'.session.id = t.session.id ∧
    t'.session.roomKind = t.session.roomKind ∧ t'.session.fileId = t.session.fileId ∧
      t'.session.version = t.session.version + 1 := by
  obtain ⟨_,added,next,ran,rfl⟩ := step_exact fired
  obtain ⟨participants,same,_⟩ := read_exact t.session c.prunedAt
  obtain ⟨sid,kind,file,version⟩ := Call.compute_frame ran
  rw [same] at sid kind file version
  exact ⟨sid,kind,file,congrArg (· + 1) version⟩

theorem step_submits (fired : step t c = some t')
    (call : c.call = .submitOp sessionId userId baseSeq opType payload clientOpId) :
    ∃ op next, Engine.Submitted c.now c.opId (read t.session c.prunedAt) userId baseSeq opType payload clientOpId op next ∧
      t' = ⟨stamped c.savedAt next,t.log ++ [op]⟩ := by
  obtain ⟨_,added,next,ran,rfl⟩ := step_exact fired
  rw [call] at ran
  simp only [Call.compute] at ran
  split at ran
  · cases ran
  · rename_i op after done
    cases ran
    exact ⟨op,_,Engine.submitOp_exact.mp done,rfl⟩

theorem step_replace (fired : step t c = some t') (document : t.session.roomKind = .document)
    (call : c.call = .submitOp sessionId userId baseSeq .replace payload clientOpId) :
    ∃ op sent replace, Document.parseReplace payload = .ok sent ∧
      replace = Document.clampReplace (Document.textOf t.session.snapshot)
        (transformReplaceThrough sent ((t.session.opsAfter baseSeq).filterMap Document.replaceFromOp)) ∧
      ¬(replace.delete = 0 ∧ replace.insert = []) ∧ Replaced t userId baseSeq replace clientOpId op t' := by
  obtain ⟨op,next,submitted,rfl⟩ := step_submits fired call
  obtain ⟨validated,snapshot,valid,applied,rfl,rfl⟩ := submitted.passed
  have seen : (read t.session c.prunedAt).opsAfter baseSeq = t.session.opsAfter baseSeq := by
    rw [CollabSession.opsAfter,CollabSession.opsAfter,read_ops]
  rw [read_roomKind,document,read_snapshot,seen] at valid
  rw [read_roomKind,document,read_snapshot] at applied
  have accepted : Document.validateAndTransform t.session.snapshot (t.session.opsAfter baseSeq)
      ⟨c.opId,0,userId,c.now,baseSeq,.replace,payload,clientOpId⟩ userId
      (read t.session c.prunedAt).participants = .ok validated := valid
  obtain ⟨sent,replace,parsed,moved,_,rfl⟩ := Document.validate_replace rfl accepted
  have result : Document.apply t.session.snapshot
      ⟨c.opId,0,userId,c.now,baseSeq,.replace,Document.replacePayload replace,clientOpId⟩ = .ok snapshot := applied
  rw [Document.apply_replace rfl rfl] at result
  split at result
  · cases result
  · rename_i real
    cases result
    refine ⟨_,sent,replace,parsed,moved,real,⟨c.opId,c.now,?_⟩,rfl,?_⟩
    · rw [read_nextSeq]
    · exact Document.textOf_withText t.session.snapshot _

theorem reached_logged (reached : Reached now sessionId kind fileId seed t) : Logged t.session t.log := by
  obtain ⟨commits,ran⟩ := reached
  exact Schedule.run_preserves (motive := fun t : Timeline => Logged t.session t.log)
    (fun _ _ _ logged fired => step_logged logged fired) (created_logged now sessionId kind fileId seed) ran

theorem reached_frame (reached : Reached now sessionId kind fileId seed t) :
    t.session.id = sessionId ∧ t.session.roomKind = kind ∧ t.session.fileId = fileId := by
  obtain ⟨commits,ran⟩ := reached
  refine Schedule.run_preserves (motive := fun t : Timeline => t.session.id = sessionId ∧ t.session.roomKind = kind ∧
    t.session.fileId = fileId) ?_ ⟨rfl,rfl,rfl⟩ ran
  intro t c t' held fired
  obtain ⟨sid,room,file,_⟩ := step_frame fired
  exact ⟨sid.trans held.1,room.trans held.2.1,file.trans held.2.2⟩

end Timeline
def Tracks (t : Timeline) (call : Call) (copy : CollabSession) : Prop :=
  copy.version ≤ t.session.version ∧
    (copy.version = t.session.version →
      call.Reaches t.session ∧ ∃ prunedAt, copy = Timeline.read t.session prunedAt)

def Computed (t : Timeline) (call : Call) (added : Option OpEnvelope) (copy : CollabSession) : Prop :=
  ∃ base now opId, Tracks t call base ∧ call.compute now opId base = .ok (added,copy)

theorem Tracks.later (tracks : Tracks t call copy) (newer : t'.session.version = t.session.version + 1) :
    Tracks t' call copy := by
  have older := tracks.1
  exact ⟨by omega,fun same => absurd same (by omega)⟩

theorem Computed.later (computed : Computed t call added copy)
    (newer : t'.session.version = t.session.version + 1) : Computed t' call added copy := by
  obtain ⟨base,now,opId,tracks,ran⟩ := computed
  exact ⟨base,now,opId,tracks.later newer,ran⟩

theorem Computed.commit (computed : Computed t call added copy) (current : copy.version = t.session.version)
    (savedAt : Nat) : ∃ c, Timeline.step t c = some ⟨stamped savedAt copy,t.log ++ added.toList⟩ := by
  obtain ⟨base,now,opId,tracks,ran⟩ := computed
  have version := (Call.compute_frame ran).2.2.2
  obtain ⟨reaches,prunedAt,rfl⟩ := tracks.2 (version.symm.trans current)
  refine ⟨⟨prunedAt,now,opId,call,savedAt⟩,?_⟩
  unfold Timeline.step
  rw [if_pos reaches]
  simp only [ran]

theorem Call.compute_silent_join {kind : RoomKind} (ran :
    (Call.join kind fileId userId displayName seed).compute now opId session = .ok (added,next)) : added = none := by
  cases ran
  rfl

end Ownly.Collab
