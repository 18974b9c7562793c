import Ownly.Collab.Client
import Ownly.Collab.SnapshotText

-- One editor typing ahead of the server: every replace is made on the editor's own
-- text, and any number of earlier ones may still be under way.
namespace Ownly.Collab.Pipelining
open Client
open List Option

structure Pipeline where
  server : Timeline
  editor : Editor
  -- first in, first out
  outbox : List ClientOp
  -- every replace typed so far, and the length of the log when the editor joined
  authored : List Replace
  joined : Nat

def start (t : Timeline) (editor : Editor) : Pipeline := ⟨t,editor,[],[],t.log.length⟩

inductive Event where
  | author (op : Replace) (clientOpId : String)
  | commit (prunedAt : List Nat) (now : Nat) (opId : String) (savedAt : Nat)
  -- a committed op comes back: by broadcast, sync or poll, or as the answer to a post
  | receive (position : Nat) (fromAck : Bool)
  | view (latestSeq : Nat)
  -- heartbeats, and joins that bring no seed for an empty text
  | bystander (c : Commit)

def Typable (text : Text) (op : Replace) : Prop :=
  Splice.InBounds text op ∧ ¬IsNoop op ∧ IsString op.insert ∧ IsString (op.apply text)

instance (text : Text) (op : Replace) : Decidable (Typable text op) := inferInstanceAs (Decidable (_ ∧ _ ∧ _ ∧ _))

def edits (session : CollabSession) : Call → Bool
  | .submitOp _ _ _ _ _ _ => true
  | call => decide (SnapshotText.Reseeds session call)

def step (sessionId userId : String) (s : Pipeline) : Event → Option Pipeline
  | .author op clientOpId =>
    if Typable s.editor.text op then
      let (editor,body) := s.editor.type op clientOpId
      some {s with editor := editor,outbox := s.outbox ++ [body],authored := s.authored ++ [op]}
    else none
  | .commit prunedAt now opId savedAt =>
    match s.outbox with
    | [] => none
    | body :: rest =>
      (Timeline.step s.server ⟨prunedAt,now,opId,callOf sessionId userId body,savedAt⟩).map
        (fun server => {s with server := server,outbox := rest})
  | .receive position fromAck =>
    match s.server.log[position]? with
    | none => none
    | some op =>
      if fromAck = true ∧ op.userId ≠ userId then none
      else some {s with editor := s.editor.ingest op fromAck}
  | .view latestSeq =>
    if latestSeq ≤ s.server.session.latestSeq then
      some {s with editor := {s.editor with client := applySession s.editor.client latestSeq}}
    else none
  | .bystander c =>
    if edits s.server.session c.call then none
    else (Timeline.step s.server c).map (fun server => {s with server := server})

-- The editor's own replaces that the server will still have past the base seq when
-- it comes to the next one.
def unseen (joined : Nat) (earlier : List Replace) (baseSeq : Nat) : List Replace :=
  earlier.drop (max baseSeq (joined + earlier.length - defaultMaxOps) - joined)

-- What these did to the text moves the start of the replace back to where it is, or
-- to somewhere past the end of the text when it is there.
def InPlace (joined : Nat) (earlier : List Replace) (baseSeq : Nat) (text : Text) (op : Replace) : Prop :=
  (Splice.slides op.delete op.index (unseen joined earlier baseSeq)).map (min · text.length) = some op.index

instance : Decidable (InPlace joined earlier baseSeq text op) := inferInstanceAs (Decidable (_ = _))

def KeepsPlace (s : Pipeline) : Event → Prop
  | .author op _ => InPlace s.joined s.authored s.editor.client.latestSeq s.editor.text op
  | _ => True

instance (s : Pipeline) : (event : Event) → Decidable (KeepsPlace s event)
  | .author _ _ => inferInstanceAs (Decidable (InPlace _ _ _ _ _))
  | .commit _ _ _ _ => .isTrue trivial
  | .receive _ _ => .isTrue trivial
  | .view _ => .isTrue trivial
  | .bystander _ => .isTrue trivial

inductive Walked : Text → List Replace → Text → Prop where
  | nil : Walked text [] text
  | cons (typable : Typable text op) (rest : Walked (op.apply text) ops final) : Walked text (op :: ops) final

theorem Walked.append (left : Walked text ops middle) (right : Walked middle more final) :
    Walked text (ops ++ more) final := by
  induction left with
  | nil => exact right
  | cons typable _ ih => exact .cons typable (ih right)

theorem Walked.string (walked : Walked text ops final) (string : IsString text) : IsString final := by
  induction walked with
  | nil => exact string
  | cons typable _ ih => exact ih typable.2.2.2

theorem Walked.drop (walked : Walked text ops final) (string : IsString text) (count : Nat) :
    ∃ middle, IsString middle ∧ Walked middle (ops.drop count) final := by
  induction walked generalizing count with
  | nil => exact ⟨_,string,by rw [drop_nil]; exact .nil⟩
  | @cons text op ops final typable rest ih =>
    cases count with
    | zero => exact ⟨text,string,.cons typable rest⟩
    | succ count => exact ih typable.2.2.2 count

-- The outbox against the text of the server: each op was typed on what the ones
-- before it leave, and stays in place on its way.
inductive Queued (joined : Nat) : List Replace → Text → List ClientOp → List Replace → Text → Prop where
  | nil : Queued joined done text [] [] text
  | cons (typable : Typable text op) (low : joined ≤ baseSeq) (high : baseSeq ≤ joined + done.length)
      (place : InPlace joined done baseSeq text op)
      (rest : Queued joined (done ++ [op]) (op.apply text) bodies ops final) :
      Queued joined done text (⟨baseSeq,.replace,replaceToPayload op,clientOpId⟩ :: bodies) (op :: ops) final

theorem Queued.append (queued : Queued joined done text bodies ops final) (typable : Typable final op)
    (low : joined ≤ baseSeq) (high : baseSeq ≤ joined + (done ++ ops).length)
    (place : InPlace joined (done ++ ops) baseSeq final op) (clientOpId : String) :
    Queued joined done text (bodies ++ [⟨baseSeq,.replace,replaceToPayload op,clientOpId⟩]) (ops ++ [op]) (op.apply final) := by
  induction queued with
  | nil =>
    rw [append_nil] at high place
    exact .cons typable low high place .nil
  | cons typable' low' high' place' rest ih =>
    refine .cons typable' low' high' place' (ih typable ?_ ?_)
    · rw [append_assoc]
      exact high
    · rw [append_assoc]
      exact place

theorem Queued.drained (queued : Queued joined done text [] ops final) : final = text := by
  cases queued
  rfl

theorem through_walked (walked : Walked text ops final) (string : IsString text) (insert : IsString op.insert)
    (reach : op.stop ≤ text.length + 2^53) :
    transformReplaceThrough (wire op) (ops.map wire) = wire (op.transformThrough ops) ∧
      (op.transformThrough ops).stop ≤ final.length + 2^53 := by
  induction walked generalizing op with
  | nil => exact ⟨rfl,reach⟩
  | @cons text first ops final typable rest ih =>
    obtain ⟨inside,_,typed,grown⟩ := typable
    have before : text.length < 2^53 := string
    have after : (first.apply text).length < 2^53 := grown
    have far := Splice.transform_reach inside reach
    have insert' : IsString (op.transform first).insert := by rw [Splice.transform_insert]; exact insert
    have moved := transformReplace_wire ⟨by omega,insert⟩ (sendable_inside (by omega) typed inside)
      (⟨by omega,insert'⟩ : Sendable (op.transform first))
    rw [map_cons,transformReplaceThrough,foldl_cons,moved]
    exact ih grown insert' far

theorem committed_in_place (string : IsString text) (walked : Walked text done now) (typable : Typable now op)
    (place : InPlace joined done baseSeq now op) :
    Document.clampReplace now (transformReplaceThrough (wire op) ((unseen joined done baseSeq).map wire)) = wire op := by
  obtain ⟨inside,_,insert,_⟩ := typable
  have size : now.length < 2^53 := walked.string string
  have bound : op.index + op.delete ≤ now.length := inside
  obtain ⟨middle,string',tail⟩ := walked.drop string (max baseSeq (joined + done.length - defaultMaxOps) - joined)
  have reach : op.stop ≤ middle.length + 2^53 := Nat.le_trans inside (by omega)
  obtain ⟨through,far⟩ := through_walked tail string' insert reach
  obtain ⟨j,slid,back⟩ := map_eq_some_iff.mp place
  rw [unseen] at slid ⊢
  rw [Splice.transformThrough_slides slid] at through far
  have small : Sendable {op with index := j} := ⟨Nat.lt_of_le_of_lt far (by omega),insert⟩
  rw [through,clampReplace_pulled small (by omega) (by rw [back]; exact bound),back]

-- The log ends in what the editor has had committed, as it was typed; its outbox
-- takes the text of the server to its own.
structure Pipelined (userId : String) (text : Text) (s : Pipeline) (before own : List OpEnvelope)
    (done queued : List Replace) : Prop where
  logged : Logged s.server.session s.server.log
  document : s.server.session.roomKind = .document
  log : s.server.log = before ++ own
  joined : before.length = s.joined
  mine : List.Forall₂ (fun op r => Document.replaceFromOp op = some (wire r) ∧ op.userId = userId) own done
  authored : s.authored = done ++ queued
  walked : Walked text done (Document.textOf s.server.session.snapshot)
  queue : Queued s.joined done (Document.textOf s.server.session.snapshot) s.outbox queued s.editor.text
  user : s.editor.client.localUserId = some userId
  low : s.joined ≤ s.editor.client.latestSeq
  high : s.editor.client.latestSeq ≤ s.server.log.length

theorem filterMap_own (own : List.Forall₂ (fun op r => Document.replaceFromOp op = some (wire r) ∧ op.userId = userId) ops done) :
    ops.filterMap Document.replaceFromOp = done.map wire := by
  induction own with
  | nil => rfl
  | cons first _ ih => rw [filterMap_cons_some first.1,ih,map_cons]

section
variable (held : Pipelined userId text s before own done queued)
include held

theorem Pipelined.seen (low : s.joined ≤ baseSeq) :
    (s.server.session.opsAfter baseSeq).filterMap Document.replaceFromOp = (unseen s.joined done baseSeq).map wire := by
  have count := held.mine.length_eq
  have total : s.server.log.length = s.joined + done.length := by
    rw [held.log,length_append,held.joined,count]
  have past : before.length ≤ max baseSeq (s.server.log.length - defaultMaxOps) := by
    rw [held.joined]
    exact Nat.le_trans low (Nat.le_max_left _ _)
  have tail : s.server.log.drop (max baseSeq (s.server.log.length - defaultMaxOps)) =
      own.drop (max baseSeq (s.joined + done.length - defaultMaxOps) - s.joined) := by
    rw [held.log,drop_append,drop_eq_nil_of_le (by rw [← held.log]; exact past),nil_append,← held.log,
      total,held.joined]
  rw [held.logged.opsAfter,tail,unseen]
  exact filterMap_own (List.forall₂_drop _ held.mine)

theorem Pipelined.author (typable : Typable s.editor.text op)
    (place : InPlace s.joined s.authored s.editor.client.latestSeq s.editor.text op) (clientOpId : String) :
    Pipelined userId text {s with
      editor := (s.editor.type op clientOpId).1
      outbox := s.outbox ++ [(s.editor.type op clientOpId).2]
      authored := s.authored ++ [op]} before own done (queued ++ [op]) := by
  have count := held.mine.length_eq
  have total : s.server.log.length = s.joined + done.length := by
    rw [held.log,length_append,held.joined,count]
  rw [held.authored] at place
  have longer := held.queue.append typable held.low (by
    have high := held.high
    rw [length_append]
    omega) place clientOpId
  refine ⟨held.logged,held.document,held.log,held.joined,held.mine,?_,held.walked,?_,held.user,held.low,held.high⟩
  · rw [held.authored,append_assoc]
  · have text : (s.editor.type op clientOpId).1.text = op.apply s.editor.text := applyReplace_exact _ op
    rw [text]
    exact longer

theorem Pipelined.commit (string : IsString text)
    (head : s.outbox = body :: rest)
    (fired : Timeline.step s.server ⟨prunedAt,now,opId,callOf sessionId userId body,savedAt⟩ = some server) :
    ∃ op own' queued', Pipelined userId text {s with server := server,outbox := rest} before own' (done ++ [op]) queued' := by
  have queue := held.queue
  rw [head] at queue
  cases queue with
  | @cons _ op baseSeq _ _ ops _ clientOpId typable low high place rest =>
    have size : (Document.textOf s.server.session.snapshot).length < 2^53 := held.walked.string string
    have sendable : Sendable op := sendable_inside (by omega) typable.2.2.1 typable.1
    obtain ⟨real,committed,moved,through,_,carries,log,after⟩ := step_sends fired held.document rfl sendable
    rw [held.seen low,committed_in_place string held.walked typable place] at through
    subst through
    rw [applyReplace_wire sendable (by omega)] at after
    have carried : Document.replaceFromOp committed = some (wire op) :=
      replaceFromOp_carries carries (fun empty => real ((noop_iff sendable).mp empty))
    refine ⟨op,own ++ [committed],ops,⟨Timeline.step_logged held.logged fired,
      (Timeline.step_frame fired).2.1.trans held.document,?_,held.joined,?_,?_,?_,?_,held.user,held.low,?_⟩⟩
    · rw [log,held.log,append_assoc]
    · exact rel_append held.mine (.cons ⟨carried,carries.user⟩ .nil)
    · rw [held.authored,append_assoc]
      rfl
    · rw [after]
      exact held.walked.append (.cons typable .nil)
    · rw [after]
      exact rest
    · rw [log,length_append]
      exact Nat.le_trans held.high (Nat.le_add_right _ _)

end

theorem mem_own (own : List.Forall₂ (fun op r => Document.replaceFromOp op = some (wire r) ∧ op.userId = userId) ops done)
    (member : op ∈ ops) : op.userId = userId := by
  induction own with
  | nil => cases member
  | cons first _ ih =>
    rcases mem_cons.mp member with rfl | later
    · exact first.2
    · exact ih later

theorem Pipelined.receive {position : Nat} (held : Pipelined userId text s before own done queued)
    (found : s.server.log[position]? = some op) (answer : fromAck = true → op.userId = userId) :
    Pipelined userId text {s with editor := s.editor.ingest op fromAck} before own done queued := by
  obtain ⟨seq,inside⟩ := held.logged.seq_at found
  have text : (s.editor.ingest op fromAck).text = s.editor.text := by
    by_cases mine : op.userId = userId
    · exact Editor.ingest_local (by simp [isLocal,held.user,mine])
    · have notAck : fromAck = false := by simpa using fun ack => mine (answer ack)
      have older : position < before.length := by
        by_contra later
        have found := found
        rw [held.log,getElem?_append_right (Nat.le_of_not_lt later)] at found
        exact mine (mem_own held.mine (mem_of_getElem? found))
      have low := held.low
      rw [held.joined] at older
      rw [notAck,Editor.ingest_old (by omega)]
  have latest : (s.editor.ingest op fromAck).client.latestSeq = max s.editor.client.latestSeq op.seq :=
    ingestOp_latestSeq s.editor.client op fromAck
  refine ⟨held.logged,held.document,held.log,held.joined,held.mine,held.authored,held.walked,?_,?_,?_,?_⟩
  · rw [text]
    exact held.queue
  · exact (ingestOp_user s.editor.client op fromAck).trans held.user
  · rw [latest]
    exact Nat.le_trans held.low (Nat.le_max_left _ _)
  · rw [latest,seq]
    exact Nat.max_le.mpr ⟨held.high,inside⟩

theorem Pipelined.view (held : Pipelined userId text s before own done queued)
    (known : latestSeq ≤ s.server.session.latestSeq) :
    Pipelined userId text {s with editor := {s.editor with client := applySession s.editor.client latestSeq}}
      before own done queued := by
  rw [held.logged.latestSeq] at known
  exact ⟨held.logged,held.document,held.log,held.joined,held.mine,held.authored,held.walked,held.queue,held.user,
    Nat.le_trans held.low (Nat.le_max_left _ _),Nat.max_le.mpr ⟨held.high,known⟩⟩

theorem step_bystander (fired : Timeline.step t c = some t') (quiet : edits t.session c.call = false) :
    t'.log = t.log ∧ t'.session.snapshot = t.session.snapshot := by
  obtain ⟨_,added,next,ran,rfl⟩ := Timeline.step_exact fired
  obtain ⟨participants,pruned,_⟩ := Timeline.read_exact t.session c.prunedAt
  have silent : added = none := by
    cases call : c.call with
    | submitOp sessionId userId baseSeq opType payload clientOpId => rw [call] at quiet; cases quiet
    | heartbeat sessionId userId presence =>
      rw [call] at ran
      simp only [Call.compute] at ran
      split at ran
      · cases ran
      · cases ran
        rfl
    | join kind fileId userId displayName seed =>
      rw [call] at ran
      exact Call.compute_silent_join ran
  subst silent
  have kept : ¬SnapshotText.Reseeds (Timeline.read t.session c.prunedAt) c.call := by
    rw [pruned]
    cases call : c.call with
    | submitOp sessionId userId baseSeq opType payload clientOpId => exact id
    | heartbeat sessionId userId presence => exact id
    | join kind fileId userId displayName seed =>
      rw [call] at quiet
      exact of_decide_eq_false quiet
  have unchanged := SnapshotText.compute_silent ran kept
  rw [pruned] at unchanged
  exact ⟨by simp,unchanged⟩

theorem Pipelined.bystander (held : Pipelined userId text s before own done queued)
    (fired : Timeline.step s.server c = some server) (quiet : edits s.server.session c.call = false) :
    Pipelined userId text {s with server := server} before own done queued := by
  obtain ⟨log,snapshot⟩ := step_bystander fired quiet
  refine ⟨Timeline.step_logged held.logged fired,(Timeline.step_frame fired).2.1.trans held.document,log.trans held.log,
    held.joined,held.mine,held.authored,?_,?_,held.user,held.low,?_⟩
  · rw [snapshot]
    exact held.walked
  · rw [snapshot]
    exact held.queue
  · rw [log]
    exact held.high

theorem step_pipelined (string : IsString text) (held : ∃ before own done queued, Pipelined userId text s before own done queued)
    (place : KeepsPlace s event) (fired : step sessionId userId s event = some s') :
    ∃ before own done queued, Pipelined userId text s' before own done queued := by
  obtain ⟨before,own,done,queued,held⟩ := held
  cases event with
  | author op clientOpId =>
    simp only [step] at fired
    split at fired
    · rename_i typable
      cases fired
      exact ⟨before,own,done,queued ++ [op],held.author typable place clientOpId⟩
    · cases fired
  | commit prunedAt now opId savedAt =>
    simp only [step] at fired
    split at fired
    · cases fired
    · rename_i body rest head
      obtain ⟨server,ran,rfl⟩ := map_eq_some_iff.mp fired
      obtain ⟨op,own',queued',after⟩ := held.commit string head ran
      exact ⟨before,own',done ++ [op],queued',after⟩
  | receive position fromAck =>
    simp only [step] at fired
    split at fired
    · cases fired
    · rename_i op found
      split at fired
      · cases fired
      · rename_i answer
        cases fired
        exact ⟨before,own,done,queued,held.receive found (fun ack => by_contra (fun other => answer ⟨ack,other⟩))⟩
  | view latestSeq =>
    simp only [step] at fired
    split at fired
    · rename_i known
      cases fired
      exact ⟨before,own,done,queued,held.view known⟩
    · cases fired
  | bystander c =>
    simp only [step] at fired
    split at fired
    · cases fired
    · rename_i quiet
      obtain ⟨server,ran,rfl⟩ := map_eq_some_iff.mp fired
      exact ⟨before,own,done,queued,held.bystander ran (by simpa using quiet)⟩

theorem start_pipelined (reached : Timeline.Reached now sessionId .document fileId seed t) (synced : Synced t userId editor) :
    Pipelined userId editor.text (start t editor) t.log [] [] [] := by
  have logged := Timeline.reached_logged reached
  refine ⟨logged,(Timeline.reached_frame reached).2.1,(append_nil _).symm,rfl,.nil,rfl,?_,?_,synced.user,?_,?_⟩
  · have same : Document.textOf (start t editor).server.session.snapshot = editor.text := synced.text.symm
    rw [same]
    exact .nil
  · have same : (start t editor).editor.text = Document.textOf t.session.snapshot := synced.text
    rw [same]
    exact .nil
  · exact Nat.le_of_eq (logged.latestSeq.symm.trans synced.latest.symm)
  · exact Nat.le_of_eq (synced.latest.trans logged.latestSeq)

theorem pipelined_text (reached : Timeline.Reached now sessionId .document fileId seed t) (synced : Synced t userId editor)
    (string : IsString editor.text) (place : Schedule.Along (step sessionId userId) KeepsPlace (start t editor) events)
    (ran : Schedule.run (step sessionId userId) (start t editor) events = some s) (drained : s.outbox = []) :
    Document.textOf s.server.session.snapshot = s.editor.text := by
  obtain ⟨before,own,done,queued,held⟩ := Schedule.run_along
    (motive := fun s => ∃ before own done queued, Pipelined userId editor.text s before own done queued)
    (fun _ _ _ held place fired => step_pipelined string held place fired)
    ⟨t.log,[],[],[],start_pipelined reached synced⟩ place ran
  have queue := held.queue
  rw [drained] at queue
  exact queue.drained.symm

def annEditor : Editor := editorOf "ann" ['a','b','c','d']

def typeTwo (first second : Replace) : List Event := [.author first "1",.author second "2",.commit [] 0 "op1" 0,.commit [] 0 "op2" 0]

theorem pipelined_text_end : ∃ s, Schedule.run (step "s" "ann") (start bothJoined annEditor)
      (typeTwo ⟨4,0,['e']⟩ ⟨5,0,['f']⟩) = some s ∧
    Document.textOf s.server.session.snapshot = s.editor.text := by
  obtain ⟨s,ran⟩ := isSome_iff_exists.mp (by decide : (Schedule.run (step "s" "ann")
    (start bothJoined annEditor) (typeTwo ⟨4,0,['e']⟩ ⟨5,0,['f']⟩)).isSome = true)
  have drained : (Schedule.run (step "s" "ann") (start bothJoined annEditor)
      (typeTwo ⟨4,0,['e']⟩ ⟨5,0,['f']⟩)).map (fun s => s.outbox.isEmpty) = some true := by decide
  rw [ran] at drained
  exact ⟨s,ran,pipelined_text bothJoined_reached (bothJoined_synced "ann") (by decide) (by decide) ran
    (List.isEmpty_iff.mp (Option.some.inj drained))⟩

theorem pipelined_text_slips : (Schedule.run (step "s" "ann") (start bothJoined annEditor)
      (typeTwo ⟨0,0,['x']⟩ ⟨1,0,['y']⟩)).map
      (fun s => (s.outbox.length,Document.textOf s.server.session.snapshot,s.editor.text)) =
    some (0,['x','a','y','b','c','d'],['x','y','a','b','c','d']) := by decide

end Ownly.Collab.Pipelining
