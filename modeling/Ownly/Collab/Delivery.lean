import Ownly.Collab.Client
import Ownly.Lib.Cursor

-- What a client hands to its editor of the op stream, whatever order the server's
-- messages and the answers to its own requests reach it in.
namespace Ownly.Collab.Delivery
open Client hiding Delivery
open Timeline (Reached reached_logged)
open Option

structure Feed where
  server : Timeline
  -- the states saved since the join: replies and views are made of any of them
  saved : List Timeline
  client : CollabClient
  joined : Nat
  -- own ops, and the seqs of those whose post was committed and is not answered yet
  posted : List String
  answers : List Nat
  -- what `onOp` was called with, and what the messages brought
  delivered : List Nat
  received : List Nat

def start (t : Timeline) (client : CollabClient) : Feed := ⟨t,[t],client,client.latestSeq,[],[],[],[]⟩

inductive Event where
  | commit (c : Commit)
  | submit (opType : OpType) (payload : Value) (clientOpId : String)
  | post (c : Commit)
  -- `publish_op`: the session goes with the op as the op left it
  | broadcast (position : Nat)
  -- a sync reads the ops and then, maybe later, the session; every peer gets the reply
  | syncReply (afterSeq early late : Nat)
  | pollOps (afterSeq early : Nat)
  | presence (index : Nat)
  | pollSession (index : Nat)
  | answer (position : Nat)
  -- a post fails after the server committed it, or before
  | answerLost (seq : Nat) (clientOpId : String)
  | postRefused (clientOpId : String)
  | error (clientOpId code : Option String)

def seqsOf (ops : List OpEnvelope) : List Nat := ops.map OpEnvelope.seq

def hand (s : Feed) (outcome : CollabClient × List Client.Delivery) (brought : List Nat) : Feed :=
  {s with
    client := outcome.1
    delivered := s.delivered ++ outcome.2.map (fun delivery => delivery.op.seq)
    received := s.received ++ brought}

def isOwn (posted : List String) : Call → Bool
  | .submitOp _ _ _ _ _ (some clientOpId) => posted.contains clientOpId
  | _ => false

def answered (seq : Nat) (answers : List Nat) : List Nat := answers.filter (· ≠ seq)

def step (s : Feed) : Event → Option Feed
  | .commit c => (Timeline.step s.server c).map (fun server => {s with server := server,saved := s.saved ++ [server]})
  | .submit opType payload clientOpId =>
    some {s with client := (submitOp s.client opType payload clientOpId).1,posted := s.posted ++ [clientOpId]}
  | .post c =>
    if isOwn s.posted c.call then
      (Timeline.step s.server c).map (fun server => {s with
        server := server
        saved := s.saved ++ [server]
        answers := server.session.latestSeq :: s.answers})
    else none
  | .broadcast position =>
    match s.server.log[position]? with
    | some op => some (hand s (handleServerMessage s.client (.op op (some op.seq))) [op.seq])
    | none => none
  | .syncReply afterSeq early late =>
    match s.saved[early]?,s.saved[late]? with
    | some t,some t' =>
      if early ≤ late then
        let ops := t.session.opsAfter afterSeq
        some (hand s (handleServerMessage s.client (.ops ops (some t'.session.latestSeq))) (seqsOf ops))
      else none
    | _,_ => none
  | .pollOps afterSeq early =>
    match s.saved[early]? with
    | some t => some (hand s (ingestAll s.client (t.session.opsAfter afterSeq)) (seqsOf (t.session.opsAfter afterSeq)))
    | none => none
  | .presence index =>
    match s.saved[index]? with
    | some t => some (hand s (handleServerMessage s.client (.presence (some t.session.latestSeq))) [])
    | none => none
  | .pollSession index =>
    match s.saved[index]? with
    | some t => some {s with client := applySession s.client t.session.latestSeq}
    | none => none
  | .answer position =>
    match s.server.log[position]? with
    | some op =>
      if op.seq ∈ s.answers then
        let (client,delivered) := ingestOp s.client op true
        some (hand {s with answers := answered op.seq s.answers} (client,delivered.toList) [op.seq])
      else none
    | none => none
  | .answerLost seq clientOpId =>
    if seq ∈ s.answers then
      some {s with client := postFailed s.client clientOpId,answers := answered seq s.answers}
    else none
  | .postRefused clientOpId => some {s with client := postFailed s.client clientOpId}
  | .error clientOpId code => some (hand s (handleServerMessage s.client (.error clientOpId code)) [])

def cursor (s : Feed) : Cursor := ⟨s.client.latestSeq,s.delivered⟩

def GapFree (s : Feed) : Prop := Cursor.Owing s.joined (· ∈ s.answers) (cursor s)

def reach (s : Feed) : Nat := (cursor s).reach s.joined

def Follows (s : Feed) (ops : List OpEnvelope) : Prop :=
  (∀ seq ∈ seqsOf ops, seq ≤ s.client.latestSeq) ∨
    (s.client.latestSeq = reach s ∧ ∀ op ∈ ops.head?, op.seq ≤ s.client.latestSeq + 1)

-- A view is ahead of what is known by ops whose answers are under way, at most.
def Awaited (s : Feed) (known view : Nat) : Prop := ∀ seq ∈ List.range' (known + 1) (view - known), seq ∈ s.answers

-- What a message may be for no op to be skipped or handed on twice.
def Orderly (s : Feed) : Event → Prop
  | .broadcast position => ∀ op ∈ s.server.log[position]?, Follows s [op]
  | .syncReply afterSeq early late => ∀ t ∈ s.saved[early]?, ∀ t' ∈ s.saved[late]?,
      Follows s (t.session.opsAfter afterSeq) ∧
      Awaited s ((seqsOf (t.session.opsAfter afterSeq)).foldl max s.client.latestSeq) t'.session.latestSeq
  | .pollOps afterSeq early => ∀ t ∈ s.saved[early]?, Follows s (t.session.opsAfter afterSeq)
  | .presence index => ∀ t ∈ s.saved[index]?, Awaited s s.client.latestSeq t.session.latestSeq
  | .pollSession index => ∀ t ∈ s.saved[index]?, Awaited s s.client.latestSeq t.session.latestSeq
  | .answer position => ∀ op ∈ s.server.log[position]?, op.seq = reach s + 1
  | .answerLost seq _ => ¬(reach s < seq ∧ seq ≤ s.client.latestSeq)
  | _ => True

instance (s : Feed) (ops : List OpEnvelope) : Decidable (Follows s ops) :=
  inferInstanceAs (Decidable ((∀ seq ∈ seqsOf ops, _) ∨ (_ ∧ ∀ op ∈ ops.head?, _)))

instance (s : Feed) (known view : Nat) : Decidable (Awaited s known view) :=
  inferInstanceAs (Decidable (∀ seq ∈ List.range' (known + 1) (view - known), _))

instance (s : Feed) : (event : Event) → Decidable (Orderly s event)
  | .broadcast position => inferInstanceAs (Decidable (∀ op ∈ s.server.log[position]?, _))
  | .syncReply _ early late => inferInstanceAs (Decidable (∀ t ∈ s.saved[early]?, ∀ t' ∈ s.saved[late]?, _ ∧ _))
  | .pollOps _ early => inferInstanceAs (Decidable (∀ t ∈ s.saved[early]?, _))
  | .presence index => inferInstanceAs (Decidable (∀ t ∈ s.saved[index]?, _))
  | .pollSession index => inferInstanceAs (Decidable (∀ t ∈ s.saved[index]?, _))
  | .answer position => inferInstanceAs (Decidable (∀ op ∈ s.server.log[position]?, _))
  | .answerLost _ _ => inferInstanceAs (Decidable (¬(_ ∧ _)))
  | .commit _ | .submit _ _ _ | .post _ | .postRefused _ | .error _ _ => .isTrue trivial

variable {s s' : Feed} {t t' : Timeline} {op : OpEnvelope} {position index early late : Nat}

theorem ingestOp_take (client : CollabClient) (op : OpEnvelope) (delivered : List Nat) :
    (⟨(ingestOp client op false).1.latestSeq,
      delivered ++ ((ingestOp client op false).2.toList.map (fun delivery => delivery.op.seq))⟩ : Cursor) =
    (⟨client.latestSeq,delivered⟩ : Cursor).take op.seq := by
  rw [ingestOp_latestSeq]
  unfold Cursor.take
  by_cases old : op.seq ≤ client.latestSeq
  · rw [if_pos old,Nat.max_eq_left old]
    unfold ingestOp
    rw [if_pos ⟨old,rfl⟩]
    simp
  · rw [if_neg old,Nat.max_eq_right (Nat.le_of_not_le old)]
    have seq := ingestOp_seq client op false (fun both => old both.1)
    rw [seq]

theorem ingestOp_force (client : CollabClient) (op : OpEnvelope) (delivered : List Nat) :
    (⟨(ingestOp client op true).1.latestSeq,
      delivered ++ ((ingestOp client op true).2.toList.map (fun delivery => delivery.op.seq))⟩ : Cursor) =
    (⟨client.latestSeq,delivered⟩ : Cursor).force op.seq := by
  have seq := ingestOp_seq client op true (fun both => by cases both.2)
  rw [ingestOp_latestSeq,seq]
  rfl

theorem ingestAll_takeAll (client : CollabClient) (ops : List OpEnvelope) (delivered : List Nat) :
    (⟨(ingestAll client ops).1.latestSeq,
      delivered ++ ((ingestAll client ops).2.map (fun delivery => delivery.op.seq))⟩ : Cursor) =
    (⟨client.latestSeq,delivered⟩ : Cursor).takeAll (seqsOf ops) := by
  induction ops generalizing client delivered with
  | nil => simp [ingestAll,seqsOf,Cursor.takeAll]
  | cons op rest ih =>
    have first := ingestOp_take client op delivered
    have others := ih (ingestOp client op false).1
      (delivered ++ (ingestOp client op false).2.toList.map (fun delivery => delivery.op.seq))
    rw [first,List.append_assoc] at others
    simp only [ingestAll,List.map_append]
    exact others

theorem opsAfter_run (logged : Logged session log) (afterSeq : Nat) :
    ∃ first count, seqsOf (session.opsAfter afterSeq) = List.range' first count ∧ ∀ seq ∈ seqsOf (session.opsAfter afterSeq),
      seq ≤ log.length := by
  have run := map_seq_drop logged.seqs (max afterSeq (log.length - defaultMaxOps))
  rw [logged.opsAfter]
  refine ⟨_,_,run,?_⟩
  intro seq member
  have found : seq ∈ log.map OpEnvelope.seq := by
    rw [seqsOf,List.map_drop] at member
    exact List.mem_of_mem_drop member
  rw [logged.seqs,List.mem_range'_1] at found
  exact Nat.le_of_lt_succ (by rw [Nat.add_comm] at found; exact found.2)

theorem head_iff (run : seqsOf ops = List.range' first count) :
    (∀ op ∈ ops.head?, op.seq ≤ bound) ↔ count = 0 ∨ first ≤ bound := by
  cases ops with
  | nil =>
    have none : count = 0 := by simpa [seqsOf] using congrArg List.length run.symm
    exact iff_of_true (fun _ member => by cases member) (.inl none)
  | cons op rest =>
    cases count with
    | zero => cases run
    | succ count =>
      rw [List.range'_succ] at run
      have same : op.seq = first := (List.cons.inj run).1
      simp [same]

theorem follows_iff (run : seqsOf ops = List.range' first count) : Follows s ops ↔
    (∀ seq ∈ List.range' first count, seq ≤ s.client.latestSeq) ∨
      (s.client.latestSeq = reach s ∧ first ≤ s.client.latestSeq + 1) := by
  unfold Follows
  rw [run,head_iff run]
  constructor
  · rintro (old | ⟨level,none | near⟩)
    · exact .inl old
    · left
      rw [none]
      exact fun _ member => absurd member List.not_mem_nil
    · exact .inr ⟨level,near⟩
  · rintro (old | ⟨level,near⟩)
    · exact .inl old
    · exact .inr ⟨level,.inr near⟩

theorem awaited_iff : Awaited s known view ↔ ∀ seq, known < seq → seq ≤ view → seq ∈ s.answers := by
  constructor
  · intro awaited seq above below
    refine awaited seq (List.mem_range'_1.mpr ⟨above,?_⟩)
    omega
  · intro awaited seq member
    obtain ⟨above,below⟩ := List.mem_range'_1.mp member
    refine awaited seq above ?_
    omega

theorem mem_answered {answers : List Nat} (other : Nat) : other ∈ answered seq answers ↔ other ∈ answers ∧ other ≠ seq := by
  simp [answered]

-- What one event can do to the stream: bring a run of numbers and move the cursor, force
-- one number in, or change what is still to be answered. `orderly` is what it takes to
-- leave no gap.
inductive Moves (s : Feed) (orderly : Prop) (s' : Feed) : Prop where
  | reads (first count view : Nat)
      (moved : cursor s' = ((cursor s).takeAll (List.range' first count)).skipTo view)
      (brought : s'.received = s.received ++ List.range' first count) (waiting : s'.answers = s.answers)
      (inside : ∀ seq ∈ List.range' first count, seq ≤ s.server.log.length) (viewed : view ≤ s.server.log.length)
      (exact : orderly ↔ ((∀ seq ∈ List.range' first count, seq ≤ s.client.latestSeq) ∨
        (s.client.latestSeq = reach s ∧ first ≤ s.client.latestSeq + 1)) ∧
        ∀ seq, (List.range' first count).foldl max s.client.latestSeq < seq → seq ≤ view → seq ∈ s.answers)
  | answers (seq : Nat) (awaited : seq ∈ s.answers) (moved : cursor s' = (cursor s).force seq)
      (brought : s'.received = s.received ++ [seq]) (waiting : s'.answers = answered seq s.answers)
      (inside : seq ≤ s.server.log.length) (exact : orderly ↔ seq = reach s + 1)
  | loses (seq : Nat) (same : cursor s' = cursor s) (received : s'.received = s.received)
      (waiting : s'.answers = answered seq s.answers) (exact : orderly ↔ ¬(reach s < seq ∧ seq ≤ s.client.latestSeq))
  | posts (seq : Nat) (ahead : s.server.log.length < seq) (same : cursor s' = cursor s)
      (received : s'.received = s.received) (waiting : s'.answers = seq :: s.answers) (orderly : orderly)

structure Fed (s : Feed) : Prop where
  logged : Logged s.server.session s.server.log
  saved : ∀ t ∈ s.saved, Logged t.session t.log ∧ t.log.length ≤ s.server.log.length
  within : Cursor.Within s.joined (cursor s)
  high : s.client.latestSeq ≤ s.server.log.length
  received : ∀ seq ∈ s.received, seq ≤ s.client.latestSeq

theorem Moves.still (same : cursor s' = cursor s) (received : s'.received = s.received) (waiting : s'.answers = s.answers)
    (orderly : p) : Moves s p s' := by
  refine .reads 0 0 0 ?_ ?_ waiting (fun _ member => absurd member List.not_mem_nil) (Nat.zero_le _) ?_
  · rw [same]
    simp [Cursor.takeAll,Cursor.skipTo]
  · rw [received]
    simp
  · refine iff_of_true orderly ⟨.inl (fun _ member => absurd member List.not_mem_nil),?_⟩
    intro seq above below
    exact absurd above (Nat.not_lt.mpr (Nat.le_trans below (Nat.zero_le _)))

section
variable (fed : Fed s)
include fed

theorem Fed.view (found : s.saved[index]? = some t) : t.session.latestSeq ≤ s.server.log.length := by
  obtain ⟨logged,known⟩ := fed.saved t (List.mem_of_getElem? found)
  rw [logged.latestSeq]
  exact known

theorem broadcast_moves (found : s.server.log[position]? = some op) :
    Moves s (Follows s [op]) (hand s (handleServerMessage s.client (.op op (some op.seq))) [op.seq]) := by
  obtain ⟨seq,inside⟩ := fed.logged.seq_at found
  have known : op.seq ≤ s.server.log.length := by rw [seq]; exact inside
  have one : List.range' op.seq 1 = [op.seq] := rfl
  have moved : cursor (hand s (handleServerMessage s.client (.op op (some op.seq))) [op.seq]) =
      ((cursor s).take op.seq).skipTo op.seq :=
    congrArg (fun c => Cursor.skipTo c op.seq) (ingestOp_take s.client op s.delivered)
  refine .reads op.seq 1 op.seq moved rfl rfl (by simpa [one] using known) known ?_
  have run : seqsOf [op] = List.range' op.seq 1 := one.symm
  rw [follows_iff run]
  refine (and_iff_left ?_).symm
  intro seq above below
  have reached : op.seq ≤ max s.client.latestSeq op.seq := Nat.le_max_right _ _
  exact absurd above (Nat.not_lt.mpr (Nat.le_trans below reached))

theorem syncReply_moves (found : s.saved[early]? = some t) (later : s.saved[late]? = some t') :
    Moves s (Follows s (t.session.opsAfter afterSeq) ∧
        Awaited s ((seqsOf (t.session.opsAfter afterSeq)).foldl max s.client.latestSeq) t'.session.latestSeq)
      (hand s (handleServerMessage s.client (.ops (t.session.opsAfter afterSeq) (some t'.session.latestSeq)))
        (seqsOf (t.session.opsAfter afterSeq))) := by
  obtain ⟨logged,known⟩ := fed.saved t (List.mem_of_getElem? found)
  obtain ⟨first,count,run,inside⟩ := opsAfter_run logged afterSeq
  have taken := ingestAll_takeAll s.client (t.session.opsAfter afterSeq) s.delivered
  have skipped := congrArg (fun c => Cursor.skipTo c t'.session.latestSeq) taken
  rw [run] at inside skipped
  refine .reads first count t'.session.latestSeq skipped (by rw [← run]; rfl) rfl
    (fun seq member => Nat.le_trans (inside seq member) known) (fed.view later) ?_
  rw [follows_iff run,awaited_iff,run]

theorem pollOps_moves (found : s.saved[early]? = some t) :
    Moves s (Follows s (t.session.opsAfter afterSeq))
      (hand s (ingestAll s.client (t.session.opsAfter afterSeq)) (seqsOf (t.session.opsAfter afterSeq))) := by
  obtain ⟨logged,known⟩ := fed.saved t (List.mem_of_getElem? found)
  obtain ⟨first,count,run,inside⟩ := opsAfter_run logged afterSeq
  have taken := ingestAll_takeAll s.client (t.session.opsAfter afterSeq) s.delivered
  rw [run] at inside taken
  have still : ∀ c : Cursor, c.skipTo 0 = c := fun c => by rw [Cursor.skipTo,Nat.max_eq_left (Nat.zero_le _)]
  refine .reads first count 0 (by rw [still]; exact taken) (by rw [← run]; rfl) rfl
    (fun seq member => Nat.le_trans (inside seq member) known) (Nat.zero_le _) ?_
  rw [follows_iff run]
  refine (and_iff_left ?_).symm
  intro seq above below
  exact absurd above (Nat.not_lt.mpr (Nat.le_trans below (Nat.zero_le _)))

theorem view_moves (found : s.saved[index]? = some t) (received : s'.received = s.received)
    (waiting : s'.answers = s.answers) (moved : cursor s' = (cursor s).skipTo t.session.latestSeq) :
    Moves s (Awaited s s.client.latestSeq t.session.latestSeq) s' := by
  refine .reads 0 0 t.session.latestSeq moved (by rw [received]; simp) waiting
    (fun _ member => absurd member List.not_mem_nil) (fed.view found) ?_
  rw [awaited_iff]
  exact (and_iff_right (.inl (fun _ member => absurd member List.not_mem_nil))).symm

theorem answer_moves (found : s.server.log[position]? = some op) (awaited : op.seq ∈ s.answers) :
    Moves s (op.seq = reach s + 1) (hand {s with answers := answered op.seq s.answers}
      ((ingestOp s.client op true).1,(ingestOp s.client op true).2.toList) [op.seq]) := by
  obtain ⟨seq,inside⟩ := fed.logged.seq_at found
  exact .answers op.seq awaited (ingestOp_force s.client op s.delivered) rfl rfl (by rw [seq]; exact inside) Iff.rfl

end

theorem post_ahead (logged : Logged t.session t.log) (own : isOwn posted c.call = true) (fired : Timeline.step t c = some t') :
    t.log.length < t'.session.latestSeq := by
  have latest := (Timeline.step_logged logged fired).latestSeq
  cases call : c.call with
  | join kind fileId userId displayName seed => rw [call] at own; cases own
  | heartbeat sessionId userId presence => rw [call] at own; cases own
  | submitOp sessionId userId baseSeq opType payload clientOpId =>
    obtain ⟨op,next,_,rfl⟩ := Timeline.step_submits fired call
    rw [latest,List.length_append]
    exact Nat.lt_succ_self _

theorem forall_found {α : Type} {o : Option α} {x : α} {p : α → Prop} (found : o = some x) : (∀ y ∈ o, p y) ↔ p x := by
  subst found
  simp

-- At the server at most one call is committed.
inductive Serves (s s' : Feed) : Prop where
  | still (server : s'.server = s.server) (saved : s'.saved = s.saved)
  | commits (c : Commit) (ran : Timeline.step s.server c = some s'.server) (saved : s'.saved = s.saved ++ [s'.server])

theorem step_moves (fed : Fed s) (fired : step s event = some s') :
    Moves s (Orderly s event) s' ∧ s'.joined = s.joined ∧ Serves s s' := by
  cases event with
  | commit c =>
    obtain ⟨server,ran,rfl⟩ := map_eq_some_iff.mp fired
    exact ⟨.still rfl rfl rfl trivial,rfl,.commits c ran rfl⟩
  | submit opType payload clientOpId =>
    cases fired
    exact ⟨.still rfl rfl rfl trivial,rfl,.still rfl rfl⟩
  | post c =>
    simp only [step] at fired
    split at fired
    · rename_i own
      obtain ⟨server,ran,rfl⟩ := map_eq_some_iff.mp fired
      exact ⟨.posts _ (post_ahead fed.logged own ran) rfl rfl rfl trivial,rfl,.commits c ran rfl⟩
    · cases fired
  | broadcast position =>
    simp only [step] at fired
    split at fired
    · rename_i op found
      cases fired
      rw [Orderly,forall_found found]
      exact ⟨broadcast_moves fed found,rfl,.still rfl rfl⟩
    · cases fired
  | syncReply afterSeq early late =>
    simp only [step] at fired
    split at fired
    · rename_i t t' found later
      split at fired
      · cases fired
        rw [Orderly,forall_found found,forall_found later]
        exact ⟨syncReply_moves fed found later,rfl,.still rfl rfl⟩
      · cases fired
    · cases fired
  | pollOps afterSeq early =>
    simp only [step] at fired
    split at fired
    · rename_i t found
      cases fired
      rw [Orderly,forall_found found]
      exact ⟨pollOps_moves fed found,rfl,.still rfl rfl⟩
    · cases fired
  | presence index =>
    simp only [step] at fired
    split at fired
    · rename_i t found
      cases fired
      rw [Orderly,forall_found found]
      refine ⟨view_moves fed found (List.append_nil _) rfl ?_,rfl,.still rfl rfl⟩
      simp [cursor,hand,handleServerMessage,applySessionOf,applySession,Cursor.skipTo]
    · cases fired
  | pollSession index =>
    simp only [step] at fired
    split at fired
    · rename_i t found
      cases fired
      rw [Orderly,forall_found found]
      exact ⟨view_moves fed found rfl rfl rfl,rfl,.still rfl rfl⟩
    · cases fired
  | answer position =>
    simp only [step] at fired
    split at fired
    · rename_i op found
      split at fired
      · rename_i awaited
        cases fired
        rw [Orderly,forall_found found]
        exact ⟨answer_moves fed found awaited,rfl,.still rfl rfl⟩
      · cases fired
    · cases fired
  | answerLost seq clientOpId =>
    simp only [step] at fired
    split at fired
    · cases fired
      exact ⟨.loses seq rfl rfl rfl Iff.rfl,rfl,.still rfl rfl⟩
    · cases fired
  | postRefused clientOpId =>
    cases fired
    exact ⟨.still rfl rfl rfl trivial,rfl,.still rfl rfl⟩
  | error clientOpId code =>
    cases fired
    refine ⟨.still ?_ (List.append_nil _) rfl trivial,rfl,.still rfl rfl⟩
    simp [cursor,hand,handleServerMessage,clearPending_latestSeq]

theorem Serves.saved (serves : Serves s s') (fed : Fed s) :
    Logged s'.server.session s'.server.log ∧ s.server.log.length ≤ s'.server.log.length ∧
      ∀ t ∈ s'.saved, Logged t.session t.log ∧ t.log.length ≤ s'.server.log.length := by
  cases serves with
  | still server saved =>
    rw [server,saved]
    exact ⟨fed.logged,Nat.le_refl _,fed.saved⟩
  | commits c ran saved =>
    have logged := Timeline.step_logged fed.logged ran
    have grown : s.server.log.length ≤ s'.server.log.length := by
      obtain ⟨_,added,next,_,after⟩ := Timeline.step_exact ran
      rw [after,List.length_append]
      exact Nat.le_add_right _ _
    refine ⟨logged,grown,?_⟩
    rw [saved]
    intro t member
    rcases List.mem_append.mp member with old | new
    · exact ⟨(fed.saved t old).1,Nat.le_trans (fed.saved t old).2 grown⟩
    · cases List.mem_singleton.mp new
      exact ⟨logged,Nat.le_refl _⟩

theorem Moves.bounds (moves : Moves s orderly s') (fed : Fed s) : Cursor.Within s.joined (cursor s') ∧
    s'.client.latestSeq ≤ s.server.log.length ∧ ∀ seq ∈ s'.received, seq ≤ s'.client.latestSeq := by
  have unmoved : cursor s' = cursor s → s'.received = s.received → Cursor.Within s.joined (cursor s') ∧
      s'.client.latestSeq ≤ s.server.log.length ∧ ∀ seq ∈ s'.received, seq ≤ s'.client.latestSeq := by
    intro same received
    have latest : s'.client.latestSeq = s.client.latestSeq := congrArg Cursor.latest same
    rw [same,received,latest]
    exact ⟨fed.within,fed.high,fed.received⟩
  cases moves with
  | reads first count view moved brought waiting inside viewed exact =>
    have latest : s'.client.latestSeq = max ((cursor s).takeAll (List.range' first count)).latest view :=
      congrArg Cursor.latest moved
    obtain ⟨most,above,members⟩ := Cursor.takeAll_bounds (c := cursor s) fed.high inside
    rw [moved,latest,brought]
    refine ⟨(fed.within.takeAll _).skipTo _,Nat.max_le.mpr ⟨most,viewed⟩,?_⟩
    intro seq member
    refine Nat.le_trans ?_ (Nat.le_max_left _ _)
    rcases List.mem_append.mp member with old | new
    · exact Nat.le_trans (fed.received seq old) above
    · exact members seq new
  | answers seq awaited moved brought waiting inside exact =>
    have latest : s'.client.latestSeq = max s.client.latestSeq seq := congrArg Cursor.latest moved
    rw [moved,latest,brought]
    refine ⟨fed.within.force seq,Nat.max_le.mpr ⟨fed.high,inside⟩,?_⟩
    intro other member
    rcases List.mem_append.mp member with old | new
    · exact Nat.le_trans (fed.received other old) (Nat.le_max_left _ _)
    · cases List.mem_singleton.mp new
      exact Nat.le_max_right _ _
  | loses seq same received waiting exact => exact unmoved same received
  | posts seq ahead same received waiting orderly => exact unmoved same received

theorem step_fed (fed : Fed s) (fired : step s event = some s') : Fed s' := by
  obtain ⟨moves,joined,serves⟩ := step_moves fed fired
  obtain ⟨logged,grown,saved⟩ := serves.saved fed
  obtain ⟨within,high,received⟩ := moves.bounds fed
  rw [← joined] at within
  exact ⟨logged,saved,within,Nat.le_trans high grown,received⟩

theorem step_gap_free_iff (fed : Fed s) (fired : step s event = some s') : GapFree s' ↔ GapFree s ∧ Orderly s event := by
  obtain ⟨moves,joined,_⟩ := step_moves fed fired
  unfold GapFree
  rw [joined]
  cases moves with
  | reads first count view moved brought waiting inside viewed exact =>
    rw [moved,exact,waiting]
    exact Cursor.takeAll_skipTo_owing_iff fed.within
  | answers seq awaited moved brought waiting inside exact =>
    rw [moved,exact,waiting]
    exact Cursor.force_owing_iff awaited mem_answered
  | loses seq same received waiting exact =>
    rw [same,exact,waiting]
    exact Cursor.lost_owing_iff mem_answered
  | posts seq ahead same received waiting orderly =>
    rw [same,waiting]
    refine (Cursor.due_owing_iff (Nat.lt_of_le_of_lt fed.high ahead) (fun _ => List.mem_cons)).trans ?_
    exact (and_iff_left orderly).symm

theorem run_gap_free_iff (fed : Fed s) (ran : Schedule.run step s events = some final) :
    Fed final ∧ (GapFree final ↔ GapFree s ∧ Schedule.Along step Orderly s events) := by
  induction events generalizing s with
  | nil =>
    cases Schedule.run_nil ran
    exact ⟨fed,(and_iff_left trivial).symm⟩
  | cons event rest ih =>
    obtain ⟨next,fired,ran⟩ := Schedule.run_cons ran
    obtain ⟨last,whole⟩ := ih (step_fed fed fired) ran
    refine ⟨last,?_⟩
    rw [whole,step_gap_free_iff fed fired]
    constructor
    · rintro ⟨⟨held,orderly⟩,later⟩
      refine ⟨held,orderly,?_⟩
      intro other same
      rw [fired] at same
      cases same
      exact later
    · rintro ⟨held,orderly,later⟩
      exact ⟨⟨held,orderly⟩,later next fired⟩

theorem start_fed (reached : Reached now sessionId kind fileId seed t) (joined : client.latestSeq = t.session.latestSeq) :
    Fed (start t client) ∧ GapFree (start t client) := by
  have logged := reached_logged reached
  refine ⟨⟨logged,?_,⟨Nat.le_refl _,fun _ member => absurd member List.not_mem_nil⟩,Nat.le_of_eq (joined.trans logged.latestSeq),
    fun _ member => absurd member List.not_mem_nil⟩,⟨rfl,?_⟩⟩
  · intro other member
    cases List.mem_singleton.mp member
    exact ⟨logged,Nat.le_refl _⟩
  · intro seq above below
    exact absurd below (Nat.not_le.mpr above)

-- What was handed on is a run from the join without a gap exactly when the messages were
-- orderly; once every op was brought by some message and every committed post was answered
-- or given up, this says that the editor got all of them, once and in order.
theorem gap_free_iff (reached : Reached now sessionId kind fileId seed t) (joined : client.latestSeq = t.session.latestSeq)
    (ran : Schedule.run step (start t client) events = some s) :
    (GapFree s ↔ Schedule.Along step Orderly (start t client) events) ∧
    ((∀ seq, s.joined < seq → seq ≤ s.server.log.length → seq ∈ s.received) → s.answers = [] →
      (s.delivered = List.range' (s.joined + 1) (s.server.log.length - s.joined) ↔
        Schedule.Along step Orderly (start t client) events)) := by
  obtain ⟨fed,held⟩ := start_fed reached joined
  obtain ⟨last,whole⟩ := run_gap_free_iff fed ran
  rw [and_iff_right held] at whole
  refine ⟨whole,?_⟩
  intro all none
  rw [← whole]
  have known : s.client.latestSeq = s.server.log.length := by
    refine Nat.le_antisymm last.high ?_
    by_contra behind
    have low : s.joined ≤ s.client.latestSeq := last.within.low
    have newest := all s.server.log.length (Nat.lt_of_le_of_lt low (Nat.lt_of_not_le behind)) (Nat.le_refl _)
    exact behind (last.received _ newest)
  rw [← known]
  refine (Cursor.owing_nothing_iff last.within ?_).symm
  intro seq awaited
  rw [none] at awaited
  exact absurd awaited List.not_mem_nil

def typed (userId : String) (baseSeq : Nat) (op : Replace) (clientOpId : String) : Commit :=
  ⟨[],0,"op",callOf "s" userId ⟨baseSeq,.replace,replaceToPayload op,clientOpId⟩,0⟩

def ann : CollabClient := (editorOf "ann" []).client

def told (s : Feed) : Nat × Nat × List Nat × List Nat := (s.joined,s.server.log.length,s.received,s.delivered)

def inOrder : List Event :=
  [.commit (typed "bob" 0 ⟨0,0,['x']⟩ "b1"),.broadcast 0,.submit .replace (replaceToPayload ⟨1,0,['y']⟩) "a1",
   .post (typed "ann" 1 ⟨1,0,['y']⟩ "a1"),.presence 2,.answer 1,.broadcast 1]

theorem gap_free_iff_in_order : ∃ s, Schedule.run step (start bothJoined ann) inOrder = some s ∧ GapFree s ∧
    s.delivered = [1,2] := by
  obtain ⟨s,ran⟩ := isSome_iff_exists.mp (by decide :
    (Schedule.run step (start bothJoined ann) inOrder).isSome = true)
  have last : (Schedule.run step (start bothJoined ann) inOrder).map (fun s => (s.answers,told s)) =
      some ([],0,2,[1,2,2],[1,2]) := by decide
  rw [ran] at last
  obtain ⟨none,last⟩ := Prod.mk.inj (Option.some.inj last)
  obtain ⟨joined,last⟩ := Prod.mk.inj last
  obtain ⟨count,last⟩ := Prod.mk.inj last
  obtain ⟨received,_⟩ := Prod.mk.inj last
  have orderly : Schedule.Along step Orderly (start bothJoined ann) inOrder := by decide
  obtain ⟨free,all⟩ := gap_free_iff bothJoined_reached rfl ran
  rw [joined,count,received] at all
  refine ⟨s,ran,free.mpr orderly,(all ?_ none).mpr orderly⟩
  intro seq low high
  have either : seq = 1 ∨ seq = 2 := by omega
  rcases either with rfl | rfl
  · exact List.mem_cons_self
  · exact List.mem_cons_of_mem _ List.mem_cons_self

theorem stream_gaps :
    (Schedule.run step (start bothJoined ann) [.commit (typed "bob" 0 ⟨0,0,['x']⟩ "b1"),.presence 1,.broadcast 0,
      .commit (typed "bob" 1 ⟨0,0,['y']⟩ "b2"),.broadcast 1]).map told = some (0,2,[1,2],[2]) ∧
    (Schedule.run step (start bothJoined ann) [.submit .replace (replaceToPayload ⟨0,0,['x']⟩) "a1",
      .post (typed "ann" 0 ⟨0,0,['x']⟩ "a1"),.pollOps 0 1,.answer 0]).map told = some (0,1,[1,1],[1,1]) := by
  constructor
  · decide
  · decide

end Ownly.Collab.Delivery
