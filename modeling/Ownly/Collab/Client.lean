import Ownly.Collab.Timeline

-- frontend/src/lib/collab/client.ts and its ot/text.ts.
namespace Ownly.Collab.Client

-- The client's TextReplace. Its numbers are offsets into a text, and never negative.
abbrev Replace := Splice Char

def applyReplace (text : Text) (op : Replace) : Text :=
  let len := text.length
  let index := min op.index len
  let stop := min (index + op.delete) len
  text.take index ++ op.insert ++ text.drop stop

def transformReplace (op against : Replace) : Replace :=
  let aIdx := op.index
  let aDel := op.delete
  let aEnd := aIdx + aDel
  let bIdx := against.index
  let bDel := against.delete
  let bEnd := bIdx + bDel
  let bIns := against.insert.length
  if bEnd ≤ aIdx then ⟨aIdx - bDel + bIns,op.delete,op.insert⟩
  else if aEnd ≤ bIdx then ⟨op.index,op.delete,op.insert⟩
  else if bIdx ≤ aIdx then
    let overlap := min aEnd bEnd - aIdx
    ⟨bIdx + bIns,aDel - overlap,op.insert⟩
  else
    let before := bIdx - aIdx
    let after := aEnd - bEnd
    ⟨op.index,before + after,op.insert⟩

-- `Number(…)` on what a payload may hold. Anything that is not a plain count reads as
-- NaN here: no editor and no server puts it into a replace. Counts stay below 2^53,
-- where a number of the client is exact.
def numberOf : Option Value → Option Nat
  | some (.number (.posInt n)) => some n.toNat
  | some (.bool b) => some b.toNat
  | some .null => some 0
  | _ => none

def parseReplacePayload (payload : Value) : Option Replace :=
  let index := numberOf (payload.get "index")
  let del := match payload.get "delete" with
    | some value => numberOf (some value)
    | none => some 0
  let insert := ((payload.get "insert").bind Value.asStr).getD []
  match index,del with
  | some index,some del => if del = 0 ∧ insert = [] then none else some ⟨index,del,insert⟩
  | _,_ => none

def replaceToPayload (op : Replace) : Value :=
  .object [("index",.ofU64 (.ofNat op.index)),("delete",.ofU64 (.ofNat op.delete)),("insert",.string op.insert)]

structure PendingOp where
  clientOpId : String
  baseSeq : Nat
  opType : OpType
  payload : Value
  inFlight : Bool

structure CollabClient where
  localUserId : Option String
  latestSeq : Nat
  pendingOps : List PendingOp

structure ClientOp where
  baseSeq : Nat
  opType : OpType
  payload : Value
  clientOpId : String

def bodyOf (pending : PendingOp) : ClientOp := ⟨pending.baseSeq,pending.opType,pending.payload,pending.clientOpId⟩

-- The op is pending and in flight whether a socket took it or a post was started.
def submitOp (client : CollabClient) (opType : OpType) (payload : Value) (clientOpId : String) : CollabClient × ClientOp :=
  let pending : PendingOp := ⟨clientOpId,client.latestSeq,opType,payload,true⟩
  ({client with pendingOps := client.pendingOps ++ [pending]},bodyOf pending)

-- `onopen`: what is not in flight goes out again, on top of what the client has seen;
-- the sends of `fails` throw.
def resubmit (latestSeq : Nat) (fails : List String) : List PendingOp → List PendingOp × List ClientOp
  | [] => ([],[])
  | pending :: rest =>
    let (others,sent) := resubmit latestSeq fails rest
    if pending.inFlight then (pending :: others,sent)
    else
      let pending := {pending with baseSeq := latestSeq}
      if fails.contains pending.clientOpId then (pending :: others,sent)
      else ({pending with inFlight := true} :: others,bodyOf pending :: sent)

def onopen (client : CollabClient) (fails : List String) : CollabClient × List ClientOp :=
  let (pendingOps,sent) := resubmit client.latestSeq fails client.pendingOps
  ({client with pendingOps := pendingOps},sent)

-- The catch of `postOpHttp`: the op is kept for the next `onopen`.
def postFailed (client : CollabClient) (clientOpId : String) : CollabClient :=
  let retry := fun pending : PendingOp => if pending.clientOpId = clientOpId then {pending with inFlight := false} else pending
  {client with pendingOps := client.pendingOps.map retry}

-- Of a session view only its latest seq reaches the op stream.
def applySession (client : CollabClient) (latestSeq : Nat) : CollabClient :=
  {client with latestSeq := max client.latestSeq latestSeq}

def isPending (client : CollabClient) (clientOpId : String) : Bool :=
  client.pendingOps.any (fun p => p.clientOpId = clientOpId)

def clearPending (client : CollabClient) (clientOpId : Option String) : CollabClient :=
  match clientOpId with
  | some clientOpId => {client with pendingOps := client.pendingOps.filter (fun p => p.clientOpId ≠ clientOpId)}
  | none => client

def pendingReplaces (client : CollabClient) : List Replace :=
  client.pendingOps.filterMap (fun p => if p.opType = .replace then parseReplacePayload p.payload else none)

def rebaseRemoteAgainstPending (client : CollabClient) (op : OpEnvelope) : OpEnvelope :=
  if op.opType ≠ .replace then op
  else match parseReplacePayload op.payload with
    | none => op
    | some remote => {op with payload := replaceToPayload ((pendingReplaces client).foldl transformReplace remote)}

def rebasePending (remote : Replace) (seq : Nat) (pending : PendingOp) : PendingOp :=
  if pending.opType ≠ .replace then pending
  else match parseReplacePayload pending.payload with
    | none => pending
    | some own =>
      let moved := {pending with payload := replaceToPayload (transformReplace own remote)}
      if moved.inFlight then moved else {moved with baseSeq := max moved.baseSeq seq}

def rebasePendingThroughRemote (client : CollabClient) (op : OpEnvelope) : CollabClient :=
  if op.opType ≠ .replace then client
  else match parseReplacePayload op.payload with
    | none => client
    | some remote => {client with pendingOps := client.pendingOps.map (rebasePending remote op.seq)}

structure Delivery where
  op : OpEnvelope
  isLocalEcho : Bool

def isLocal (client : CollabClient) (op : OpEnvelope) : Bool :=
  decide (client.localUserId = some op.userId) ||
    match op.clientOpId with
    | some clientOpId => isPending client clientOpId
    | none => false

def ingestOp (client : CollabClient) (op : OpEnvelope) (fromAck : Bool) : CollabClient × Option Delivery :=
  if op.seq ≤ client.latestSeq ∧ fromAck = false then (client,none)
  else
    let mine := isLocal client op
    let client := clearPending client op.clientOpId
    if !mine && !fromAck then
      let delivery := rebaseRemoteAgainstPending client op
      let client := rebasePendingThroughRemote client op
      ({client with latestSeq := max client.latestSeq op.seq},some ⟨delivery,mine || fromAck⟩)
    else ({client with latestSeq := max client.latestSeq op.seq},some ⟨op,mine || fromAck⟩)

def ingestAll (client : CollabClient) : List OpEnvelope → CollabClient × List Delivery
  | [] => (client,[])
  | op :: rest =>
    let (client,delivered) := ingestOp client op false
    let (client,others) := ingestAll client rest
    (client,delivered.toList ++ others)

-- What the hub sends, each with the fields `handleServerMessage` reads. The session of
-- a message stands for its latest seq.
inductive ServerMessage where
  | hello
  | ack (seq : Nat) (clientOpId : Option String) (op : Option OpEnvelope)
  | op (op : OpEnvelope) (session : Option Nat)
  | ops (ops : List OpEnvelope) (session : Option Nat)
  | presence (session : Option Nat)
  | error (clientOpId : Option String) (code : Option String)

def applySessionOf (client : CollabClient) : Option Nat → CollabClient
  | some latestSeq => applySession client latestSeq
  | none => client

def handleServerMessage (client : CollabClient) : ServerMessage → CollabClient × List Delivery
  | .hello => (client,[])
  | .ack seq clientOpId op =>
    let client := {client with latestSeq := max client.latestSeq seq}
    let wasMine := match clientOpId with
      | some clientOpId => isPending client clientOpId
      | none => false
    let client := clearPending client clientOpId
    match op with
    | some op =>
      let (client,delivered) := ingestOp client op wasMine
      (client,delivered.toList)
    | none => (client,[])
  | .op op session =>
    let (client,delivered) := ingestOp client op false
    (applySessionOf client session,delivered.toList)
  | .ops ops session =>
    let (client,delivered) := ingestAll client ops
    (applySessionOf client session,delivered)
  | .presence session => (applySessionOf client session,[])
  | .error clientOpId _ => (clearPending client clientOpId,[])

def handleRemoteOp (text : Text) (delivery : Delivery) : Text :=
  if delivery.isLocalEcho then text
  else match delivery.op.opType with
    | .replace => match parseReplacePayload delivery.op.payload with
      | some replace => applyReplace text replace
      | none => text
    | _ => text

-- A client with the text its editor shows. What is typed is in the text at once.
structure Editor where
  client : CollabClient
  text : Text

def Editor.type (editor : Editor) (op : Replace) (clientOpId : String) : Editor × ClientOp :=
  let (client,body) := submitOp editor.client .replace (replaceToPayload op) clientOpId
  (⟨client,applyReplace editor.text op⟩,body)

def Editor.ingest (editor : Editor) (op : OpEnvelope) (fromAck : Bool) : Editor :=
  let (client,delivered) := ingestOp editor.client op fromAck
  ⟨client,delivered.toList.foldl handleRemoteOp editor.text⟩

def callOf (sessionId userId : String) (body : ClientOp) : Call :=
  .submitOp sessionId userId body.baseSeq body.opType body.payload (some body.clientOpId)

theorem transformReplace_exact (op against : Replace) : transformReplace op against = op.transform against := by
  have unfolded : transformReplace op against =
      if against.stop ≤ op.index then {op with index := op.index - against.delete + against.insert.length}
      else if op.stop ≤ against.index then op
      else if against.index ≤ op.index then
        ⟨against.index + against.insert.length,op.delete - (min op.stop against.stop - op.index),op.insert⟩
      else {op with delete := (against.index - op.index) + (op.stop - against.stop)} := rfl
  rw [unfolded,Splice.transform]
  by_cases left : against.stop ≤ op.index
  · rw [if_pos left,if_pos left]
  rw [if_neg left,if_neg left]
  by_cases right : op.stop ≤ against.index
  · rw [if_pos right,if_pos right]
  rw [if_neg right,if_neg right]
  by_cases into : against.index ≤ op.index
  · have rest : op.delete - (min op.stop against.stop - op.index) = op.stop - against.stop := by
      unfold Splice.stop at *
      omega
    rw [if_pos into,if_pos into,rest]
  · rw [if_neg into,if_neg into]

theorem applyReplace_exact (text : Text) (op : Replace) : applyReplace text op = op.apply text := by
  simp only [applyReplace,Splice.apply,Splice.stop]
  have stop : min (min op.index text.length + op.delete) text.length = min (op.index + op.delete) text.length := by omega
  rw [stop,← List.take_eq_take_min,← List.drop_eq_drop_min]

def wire (op : Replace) : TextReplace := ⟨.ofNat op.index,.ofNat op.delete,op.insert⟩

-- A JavaScript string has at most 2^53 - 1 elements.
def IsString (text : Text) : Prop := text.length < 2^53

instance (text : Text) : Decidable (IsString text) := inferInstanceAs (Decidable (_ < _))

structure Sendable (op : Replace) : Prop where
  stop : op.stop < 2^62
  insert : IsString op.insert

theorem wire_splice (sendable : Sendable op) : (wire op).splice = op := by
  obtain ⟨stop,_⟩ := sendable
  have bound : op.index + op.delete < 2^62 := stop
  have index : (wire op).index.toNat = op.index := MachineInt.toNat_ofNat op.index (by omega)
  have delete : (wire op).delete.toNat = op.delete := MachineInt.toNat_ofNat op.delete (by omega)
  rw [TextReplace.splice,index,delete]
  rfl

theorem wire_fits (sendable : Sendable op) : (wire op).Fits := by
  have same := wire_splice sendable
  obtain ⟨stop,insert⟩ := sendable
  refine ⟨?_,?_⟩
  · have span : (wire op).splice.stop < 2^62 := by rw [same]; exact stop
    exact span
  · exact Nat.lt_trans insert (by decide)

theorem wire_of_splice (same : replace.splice = op) (sendable : Sendable op) : replace = wire op :=
  TextReplace.splice_injective (same.trans (wire_splice sendable).symm)

def IsNoop (op : Replace) : Prop := op.delete = 0 ∧ op.insert = []

instance (op : Replace) : Decidable (IsNoop op) := inferInstanceAs (Decidable (_ ∧ _))

theorem noop_iff (sendable : Sendable op) : ((wire op).delete = 0 ∧ (wire op).insert = []) ↔ IsNoop op := by
  have delete : (wire op).delete.toNat = op.delete := congrArg Splice.delete (wire_splice sendable)
  have zero : (wire op).delete = 0 ↔ op.delete = 0 := by
    rw [← delete,← UInt64.toNat_inj]
    rfl
  exact and_congr_left' zero

theorem replaceToPayload_wire (op : Replace) : replaceToPayload op = Document.replacePayload (wire op) := rfl

theorem parsed_by_server (sendable : Sendable op) (real : ¬IsNoop op) :
    Document.parseReplace (replaceToPayload op) = .ok (wire op) :=
  Document.parseReplace_replacePayload (wire op) (fun empty => real ((noop_iff sendable).mp empty))

theorem parsed_by_client (sendable : Sendable op) :
    parseReplacePayload (replaceToPayload op) = if IsNoop op then none else some op := by
  have same := wire_splice sendable
  have index : (UInt64.ofNat op.index).toNat = op.index := congrArg Splice.index same
  have delete : (UInt64.ofNat op.delete).toNat = op.delete := congrArg Splice.delete same
  simp only [parseReplacePayload,replaceToPayload,Value.get_object,Fields.get,List.find?,Option.map,Option.bind,
    decide_true,String.reduceEq,decide_false,Value.ofU64,numberOf,Value.asStr_string,Option.getD,index,delete,IsNoop]
  rfl

theorem sendable_inside (string : text.length < 2^62) (insert : IsString op.insert) (inside : Splice.InBounds text op) :
    Sendable op := ⟨Nat.lt_of_le_of_lt inside string,insert⟩

theorem clampReplace_pulled (sendable : Sendable op) (string : text.length < 2^62)
    (inside : min op.index text.length + op.delete ≤ text.length) :
    Document.clampReplace text (wire op) = wire {op with index := min op.index text.length} := by
  obtain ⟨stop,insert⟩ := sendable
  have bound : op.index + op.delete < 2^62 := stop
  have len := MachineInt.toNat_ofNat text.length (by omega)
  have index : (UInt64.ofNat op.index).toNat = op.index := MachineInt.toNat_ofNat op.index (by omega)
  have delete : (UInt64.ofNat op.delete).toNat = op.delete := MachineInt.toNat_ofNat op.delete (by omega)
  have start : (if UInt64.ofNat text.length < UInt64.ofNat op.index then UInt64.ofNat text.length
      else UInt64.ofNat op.index) = UInt64.ofNat (min op.index text.length) := by
    by_cases past : UInt64.ofNat text.length < UInt64.ofNat op.index
    · rw [if_pos past]
      rw [UInt64.lt_iff_toNat_lt,len,index] at past
      rw [Nat.min_eq_right (Nat.le_of_lt past)]
    · rw [if_neg past]
      rw [UInt64.lt_iff_toNat_lt,len,index] at past
      rw [Nat.min_eq_left (Nat.le_of_not_lt past)]
  have least : (UInt64.ofNat (min op.index text.length)).toNat = min op.index text.length :=
    MachineInt.toNat_ofNat _ (by omega)
  have sum := MachineInt.toNat_add (UInt64.ofNat (min op.index text.length)) (UInt64.ofNat op.delete)
    (by rw [least,delete]; omega)
  have whole : ¬UInt64.ofNat text.length < UInt64.ofNat (min op.index text.length) + UInt64.ofNat op.delete := by
    rw [UInt64.lt_iff_toNat_lt,len,sum,least,delete]
    exact Nat.not_lt.mpr inside
  have unfolded : Document.clampReplace text (wire op) =
      let index := if UInt64.ofNat text.length < UInt64.ofNat op.index then UInt64.ofNat text.length else UInt64.ofNat op.index
      ⟨index,if UInt64.ofNat text.length < index + UInt64.ofNat op.delete then UInt64.ofNat text.length - index
        else UInt64.ofNat op.delete,op.insert⟩ := rfl
  rw [unfolded,start]
  simp only [if_neg whole]
  rfl

theorem clampReplace_wire (sendable : Sendable op) (string : text.length < 2^62) (inside : Splice.InBounds text op) :
    Document.clampReplace text (wire op) = wire op := by
  have bound : op.index + op.delete ≤ text.length := inside
  have still : min op.index text.length = op.index := Nat.min_eq_left (by omega)
  rw [clampReplace_pulled sendable string (by rw [still]; exact bound),still]

theorem applyReplace_wire (sendable : Sendable op) (string : text.length < 2^62) :
    Collab.applyReplace text (wire op) = op.apply text := by
  rw [applyReplace_splice text (wire op) (wire_fits sendable) (by omega),wire_splice sendable]

theorem transformReplace_wire (ha : Sendable op) (hb : Sendable against) (moved : Sendable (op.transform against)) :
    Collab.transformReplace (wire op) (wire against) = wire (op.transform against) := by
  refine wire_of_splice ?_ moved
  rw [transformReplace_splice (wire_fits ha) (wire_fits hb),wire_splice ha,wire_splice hb]

structure Carries (op : OpEnvelope) (seq : Nat) (userId clientOpId : String) (replace : TextReplace) : Prop where
  seq : op.seq = seq
  user : op.userId = userId
  kind : op.opType = .replace
  payload : op.payload = Document.replacePayload replace
  mine : op.clientOpId = some clientOpId

theorem step_sends (fired : Timeline.step t c = some t') (document : t.session.roomKind = .document)
    (call : c.call = callOf sessionId userId ⟨baseSeq,.replace,replaceToPayload sent,clientOpId⟩)
    (sendable : Sendable sent) : ¬IsNoop sent ∧ ∃ op moved, moved = Document.clampReplace
        (Document.textOf t.session.snapshot) (transformReplaceThrough (wire sent)
        ((t.session.opsAfter baseSeq).filterMap Document.replaceFromOp)) ∧
      ¬(moved.delete = 0 ∧ moved.insert = []) ∧ Carries op t.session.nextSeq userId clientOpId moved ∧
      t'.log = t.log ++ [op] ∧
      Document.textOf t'.session.snapshot = Collab.applyReplace (Document.textOf t.session.snapshot) moved := by
  obtain ⟨op,submitted,moved,parsed,through,real,replaced⟩ := Timeline.step_replace fired document call
  by_cases noop : IsNoop sent
  · rw [replaceToPayload_wire,Document.parseReplace_empty ((noop_iff sendable).mpr noop)] at parsed
    cases parsed
  · rw [parsed_by_server sendable noop] at parsed
    cases parsed
    obtain ⟨opId,now,rfl⟩ := replaced.envelope
    exact ⟨noop,_,moved,through,real,⟨rfl,rfl,rfl,rfl,rfl⟩,replaced.log,replaced.text⟩

theorem replaceFromOp_carries (carries : Carries op seq userId clientOpId moved)
    (real : ¬(moved.delete = 0 ∧ moved.insert = [])) : Document.replaceFromOp op = some moved :=
  Document.replaceFromOp_some.mpr ⟨carries.kind,by rw [carries.payload,Document.parseReplace_replacePayload moved real]⟩

theorem handleRemoteOp_replace (kind : op.opType = .replace) (payload : op.payload = replaceToPayload remote)
    (sendable : Sendable remote) : handleRemoteOp text ⟨op,false⟩ = remote.apply text := by
  simp only [handleRemoteOp,kind,payload,parsed_by_client sendable,Bool.false_eq_true,if_false]
  by_cases noop : IsNoop remote
  · rw [if_pos noop,Splice.apply,noop.2,Splice.stop,noop.1]
    simp
  · rw [if_neg noop]
    exact applyReplace_exact text remote

section
variable (client : CollabClient)
include client

theorem clearPending_user (clientOpId : Option String) :
    (clearPending client clientOpId).localUserId = client.localUserId := by
  cases clientOpId with
  | none => rfl
  | some clientOpId => rfl

theorem rebasePending_user (op : OpEnvelope) :
    (rebasePendingThroughRemote client op).localUserId = client.localUserId := by
  unfold rebasePendingThroughRemote
  split
  · rfl
  · split
    · rfl
    · rfl

theorem ingestOp_user (op : OpEnvelope) (fromAck : Bool) :
    (ingestOp client op fromAck).1.localUserId = client.localUserId := by
  unfold ingestOp
  split
  · rfl
  · dsimp only
    split
    · exact (rebasePending_user _ op).trans (clearPending_user client op.clientOpId)
    · exact clearPending_user client op.clientOpId

theorem clearPending_latestSeq (clientOpId : Option String) :
    (clearPending client clientOpId).latestSeq = client.latestSeq := by
  cases clientOpId with
  | none => rfl
  | some clientOpId => rfl

theorem rebasePending_latestSeq (op : OpEnvelope) :
    (rebasePendingThroughRemote client op).latestSeq = client.latestSeq := by
  unfold rebasePendingThroughRemote
  split
  · rfl
  · split
    · rfl
    · rfl

theorem ingestOp_latestSeq (op : OpEnvelope) (fromAck : Bool) :
    (ingestOp client op fromAck).1.latestSeq = max client.latestSeq op.seq := by
  unfold ingestOp
  split
  · rename_i old
    exact (Nat.max_eq_left old.1).symm
  · dsimp only
    split
    · rw [rebasePending_latestSeq,clearPending_latestSeq]
    · rw [clearPending_latestSeq]

theorem ingestOp_seq (op : OpEnvelope) (fromAck : Bool)
    (taken : ¬(op.seq ≤ client.latestSeq ∧ fromAck = false)) :
    (ingestOp client op fromAck).2.toList.map (fun delivery => delivery.op.seq) = [op.seq] := by
  have rebased : ∀ client : CollabClient, (rebaseRemoteAgainstPending client op).seq = op.seq := by
    intro client
    unfold rebaseRemoteAgainstPending
    split
    · rfl
    · split
      · rfl
      · rfl
  unfold ingestOp
  rw [if_neg taken]
  dsimp only
  split
  · simp [rebased]
  · rfl

end

theorem Editor.ingest_client (editor : Editor) (op : OpEnvelope) (fromAck : Bool) :
    (editor.ingest op fromAck).client = (ingestOp editor.client op fromAck).1 := rfl

theorem ingestOp_local (fresh : client.latestSeq < op.seq ∨ fromAck = true) (mine : isLocal client op = true) :
    ingestOp client op fromAck =
      ({clearPending client op.clientOpId with latestSeq := max (clearPending client op.clientOpId).latestSeq op.seq},
        some ⟨op,true⟩) := by
  have kept : ¬(op.seq ≤ client.latestSeq ∧ fromAck = false) := by
    rintro ⟨old,notAck⟩
    rcases fresh with newer | ack
    · exact Nat.not_lt.mpr old newer
    · rw [ack] at notAck
      cases notAck
  unfold ingestOp
  rw [if_neg kept]
  simp [mine]

variable {editor : Editor}

theorem Editor.ingest_old (old : op.seq ≤ editor.client.latestSeq) : editor.ingest op false = editor := by
  unfold Editor.ingest ingestOp
  rw [if_pos ⟨old,rfl⟩]
  rfl

theorem Editor.ingest_local (mine : isLocal editor.client op = true) :
    (editor.ingest op fromAck).text = editor.text := by
  unfold Editor.ingest
  by_cases kept : op.seq ≤ editor.client.latestSeq ∧ fromAck = false
  · simp only [ingestOp,if_pos kept]
    rfl
  · have fresh : editor.client.latestSeq < op.seq ∨ fromAck = true := by
      rcases Nat.lt_or_ge editor.client.latestSeq op.seq with newer | old
      · exact .inl newer
      · exact .inr (by simpa using fun notAck => kept ⟨old,notAck⟩)
    simp only [ingestOp_local fresh mine]
    rfl

theorem clearPending_foreign (foreign : isLocal client op = false) : clearPending client op.clientOpId = client := by
  unfold isLocal at foreign
  cases given : op.clientOpId with
  | none => rfl
  | some clientOpId =>
    simp only [given,Bool.or_eq_false_iff] at foreign
    have others : ∀ p ∈ client.pendingOps, decide (p.clientOpId ≠ clientOpId) = true := by
      intro p member
      have other := List.any_eq_false.mp foreign.2 p member
      simpa using other
    simp only [clearPending,List.filter_eq_self.mpr others]

theorem Editor.ingest_foreign (newer : editor.client.latestSeq < op.seq)
    (foreign : isLocal editor.client op = false) (kind : op.opType = .replace)
    (payload : op.payload = replaceToPayload remote) (sendable : Sendable remote) (real : ¬IsNoop remote)
    (rebased : (pendingReplaces editor.client).foldl transformReplace remote = moved) (small : Sendable moved) :
    (editor.ingest op false).text = moved.apply editor.text := by
  have parsed : parseReplacePayload op.payload = some remote := by rw [payload,parsed_by_client sendable,if_neg real]
  have old : ¬(op.seq ≤ editor.client.latestSeq ∧ false = false) := fun both => Nat.not_lt.mpr both.1 newer
  have delivery : rebaseRemoteAgainstPending editor.client op = {op with payload := replaceToPayload moved} := by
    unfold rebaseRemoteAgainstPending
    rw [if_neg (not_not.mpr kind),parsed,← rebased]
  obtain ⟨client,ran⟩ : ∃ client, ingestOp editor.client op false =
      (client,some ⟨{op with payload := replaceToPayload moved},false⟩) := by
    unfold ingestOp
    rw [if_neg old]
    simp only [foreign,clearPending_foreign foreign,Bool.not_false,Bool.and_self,if_true,delivery,Bool.or_self]
    exact ⟨_,rfl⟩
  unfold Editor.ingest
  rw [ran]
  have shown : handleRemoteOp editor.text ⟨{op with payload := replaceToPayload moved},false⟩ = moved.apply editor.text :=
    handleRemoteOp_replace kind rfl small
  exact shown

structure Synced (t : Timeline) (userId : String) (editor : Editor) : Prop where
  user : editor.client.localUserId = some userId
  latest : editor.client.latestSeq = t.session.latestSeq
  pending : editor.client.pendingOps = []
  text : editor.text = Document.textOf t.session.snapshot

def abcd : Value := .object [("text",.string ['a','b','c','d'])]

def joins : List Commit :=
  [⟨[],0,"",.join .document "f" "ann" "Ann" none,0⟩,⟨[],0,"",.join .document "f" "bob" "Bob" none,0⟩]

def editorOf (userId : String) (text : Text) : Editor := ⟨⟨some userId,0,[]⟩,text⟩

def bothJoined : Timeline := (Schedule.run Timeline.step (Timeline.created 0 "s" .document "f" (some abcd)) joins).getD (Timeline.created 0 "s" .document "f" none)

theorem bothJoined_run : Schedule.run Timeline.step (Timeline.created 0 "s" .document "f" (some abcd)) joins = some bothJoined := by
  obtain ⟨t,ran⟩ := Option.isSome_iff_exists.mp (by decide : (Schedule.run Timeline.step
    (Timeline.created 0 "s" .document "f" (some abcd)) joins).isSome = true)
  rw [bothJoined,ran]
  rfl

theorem bothJoined_reached : Timeline.Reached 0 "s" .document "f" (some abcd) bothJoined := ⟨joins,bothJoined_run⟩

theorem bothJoined_synced (userId : String) : Synced bothJoined userId (editorOf userId ['a','b','c','d']) := by
  have latest : bothJoined.session.latestSeq = 0 := by decide
  have text : Document.textOf bothJoined.session.snapshot = ['a','b','c','d'] := by decide
  exact ⟨rfl,latest.symm,rfl,text.symm⟩

end Ownly.Collab.Client
