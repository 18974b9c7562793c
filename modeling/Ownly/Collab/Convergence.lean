import Ownly.Collab.Client

-- Two editors that each type one replace on the same text, with the server between them.
namespace Ownly.Collab.Convergence
open Client
open Timeline (step created Reached reached_logged reached_frame step_logged step_frame)
open List

theorem type_client (synced : Synced t userId editor) (op : Replace) (clientOpId : String) :
    (editor.type op clientOpId).1.client =
      ⟨some userId,t.session.latestSeq,[⟨clientOpId,t.session.latestSeq,.replace,replaceToPayload op,true⟩]⟩ := by
  obtain ⟨⟨localUserId,latestSeq,pendingOps⟩,text⟩ := editor
  obtain ⟨rfl,rfl,rfl,_⟩ := synced
  rfl

theorem type_call (synced : Synced t userId editor) (sessionId : String) (op : Replace) (clientOpId : String) :
    callOf sessionId userId (editor.type op clientOpId).2 =
      callOf sessionId userId ⟨t.session.latestSeq,.replace,replaceToPayload op,clientOpId⟩ := by
  rw [← synced.latest]
  rfl

theorem type_text (editor : Editor) (op : Replace) (clientOpId : String) :
    (editor.type op clientOpId).1.text = op.apply editor.text := applyReplace_exact editor.text op

theorem ingest_own {editor : Editor} {pending : PendingOp} (client : editor.client = ⟨some userId,latest,[pending]⟩)
    (own : Carries op seq userId pending.clientOpId moved) (newer : latest < seq) (fromAck : Bool) :
    (editor.ingest op fromAck).client = ⟨some userId,seq,[]⟩ ∧ (editor.ingest op fromAck).text = editor.text := by
  have mine : isLocal editor.client op = true := by simp [isLocal,client,own.user]
  refine ⟨?_,Editor.ingest_local mine⟩
  have fresh : editor.client.latestSeq < op.seq ∨ fromAck = true := by
    left
    rw [client,own.seq]
    exact newer
  rw [Editor.ingest_client,ingestOp_local fresh mine,client,own.mine,own.seq]
  simp [clearPending,Nat.max_eq_right (Nat.le_of_lt newer)]

theorem exchange_commits (logged : Logged t.session t.log) (document : t.session.roomKind = .document)
    (aSend : Sendable a) (bSend : Sendable b) (string : (Document.textOf t.session.snapshot).length < 2^60)
    (ha : Splice.InBounds (Document.textOf t.session.snapshot) a) (hb : Splice.InBounds (Document.textOf t.session.snapshot) b)
    (fired : step t c = some t')
    (call : c.call = callOf sessionId ann ⟨t.session.latestSeq,.replace,replaceToPayload a,annOp⟩)
    (again : step t' c' = some t'')
    (call' : c'.call = callOf sessionId bob ⟨t.session.latestSeq,.replace,replaceToPayload b,bobOp⟩) :
    ∃ op op', t''.log = t.log ++ [op,op'] ∧ ¬IsNoop a ∧ ¬IsNoop b ∧ ¬IsNoop (b.transform a) ∧
      Sendable (b.transform a) ∧ Carries op (t.session.latestSeq + 1) ann annOp (wire a) ∧
      Carries op' (t.session.latestSeq + 2) bob bobOp (wire (b.transform a)) ∧
      Document.textOf t''.session.snapshot = (b.transform a).apply (a.apply (Document.textOf t.session.snapshot)) := by
  have latest := logged.latestSeq
  obtain ⟨aReal,op,moved,through,_,carries,log,text⟩ := step_sends fired document call aSend
  -- nothing lies between the first replace and the text it was typed on
  have unseen : t.session.opsAfter t.session.latestSeq = [] := by
    rw [logged.opsAfter,latest]
    exact drop_eq_nil_of_le (Nat.le_max_left _ _)
  have asIs : moved = wire a := by
    rw [through,unseen]
    exact clampReplace_wire aSend (by omega) ha
  subst asIs
  rw [applyReplace_wire aSend (by omega)] at text
  have logged' := step_logged logged fired
  obtain ⟨bReal,op',moved',through',real',carries',log',text'⟩ :=
    step_sends again ((step_frame fired).2.1.trans document) call' bSend
  have seen : t'.session.opsAfter t.session.latestSeq = [op] := by
    have start : max t.session.latestSeq (t'.log.length - defaultMaxOps) = t.log.length := by
      rw [log,length_append,length_singleton,latest,defaultMaxOps]
      omega
    rw [logged'.opsAfter,start,log,drop_left]
  have size := Splice.length_apply ha
  have insert : a.insert.length < 2^53 := aSend.insert
  have inside := Splice.transform_bounded ha hb
  have small : Sendable (b.transform a) := sendable_inside (by omega)
    (by rw [Splice.transform_insert]; exact bSend.insert) inside
  have rebased : moved' = wire (b.transform a) := by
    rw [through',seen,filterMap_cons_some (replaceFromOp_carries carries (fun empty => aReal ((noop_iff aSend).mp empty))),
      filterMap_nil,transformReplaceThrough,foldl_cons,foldl_nil,transformReplace_wire bSend aSend small,text]
    exact clampReplace_wire small (by omega) inside
  subst rebased
  rw [applyReplace_wire small (by rw [text]; omega),text] at text'
  have next : t.session.nextSeq = t.session.latestSeq + 1 := by rw [latest,logged.next]
  have next' : t'.session.nextSeq = t.session.latestSeq + 2 := by
    rw [logged'.next,log,length_append,length_singleton,latest]
  rw [next] at carries
  rw [next'] at carries'
  exact ⟨op,op',by rw [log',log,append_assoc]; rfl,aReal,bReal,fun empty => real' ((noop_iff small).mpr empty),small,
    carries,carries',text'⟩

theorem converges_iff (reached : Reached start sessionId .document fileId seed t)
    (first : Synced t ann x) (second : Synced t bob y) (others : ann ≠ bob) (ids : annOp ≠ bobOp)
    (string : IsString x.text) (aString : IsString a.insert) (bString : IsString b.insert)
    (ha : Splice.InBounds x.text a) (hb : Splice.InBounds x.text b)
    (fired : step t c = some t') (call : c.call = callOf sessionId ann (x.type a annOp).2)
    (again : step t' c' = some t'') (call' : c'.call = callOf sessionId bob (y.type b bobOp).2)
    (log : t''.log = t.log ++ [op,op']) (fromAck fromAck' : Bool) :
    ((((x.type a annOp).1.ingest op fromAck).ingest op' false).text =
        (((y.type b bobOp).1.ingest op false).ingest op' fromAck').text ∧
      (((y.type b bobOp).1.ingest op false).ingest op' fromAck').text = Document.textOf t''.session.snapshot) ↔
    Splice.Compatible x.text a b := by
  rw [type_call first] at call
  rw [type_call second] at call'
  have small : x.text.length < 2^53 := string
  have aSend : Sendable a := sendable_inside (by omega) aString ha
  have bSend : Sendable b := sendable_inside (by omega) bString hb
  have same : y.text = x.text := second.text.trans first.text.symm
  rw [first.text] at ha hb small
  obtain ⟨op1,op2,log',aReal,bReal,movedReal,movedSend,carries,carries',server⟩ :=
    exchange_commits (reached_logged reached) (reached_frame reached).2.1 aSend bSend (by omega) ha hb fired call again call'
  rw [log',append_cancel_left_eq] at log
  obtain ⟨rfl,rest⟩ := List.cons.inj log
  obtain ⟨rfl,_⟩ := List.cons.inj rest
  rw [← first.text] at ha hb server
  obtain ⟨client,text⟩ := ingest_own (type_client first a annOp) carries (Nat.lt_succ_self _) fromAck
  have left : (((x.type a annOp).1.ingest op1 fromAck).ingest op2 false).text =
      (b.transform a).apply (a.apply x.text) := by
    have foreign : isLocal ((x.type a annOp).1.ingest op1 fromAck).client op2 = false := by
      simp [isLocal,client,carries'.user,carries'.mine,isPending,others]
    rw [Editor.ingest_foreign (by rw [client,carries'.seq]; exact Nat.lt_succ_self _) foreign carries'.kind
      (carries'.payload.trans (replaceToPayload_wire _).symm) movedSend movedReal (by rw [pendingReplaces,client]; rfl)
      movedSend,text,type_text]
  have shifted := Splice.transform_bounded hb ha
  have sizeB := Splice.length_apply hb
  have insertB : b.insert.length < 2^53 := bString
  have aMoved : Sendable (a.transform b) := sendable_inside (by rw [first.text] at sizeB ⊢; omega)
    (by rw [Splice.transform_insert]; exact aString) shifted
  have right : (((y.type b bobOp).1.ingest op1 false).ingest op2 fromAck').text =
      (a.transform b).apply (b.apply x.text) := by
    have typed := type_client second b bobOp
    have foreign : isLocal (y.type b bobOp).1.client op1 = false := by
      simp [isLocal,typed,carries.user,carries.mine,isPending,others.symm,ids.symm]
    have rebased : (pendingReplaces (y.type b bobOp).1.client).foldl Client.transformReplace a = a.transform b := by
      simp only [pendingReplaces,typed,filterMap_cons,filterMap_nil,if_true,parsed_by_client bSend,if_neg bReal]
      exact transformReplace_exact a b
    have mine : isLocal ((y.type b bobOp).1.ingest op1 false).client op2 = true := by
      simp [isLocal,Editor.ingest_client,ingestOp_user,typed,carries'.user]
    rw [Editor.ingest_local mine,Editor.ingest_foreign (by rw [typed,carries.seq]; exact Nat.lt_succ_self _) foreign
      carries.kind (carries.payload.trans (replaceToPayload_wire _).symm) aSend aReal rebased aMoved,type_text,same]
  rw [left,right,server,← Splice.converge_iff ha hb]
  constructor
  · intro both
    exact both.2
  · intro agree
    exact ⟨agree.symm,agree⟩

def commitOf (userId : String) (body : ClientOp) : Commit := ⟨[],0,"op",callOf "s" userId body,0⟩

def typedBy (userId : String) (op : Replace) (clientOpId : String) : Commit :=
  commitOf userId ((editorOf userId ['a','b','c','d']).type op clientOpId).2

theorem converges_iff_apart : ∃ t' t'' op op',
    step bothJoined (typedBy "ann" ⟨1,0,['A']⟩ "a1") = some t' ∧ step t' (typedBy "bob" ⟨3,0,['B']⟩ "b1") = some t'' ∧
    t''.log = bothJoined.log ++ [op,op'] ∧
    ((((editorOf "ann" ['a','b','c','d']).type ⟨1,0,['A']⟩ "a1").1.ingest op false).ingest op' false).text =
      Document.textOf t''.session.snapshot ∧
    ((((editorOf "bob" ['a','b','c','d']).type ⟨3,0,['B']⟩ "b1").1.ingest op false).ingest op' false).text =
      Document.textOf t''.session.snapshot := by
  obtain ⟨t'',path⟩ := Option.isSome_iff_exists.mp (by decide : (Schedule.run step bothJoined
    [typedBy "ann" ⟨1,0,['A']⟩ "a1",typedBy "bob" ⟨3,0,['B']⟩ "b1"]).isSome = true)
  obtain ⟨t',fired,path⟩ := Schedule.run_cons path
  obtain ⟨last,again,path⟩ := Schedule.run_cons path
  cases Schedule.run_nil path
  obtain ⟨op,op',log,_⟩ := exchange_commits (reached_logged bothJoined_reached) (reached_frame bothJoined_reached).2.1
    ⟨by decide,by decide⟩ ⟨by decide,by decide⟩ (by decide) (by decide) (by decide)
    fired (type_call (bothJoined_synced "ann") "s" ⟨1,0,['A']⟩ "a1") again (type_call (bothJoined_synced "bob") "s" ⟨3,0,['B']⟩ "b1")
  have agree := (converges_iff bothJoined_reached (bothJoined_synced "ann") (bothJoined_synced "bob") (by decide : "ann" ≠ "bob")
    (by decide : "a1" ≠ "b1") (by decide) (by decide) (by decide) (by decide) (by decide) fired rfl again rfl log
    false false).mpr (by decide)
  exact ⟨t',t'',op,op',fired,again,log,agree.1.trans agree.2,agree.2⟩

def exchanged (a b : Replace) : Option (Text × Text × Text) :=
  let ann := (editorOf "ann" ['a','b','c','d']).type a "a1"
  let bob := (editorOf "bob" ['a','b','c','d']).type b "b1"
  (Schedule.run step bothJoined [commitOf "ann" ann.2,commitOf "bob" bob.2]).map
    (fun t => ((t.log.foldl (fun editor op => editor.ingest op false) ann.1).text,
      (t.log.foldl (fun editor op => editor.ingest op false) bob.1).text,Document.textOf t.session.snapshot))

theorem editors_diverge :
    exchanged ⟨2,0,['A']⟩ ⟨2,0,['B']⟩ =
      some (['a','b','A','B','c','d'],['a','b','B','A','c','d'],['a','b','A','B','c','d']) ∧
    exchanged ⟨2,0,['X']⟩ ⟨1,2,[]⟩ = some (['a','c','d'],['a','X','d'],['a','c','d']) := by
  constructor
  · decide
  · decide

end Ownly.Collab.Convergence
