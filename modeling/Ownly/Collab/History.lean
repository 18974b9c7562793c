import Ownly.Collab.Timeline

-- What a replace is transformed through once the ring has dropped a part of the log.
namespace Ownly.Collab.History
open Timeline (step created Reached step_replace reached_logged reached_frame)
open List Option

def replacesOf (ops : List OpEnvelope) : List TextReplace := ops.filterMap Document.replaceFromOp

def unseen (log : List OpEnvelope) (baseSeq : Nat) : List OpEnvelope := log.filter (fun op => baseSeq < op.seq)

def Retained (t : Timeline) (baseSeq : Nat) : Prop :=
  ∀ op ∈ t.log, baseSeq < op.seq → (Document.replaceFromOp op).isSome = true → op ∈ t.session.ops

theorem filterMap_filter_iff (f : α → Option β) (keep : α → Bool) (items : List α) :
    (items.filter keep).filterMap f = items.filterMap f ↔ ∀ x ∈ items, (f x).isSome = true → keep x = true := by
  induction items with
  | nil => simp
  | cons x rest ih =>
    have shorter : ((rest.filter keep).filterMap f).length ≤ (rest.filterMap f).length :=
      (List.Sublist.filterMap f filter_sublist).length_le
    cases image : f x with
    | none =>
      rw [filterMap_cons_none image,forall_mem_cons,image]
      cases kept : keep x with
      | false =>
        rw [filter_cons_of_neg (by simp [kept]),ih]
        simp
      | true =>
        rw [filter_cons_of_pos kept,filterMap_cons_none image,ih]
        simp
    | some y =>
      rw [filterMap_cons_some image,forall_mem_cons,image]
      cases kept : keep x with
      | false =>
        -- the image of `x` is missing on the left, which stays shorter
        rw [filter_cons_of_neg (by simp [kept])]
        refine iff_of_false ?_ (by simp)
        intro same
        have longer := congrArg List.length same
        rw [length_cons] at longer
        omega
      | true =>
        rw [filter_cons_of_pos kept,filterMap_cons_some image]
        simp only [List.cons.injEq,true_and]
        rw [ih]
        simp

theorem ring_filter (logged : Logged session log) :
    session.ops = log.filter (fun op => log.length - defaultMaxOps < op.seq) := by
  rw [filter_after log 0 _ logged.seqs,logged.ring,Nat.sub_zero]

theorem opsAfter_unseen (logged : Logged session log) (baseSeq : Nat) :
    session.opsAfter baseSeq = (unseen log baseSeq).filter (fun op => log.length - defaultMaxOps < op.seq) := by
  rw [CollabSession.opsAfter,unseen,ring_filter logged,filter_comm]

theorem retained_iff (logged : Logged t.session t.log) (baseSeq : Nat) :
    replacesOf (t.session.opsAfter baseSeq) = replacesOf (unseen t.log baseSeq) ↔ Retained t baseSeq := by
  rw [opsAfter_unseen logged,replacesOf,replacesOf,filterMap_filter_iff]
  have ring : ∀ op, op ∈ t.session.ops ↔ op ∈ t.log ∧ t.log.length - defaultMaxOps < op.seq := by
    intro op
    rw [ring_filter logged,mem_filter,decide_eq_true_iff]
  simp only [unseen,mem_filter,decide_eq_true_eq,Retained,ring]
  constructor
  · intro held op member newer replace
    exact ⟨member,held op ⟨member,newer⟩ replace⟩
  · rintro held op ⟨member,newer⟩ replace
    exact (held op member newer replace).2

theorem transformed_through_all_iff (reached : Reached start sessionId .document fileId seed t)
    (fired : step t c = some t')
    (call : c.call = .submitOp sessionId' userId baseSeq .replace payload clientOpId) :
    ∃ op sent, t'.log = t.log ++ [op] ∧ Document.parseReplace payload = .ok sent ∧
      op.payload = Document.replacePayload (Document.clampReplace (Document.textOf t.session.snapshot)
        (transformReplaceThrough sent (replacesOf (t.session.opsAfter baseSeq)))) ∧
      (replacesOf (t.session.opsAfter baseSeq) = replacesOf (unseen t.log baseSeq) ↔ Retained t baseSeq) ∧
      (Retained t baseSeq → op.payload = Document.replacePayload (Document.clampReplace
        (Document.textOf t.session.snapshot) (transformReplaceThrough sent (replacesOf (unseen t.log baseSeq))))) := by
  obtain ⟨op,sent,replace,parsed,moved,_,replaced⟩ := step_replace fired (reached_frame reached).2.1 call
  have committed : op.payload = Document.replacePayload replace := by
    obtain ⟨opId,now,rfl⟩ := replaced.envelope
    rfl
  have exact := retained_iff (reached_logged reached) baseSeq
  rw [moved] at committed
  refine ⟨op,sent,replaced.log,parsed,committed,exact,?_⟩
  intro retained
  have all : (t.session.opsAfter baseSeq).filterMap Document.replaceFromOp = replacesOf (unseen t.log baseSeq) :=
    exact.mpr retained
  rw [committed,all]

def seedXy : Value := .object [("text",.string ['x','y'])]

def typeA (n : Nat) : Commit :=
  ⟨[],0,"op",.submitOp "s" "u1" n .replace (Document.replacePayload ⟨0,0,['a']⟩) none,0⟩

def joinAnn : Commit := ⟨[],0,"op",.join .document "f" "u1" "Ann" none,0⟩

theorem transformed_through_all_iff_first : ∃ (t t' : Timeline) (op : OpEnvelope),
    Schedule.run step (created 0 "s" .document "f" (some seedXy)) [joinAnn] = some t ∧ t'.log = t.log ++ [op] ∧
    (replacesOf (t.session.opsAfter 0) = replacesOf (unseen t.log 0) ↔ Retained t 0) := by
  obtain ⟨t',ran⟩ := isSome_iff_exists.mp (by decide : (Schedule.run step
    (created 0 "s" .document "f" (some seedXy)) [joinAnn,typeA 0]).isSome = true)
  obtain ⟨t,joined,ran⟩ := Schedule.run_cons ran
  obtain ⟨after,fired,_⟩ := Schedule.run_cons ran
  have started : Schedule.run step (created 0 "s" .document "f" (some seedXy)) [joinAnn] = some t := by
    rw [Schedule.run,joined]
    rfl
  obtain ⟨op,sent,log,_,_,exact,_⟩ := transformed_through_all_iff ⟨_,started⟩ fired rfl
  exact ⟨t,after,op,started,log,exact⟩

structure Typed (n : Nat) (t : Timeline) : Prop where
  sid : t.session.id = "s"
  document : t.session.roomKind = .document
  joined : t.session.participants.contains "u1" = true
  alone : ∀ userId, t.session.participants.contains userId = true → userId = "u1"
  text : Document.textOf t.session.snapshot = List.replicate n 'a' ++ ['x','y']
  logged : Logged t.session t.log
  count : t.log.length = n
  replaces : ∀ op ∈ t.log, Document.replaceFromOp op = some ⟨0,0,['a']⟩

theorem alone_unlocked (alone : ∀ userId, participants.contains userId = true → userId = actor) :
    Document.Unlocked participants actor := by
  intro userId p found other
  exact absurd (alone userId (by rw [KeyMap.contains,found]; rfl)) other

theorem front_fits : TextReplace.Fits ⟨0,0,['a']⟩ := ⟨by decide,by decide⟩

theorem typed_step (typed : Typed n t) (few : n < 2^60) : ∃ t', step t (typeA n) = some t' ∧ Typed (n + 1) t' := by
  have latest : t.session.latestSeq = n := typed.logged.latestSeq.trans typed.count
  have seen : t.session.opsAfter n = [] := by
    rw [typed.logged.opsAfter]
    exact drop_eq_nil_of_le (by rw [typed.count]; exact Nat.le_max_left _ _)
  have size : (Document.textOf t.session.snapshot).length = n + 2 := by rw [typed.text]; simp
  have kept : Document.clampReplace (Document.textOf t.session.snapshot) (transformReplaceThrough ⟨0,0,['a']⟩
      ((t.session.opsAfter n).filterMap Document.replaceFromOp)) = ⟨0,0,['a']⟩ := by
    rw [seen]
    exact Document.clampReplace_inside front_fits (by omega) (Nat.zero_le _)
  obtain ⟨op,t',fired,replaced,members⟩ := Timeline.submits_replace 0 0 "op" none typed.document typed.joined
    (Nat.le_of_eq latest.symm) (alone_unlocked typed.alone)
    (Document.parseReplace_replacePayload ⟨0,0,['a']⟩ (by simp)) kept (by simp)
  rw [typed.sid] at fired
  obtain ⟨sid,document,_,_⟩ := Timeline.step_frame fired
  obtain ⟨opId,now,rfl⟩ := replaced.envelope
  refine ⟨t',fired,sid.trans typed.sid,document.trans typed.document,(members "u1").trans typed.joined,?_,?_,
    Timeline.step_logged typed.logged fired,?_,?_⟩
  · intro userId member
    exact typed.alone userId ((members userId).symm.trans member)
  · rw [replaced.text,applyReplace_splice _ _ front_fits (by omega),typed.text]
    rfl
  · rw [replaced.log,length_append,typed.count]
    rfl
  · intro other member
    rw [replaced.log,mem_append,mem_singleton] at member
    rcases member with older | rfl
    · exact typed.replaces other older
    · rfl

theorem typed_reached (n : Nat) (few : n < 2^60) :
    ∃ t, Reached 0 "s" .document "f" (some seedXy) t ∧ Typed n t := by
  induction n with
  | zero =>
    obtain ⟨t,ran⟩ := isSome_iff_exists.mp (by decide : (Schedule.run step
      (created 0 "s" .document "f" (some seedXy)) [joinAnn]).isSome = true)
    have reached : Reached 0 "s" .document "f" (some seedXy) t := ⟨_,ran⟩
    obtain ⟨sid,document,_⟩ := reached_frame reached
    have logged := reached_logged reached
    cases ran
    refine ⟨_,reached,sid,document,rfl,?_,rfl,logged,rfl,fun _ member => absurd member not_mem_nil⟩
    intro userId member
    have joined : ((KeyMap.empty : Participants).set "u1"
        ⟨"u1","Ann",participantColor "u1",0,Document.presenceDefaults⟩).contains userId = true := member
    rw [KeyMap.contains,KeyMap.get_set] at joined
    split at joined
    · assumption
    · cases joined
  | succ n ih =>
    obtain ⟨t,⟨commits,ran⟩,typed⟩ := ih (by omega)
    obtain ⟨t',fired,typed'⟩ := typed_step typed (by omega)
    refine ⟨t',⟨commits ++ [typeA n],?_⟩,typed'⟩
    rw [Schedule.run_append,ran]
    simp only [bind_some,Schedule.run,fired]

theorem replacesOf_front (typed : Typed n t) (ops : List OpEnvelope) (subset : ops ⊆ t.log) :
    replacesOf ops = List.replicate ops.length ⟨0,0,['a']⟩ := by
  induction ops with
  | nil => rfl
  | cons op rest ih =>
    have first := typed.replaces op (subset mem_cons_self)
    have others : replacesOf rest = _ := ih (fun _ member => subset (mem_cons_of_mem _ member))
    rw [replacesOf] at others
    rw [replacesOf,filterMap_cons_some first,others]
    rfl

theorem through_front (count : Nat) (index : UInt64) (few : index.toNat + count < 2^60) :
    (transformReplaceThrough ⟨index,0,['z']⟩ (List.replicate count ⟨0,0,['a']⟩)).splice =
      ⟨index.toNat + count,0,['z']⟩ := by
  induction count generalizing index with
  | zero => rfl
  | succ count ih =>
    have one : (index + 1).toNat = index.toNat + 1 := MachineInt.toNat_add index 1 (by
      have unit : (1 : UInt64).toNat = 1 := rfl
      omega)
    have moved : transformReplace ⟨index,0,['z']⟩ ⟨0,0,['a']⟩ = ⟨index + 1,0,['z']⟩ := by
      have fits : TextReplace.Fits ⟨index,0,['z']⟩ := ⟨by simp only [UInt64.toNat_zero]; omega,by simp⟩
      apply TextReplace.splice_injective
      rw [transformReplace_splice fits front_fits]
      simp only [TextReplace.splice,one,Splice.transform,Splice.stop_mk,UInt64.toNat_zero]
      rw [if_pos (Nat.zero_le _)]
      rfl
    rw [replicate_succ,transformReplaceThrough,foldl_cons,moved]
    have rest := ih (index + 1) (by omega)
    rw [transformReplaceThrough] at rest
    rw [rest,one,Nat.add_assoc,Nat.add_comm 1 count]

theorem truncated_transform : ∃ t t' op,
    Reached 0 "s" .document "f" (some seedXy) t ∧
    step t ⟨[],0,"late",.submitOp "s" "u1" 0 .replace (Document.replacePayload ⟨1,0,['z']⟩) none,0⟩ = some t' ∧
    t'.log = t.log ++ [op] ∧ op.payload = Document.replacePayload ⟨1025,0,['z']⟩ ∧
    Document.clampReplace (Document.textOf t.session.snapshot)
      (transformReplaceThrough ⟨1,0,['z']⟩ (replacesOf (unseen t.log 0))) = ⟨1026,0,['z']⟩ := by
  obtain ⟨t,reached,typed⟩ := typed_reached 1025 (by decide)
  have size : (Document.textOf t.session.snapshot).length = 1027 := by
    rw [typed.text,length_append,length_replicate]
    rfl
  have ring : t.session.opsAfter 0 = t.log.drop 1 := by
    rw [typed.logged.opsAfter,typed.count]
    rfl
  have full : unseen t.log 0 = t.log := by
    rw [unseen,filter_after t.log 0 0 typed.logged.seqs]
    rfl
  have seen : replacesOf (t.session.opsAfter 0) = List.replicate 1024 ⟨0,0,['a']⟩ := by
    rw [ring,replacesOf_front typed _ (drop_subset 1 t.log),length_drop,typed.count]
  have all : replacesOf (unseen t.log 0) = List.replicate 1025 ⟨0,0,['a']⟩ := by
    rw [full,replacesOf_front typed _ (List.Subset.refl _),typed.count]
  have short : transformReplaceThrough ⟨1,0,['z']⟩ (replacesOf (t.session.opsAfter 0)) = ⟨1025,0,['z']⟩ := by
    rw [seen]
    exact TextReplace.splice_injective (through_front 1024 1 (by decide))
  have right : transformReplaceThrough ⟨1,0,['z']⟩ (replacesOf (unseen t.log 0)) = ⟨1026,0,['z']⟩ := by
    rw [all]
    exact TextReplace.splice_injective (through_front 1025 1 (by decide))
  have clamped : Document.clampReplace (Document.textOf t.session.snapshot) (transformReplaceThrough ⟨1,0,['z']⟩
      ((t.session.opsAfter 0).filterMap Document.replaceFromOp)) = ⟨1025,0,['z']⟩ := by
    have through := short
    rw [replacesOf] at through
    rw [through]
    exact Document.clampReplace_inside ⟨by decide,by decide⟩ (by omega) (by rw [size]; decide)
  obtain ⟨op,t',fired,replaced,_⟩ := Timeline.submits_replace 0 0 "late" none typed.document typed.joined
    (Nat.zero_le _) (alone_unlocked typed.alone)
    (Document.parseReplace_replacePayload ⟨1,0,['z']⟩ (by simp)) clamped (by simp)
  rw [typed.sid] at fired
  obtain ⟨opId,now,rfl⟩ := replaced.envelope
  refine ⟨t,t',_,reached,fired,replaced.log,rfl,?_⟩
  rw [right]
  exact Document.clampReplace_inside ⟨by decide,by decide⟩ (by omega) (by rw [size]; decide)

end Ownly.Collab.History
