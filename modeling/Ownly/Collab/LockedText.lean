import Ownly.Collab.Locks

-- What an edit of one participant does to the characters another one has locked.
namespace Ownly.Collab.LockedText
open Timeline (step read created Replaced step_exact step_replace step_frame)
open Locks (Range held committed)
open Option

def inside (text : Text) (range : Range) : Text := Splice.segment text range.1.toNat range.2.toNat

def Keeps (text after : Text) (range : Range) (moved : Option Range) : Prop :=
  ∃ range', moved = some range' ∧ inside after range' = inside text range

def Beside (op : TextReplace) (range : Range) : Prop :=
  range.2.toNat ≤ op.index.toNat ∨
    (op.index.toNat < range.1.toNat ∧ op.index.toNat + op.delete.toNat ≤ range.1.toNat)

theorem transformRange_before (before : range.2.toNat ≤ op.index.toNat) (wide : range.1 < range.2) :
    transformRange range.1 range.2 op = some range := by
  have order := UInt64.lt_iff_toNat_lt.mp wide
  have first : transformOffset range.1 op = range.1 := if_pos (UInt64.le_iff_toNat_le.mpr (by omega))
  have last : transformOffset range.2 op = range.2 := if_pos (UInt64.le_iff_toNat_le.mpr before)
  simp only [transformRange,if_neg (UInt64.not_le.mpr wide),first,last,if_pos wide]

theorem transformOffset_behind (past : op.index.toNat < offset.toNat)
    (behind : op.index.toNat + op.delete.toNat ≤ offset.toNat) (insert : op.insert.length < 2^64) :
    (transformOffset offset op).toNat = (offset.toNat - op.delete.toNat + op.insert.length) % 2^64 := by
  have bound := offset.toNat_lt
  have insertLen : op.insertLen.toNat = op.insert.length := MachineInt.toNat_ofNat _ insert
  have sum := MachineInt.toNat_add op.index op.delete (by omega)
  have back : (offset - op.delete).toNat = offset.toNat - op.delete.toNat :=
    UInt64.toNat_sub_of_le _ _ (UInt64.le_iff_toNat_le.mpr (by omega))
  have far : ¬offset ≤ op.index := fun le => Nat.not_le.mpr past (UInt64.le_iff_toNat_le.mp le)
  have reach : op.index + op.delete ≤ offset := UInt64.le_iff_toNat_le.mpr (by omega)
  unfold transformOffset
  rw [if_neg far,if_pos reach,UInt64.toNat_add,back,insertLen]

theorem transformRange_some (moved : transformRange start finish op = some range) :
    start < finish ∧ range = (transformOffset start op,transformOffset finish op) ∧ range.1 < range.2 := by
  unfold transformRange at moved
  split at moved
  · cases moved
  · rename_i wide
    dsimp only at moved
    split at moved
    · rename_i order
      cases moved
      exact ⟨UInt64.not_le.mp wide,rfl,order⟩
    · cases moved

section Edit
variable {text : Text} {op : TextReplace} {range : Range}

section
variable (bounded : Splice.InBounds text op.splice) (applied : after = op.splice.apply text)
include bounded applied

theorem kept_before (wide : range.1 < range.2) (before : range.2.toNat ≤ op.index.toNat) :
    Keeps text after range (transformRange range.1 range.2 op) := by
  refine ⟨range,transformRange_before before wide,?_⟩
  rw [applied]
  exact Splice.segment_before bounded before

theorem kept_behind (wide : range.1 < range.2) (past : op.index.toNat < range.1.toNat)
    (behind : op.index.toNat + op.delete.toNat ≤ range.1.toNat)
    (room : range.2.toNat + op.insert.length < 2^64 + op.delete.toNat) :
    Keeps text after range (transformRange range.1 range.2 op) := by
  have order := UInt64.lt_iff_toNat_lt.mp wide
  have bound := range.2.toNat_lt
  have insert : op.insert.length < 2^64 := by omega
  have first := transformOffset_behind past behind insert
  have last := transformOffset_behind (by omega : op.index.toNat < range.2.toNat) (by omega) insert
  rw [Nat.mod_eq_of_lt (by omega)] at first last
  have still : transformOffset range.1 op < transformOffset range.2 op := UInt64.lt_iff_toNat_lt.mpr (by omega)
  refine ⟨(transformOffset range.1 op,transformOffset range.2 op),?_,?_⟩
  · simp only [transformRange,if_neg (UInt64.not_le.mpr wide),if_pos still]
  · rw [applied,inside,inside,first,last]
    exact Splice.segment_behind bounded behind (by omega)

-- Once the end of the lock wraps, either nothing is left of it or it has come to
-- lie over the front of the text, where it was beyond its end before.
theorem lost_behind (short : text.length + op.insert.length < 2^64) (past : op.index.toNat < range.1.toNat)
    (behind : op.index.toNat + op.delete.toNat ≤ range.1.toNat)
    (full : 2^64 + op.delete.toNat ≤ range.2.toNat + op.insert.length) :
    ¬Keeps text after range (transformRange range.1 range.2 op) := by
  rintro ⟨moved,found,same⟩
  obtain ⟨wide,rfl,order⟩ := transformRange_some found
  have ordered := UInt64.lt_iff_toNat_lt.mp wide
  have bound := range.2.toNat_lt
  have insert : op.insert.length < 2^64 := by omega
  have size := Splice.length_apply bounded
  have span : op.index.toNat + op.delete.toNat ≤ text.length := bounded
  have first := transformOffset_behind past behind insert
  have last := transformOffset_behind (by omega : op.index.toNat < range.2.toNat) (by omega) insert
  have less := UInt64.lt_iff_toNat_lt.mp order
  dsimp only at less
  -- the end has wrapped, and so has the start, or it would not be below the end
  have wrapped : 2^64 + op.delete.toNat ≤ range.1.toNat + op.insert.length := by omega
  have beyond : text.length ≤ range.1.toNat := by omega
  have empty : inside text range = [] := Splice.segment_past_end beyond
  rw [empty,applied] at same
  refine Splice.segment_ne_nil ?_ less same
  simp only [TextReplace.splice] at size ⊢
  omega

theorem keeps_iff (short : text.length + op.insert.length < 2^64) (wide : range.1 < range.2) (beside : Beside op range) :
    Keeps text after range (transformRange range.1 range.2 op) ↔
      range.2.toNat + op.insert.length < 2^64 + op.delete.toNat := by
  rcases beside with before | ⟨past,behind⟩
  · have span : op.index.toNat + op.delete.toNat ≤ text.length := bounded
    exact iff_of_true (kept_before bounded applied wide before) (by omega)
  constructor
  · intro keeps
    refine Nat.lt_of_not_le (fun full => ?_)
    exact lost_behind bounded applied short past behind full keeps
  · exact kept_behind bounded applied wide past behind

end

end Edit

-- The probe reads the span of the replace off 32-bit numbers, and one position of a
-- pure insert; a text shorter than 2^32 loses nothing by it.
theorem probe_toNat (op : TextReplace) (short : op.index.toNat + op.delete.toNat < 2^32 - 1) :
    op.index.toUInt32.toUInt64.toNat = op.index.toNat ∧
      (Document.probeEnd op).toUInt64.toNat = op.index.toNat + max op.delete.toNat 1 := by
  have sum := MachineInt.toNat_add op.index op.delete (by omega)
  have start : op.index.toUInt32.toNat = op.index.toNat := by rw [UInt64.toNat_toUInt32]; omega
  refine ⟨by rw [UInt32.toNat_toUInt64,start],?_⟩
  rw [UInt32.toNat_toUInt64,Document.probeEnd]
  by_cases deletes : 0 < op.delete
  · have some := UInt64.lt_iff_toNat_lt.mp deletes
    rw [UInt64.toNat_zero] at some
    rw [if_pos deletes,UInt64.toNat_toUInt32,sum]
    omega
  · have none : op.delete.toNat = 0 := by
      have zero := UInt64.le_iff_toNat_le.mp (UInt64.not_lt.mp deletes)
      rw [UInt64.toNat_zero] at zero
      omega
    have top : ¬op.index.toUInt32 = 4294967295 := by
      intro same
      have value := congrArg UInt32.toNat same
      rw [start] at value
      have last : (4294967295 : UInt32).toNat = 2^32 - 1 := rfl
      omega
    have one : (1 : UInt32).toNat = 1 := rfl
    rw [if_neg deletes,if_neg top,UInt32.toNat_add,start,one]
    omega

theorem beside_of_free (short : op.index.toNat + op.delete.toNat < 2^32 - 1)
    (free : Document.rangeBlockedByOthers participants actor op.index.toUInt32 (Document.probeEnd op) = false)
    (locked : held participants userId = some range) (other : userId ≠ actor) (wide : range.1 < range.2) :
    Beside op range := by
  obtain ⟨p,present,lock⟩ := bind_eq_some_iff.mp locked
  obtain ⟨first,last⟩ := probe_toNat op short
  have probe : op.index.toUInt32 < Document.probeEnd op := by
    rw [UInt32.lt_iff_toNat_lt,← UInt32.toNat_toUInt64,← UInt32.toNat_toUInt64,first,last]
    omega
  have apart := Document.unblocked_apart free probe present other lock wide
  rw [UInt64.lt_iff_toNat_lt,UInt64.lt_iff_toNat_lt,first,last] at apart
  unfold Beside
  omega

-- A replace as a session commits it: it starts inside the text, and so does its
-- span end, unless the sum of the two wrapped.
structure Settles (op : TextReplace) : Prop where
  index : op.index.toNat < 2^48
  delete : op.delete.toNat < 2^48 ∨ 2^64 ≤ op.index.toNat + op.delete.toNat
  insert : op.insert.length < 2^48

theorem transform_grows (settles : Settles against) (index : op.index.toNat ≤ bound) (delete : op.delete.toNat ≤ bound)
    (small : bound < 2^61) : (transformReplace op against).index.toNat ≤ bound + 2^49 ∧
      (transformReplace op against).delete.toNat ≤ bound + 2^49 := by
  obtain ⟨bIndex,bDelete,bInsert⟩ := settles
  have aIdx := MachineInt.toInt_toInt64 op.index (by omega)
  have aDel := MachineInt.toInt_toInt64 op.delete (by omega)
  have bIdx := MachineInt.toInt_toInt64 against.index (by omega)
  have insertLen : against.insertLen.toNat = against.insert.length := MachineInt.toNat_ofNat _ (by omega)
  have bIns := MachineInt.toInt_toInt64 against.insertLen (by omega)
  have bDel : -(2^48 : Int) < against.delete.toInt64.toInt ∧ against.delete.toInt64.toInt < 2^48 := by
    have word := against.delete.toNat_lt
    rcases bDelete with low | high
    · rw [MachineInt.toInt_toInt64 _ (by omega)]
      omega
    · rw [MachineInt.toInt_toInt64_high _ (by omega)]
      omega
  have aEnd := MachineInt.toInt_add op.index.toInt64 op.delete.toInt64 (by omega) (by omega)
  have bEnd := MachineInt.toInt_add against.index.toInt64 against.delete.toInt64 (by omega) (by omega)
  have zero : (0 : Int64).toInt = 0 := rfl
  unfold transformReplace
  dsimp only
  split_ifs with left right into
  · have gap := MachineInt.toInt_sub op.index.toInt64 against.delete.toInt64 (by omega) (by omega)
    have moved := MachineInt.toInt_add (op.index.toInt64 - against.delete.toInt64) against.insertLen.toInt64
      (by omega) (by omega)
    have result := MachineInt.toInt_max (op.index.toInt64 - against.delete.toInt64 + against.insertLen.toInt64) 0
    refine ⟨?_,by dsimp only; omega⟩
    dsimp only
    rw [MachineInt.toNat_toUInt64 _ (by omega)]
    omega
  · exact ⟨by omega,by omega⟩
  · rw [Int64.le_iff_toInt_le] at left right into
    have least := MachineInt.toInt_min (op.index.toInt64 + op.delete.toInt64)
      (against.index.toInt64 + against.delete.toInt64)
    have overlap := MachineInt.toInt_sub (min (op.index.toInt64 + op.delete.toInt64)
      (against.index.toInt64 + against.delete.toInt64)) op.index.toInt64 (by omega) (by omega)
    have kept := MachineInt.toInt_sub op.delete.toInt64 (min (op.index.toInt64 + op.delete.toInt64)
      (against.index.toInt64 + against.delete.toInt64) - op.index.toInt64) (by omega) (by omega)
    have start := MachineInt.toInt_add against.index.toInt64 against.insertLen.toInt64 (by omega) (by omega)
    have first := MachineInt.toInt_max (against.index.toInt64 + against.insertLen.toInt64) 0
    have last := MachineInt.toInt_max (op.delete.toInt64 - (min (op.index.toInt64 + op.delete.toInt64)
      (against.index.toInt64 + against.delete.toInt64) - op.index.toInt64)) 0
    dsimp only
    rw [MachineInt.toNat_toUInt64 _ (by omega),MachineInt.toNat_toUInt64 _ (by omega)]
    omega
  · rw [Int64.le_iff_toInt_le] at left right into
    have before := MachineInt.toInt_sub against.index.toInt64 op.index.toInt64 (by omega) (by omega)
    have rest := MachineInt.toInt_sub (op.index.toInt64 + op.delete.toInt64)
      (against.index.toInt64 + against.delete.toInt64) (by omega) (by omega)
    have after := MachineInt.toInt_max (op.index.toInt64 + op.delete.toInt64 -
      (against.index.toInt64 + against.delete.toInt64)) 0
    have sum := MachineInt.toInt_add (against.index.toInt64 - op.index.toInt64)
      (max (op.index.toInt64 + op.delete.toInt64 - (against.index.toInt64 + against.delete.toInt64)) 0)
      (by omega) (by omega)
    refine ⟨by dsimp only; omega,?_⟩
    dsimp only
    rw [MachineInt.toNat_toUInt64 _ (by omega)]
    omega

theorem transformThrough_grows {against : List TextReplace} (settles : ∀ other ∈ against, Settles other)
    (index : op.index.toNat ≤ bound) (delete : op.delete.toNat ≤ bound)
    (small : bound + against.length * 2^49 < 2^61) :
    (transformReplaceThrough op against).index.toNat ≤ bound + against.length * 2^49 ∧
      (transformReplaceThrough op against).delete.toNat ≤ bound + against.length * 2^49 := by
  induction against generalizing op bound with
  | nil =>
    have through : transformReplaceThrough op [] = op := rfl
    rw [List.length_nil,through]
    omega
  | cons other rest ih =>
    rw [List.length_cons] at small ⊢
    obtain ⟨first,second⟩ := transform_grows (settles other List.mem_cons_self) index delete (by omega)
    obtain ⟨index',delete'⟩ := ih (fun next later => settles next (List.mem_cons_of_mem _ later)) first second (by omega)
    have through : transformReplaceThrough op (other :: rest) = transformReplaceThrough (transformReplace op other) rest :=
      rfl
    rw [through]
    omega

-- A quarter petabyte of text, more than a process can address.
def Addressable (t : Timeline) : Prop := (Document.textOf t.session.snapshot).length < 2^48

def Settled (t : Timeline) : Prop :=
  ∀ op ∈ t.log, ∀ replace, Document.replaceFromOp op = some replace →
    replace.index.toNat < 2^48 ∧ (replace.delete.toNat < 2^48 ∨ 2^64 ≤ replace.index.toNat + replace.delete.toNat) ∧
      (replace.insert.length < 2^48 ∨ replace.insert.length ≤ (Document.textOf t.session.snapshot).length)

theorem Settled.settles (settled : Settled t) (short : Addressable t) (member : op ∈ t.log)
    (moves : Document.replaceFromOp op = some replace) : Settles replace := by
  obtain ⟨index,delete,insert⟩ := settled op member replace moves
  refine ⟨index,delete,?_⟩
  rcases insert with fits | shown
  · exact fits
  · exact Nat.lt_of_le_of_lt shown short

theorem step_added (fired : step t c = some t') : t'.log = t.log ∨ ∃ op, t'.log = t.log ++ [op] ∧
    (op.opType = .replace → ∃ sessionId userId baseSeq payload clientOpId,
      c.call = .submitOp sessionId userId baseSeq .replace payload clientOpId) := by
  obtain ⟨_,added,next,ran,rfl⟩ := step_exact fired
  cases added with
  | none => exact .inl (List.append_nil _)
  | some op =>
    refine .inr ⟨op,rfl,?_⟩
    intro kind
    cases call : c.call with
    | join _ _ _ _ _ =>
      rw [call] at ran
      cases ran
    | heartbeat _ _ _ =>
      rw [call] at ran
      simp only [Call.compute] at ran
      split at ran
      · cases ran
      · cases ran
    | submitOp sessionId userId baseSeq opType payload clientOpId =>
      rw [call] at ran
      simp only [Call.compute] at ran
      split at ran
      · cases ran
      · rename_i done
        cases ran
        obtain ⟨payload',envelope⟩ := (Engine.submitOp_exact.mp done).envelope
        have same : op.opType = opType := by rw [envelope]
        have replace : opType = .replace := same.symm.trans kind
        rw [replace]
        exact ⟨sessionId,userId,baseSeq,payload,clientOpId,rfl⟩

theorem Replaced.moves (replaced : Replaced t userId baseSeq replace clientOpId op t')
    (real : ¬(replace.delete = 0 ∧ replace.insert = [])) : Document.replaceFromOp op = some replace := by
  obtain ⟨opId,now,rfl⟩ := replaced.envelope
  exact Document.replaceFromOp_some.mpr ⟨rfl,Document.parseReplace_replacePayload replace real⟩

theorem insert_le_applyReplace (text : Text) (op : TextReplace) : op.insert.length ≤ (applyReplace text op).length := by
  simp only [applyReplace,List.length_append]
  omega

theorem step_settled (document : t.session.roomKind = .document) (settled : Settled t) (short : Addressable t)
    (fired : step t c = some t') : Settled t' := by
  have older : ∀ op ∈ t.log, ∀ replace, Document.replaceFromOp op = some replace →
      replace.index.toNat < 2^48 ∧ (replace.delete.toNat < 2^48 ∨ 2^64 ≤ replace.index.toNat + replace.delete.toNat) ∧
        (replace.insert.length < 2^48 ∨ replace.insert.length ≤ (Document.textOf t'.session.snapshot).length) := by
    intro op member replace moves
    have known := settled.settles short member moves
    exact ⟨known.index,known.delete,.inl known.insert⟩
  rcases step_added fired with same | ⟨added,log,replaces⟩
  · intro op member
    rw [same] at member
    exact older op member
  intro op member replace moves
  rw [log] at member
  rcases List.mem_append.mp member with old | new
  · exact older op old replace moves
  obtain rfl := List.mem_singleton.mp new
  obtain ⟨sessionId,userId,baseSeq,payload,clientOpId,call⟩ := replaces (Document.replaceFromOp_some.mp moves).1
  obtain ⟨last,sent,clamped,_,moved,real,replaced⟩ := step_replace fired document call
  obtain ⟨_,rfl⟩ := List.append_inj' (replaced.log.symm.trans log) rfl |>.imp_right List.singleton_inj.mp
  rw [Replaced.moves replaced real] at moves
  cases moves
  obtain ⟨first,span⟩ := Document.clamp_cases (Document.textOf t.session.snapshot)
    (transformReplaceThrough sent ((t.session.opsAfter baseSeq).filterMap Document.replaceFromOp))
    (Nat.lt_trans short (by decide))
  rw [← moved] at first span
  have bound : (Document.textOf t.session.snapshot).length < 2^48 := short
  refine ⟨by omega,?_,.inr ?_⟩
  · rcases span with fits | ⟨wraps,_⟩
    · exact .inl (by omega)
    · exact .inr wraps
  · rw [replaced.text]
    exact insert_le_applyReplace _ _

theorem run_settled (addressable : Schedule.Along step (fun t _ => Addressable t)
      (created now sessionId .document fileId seed) commits)
    (ran : Schedule.run step (created now sessionId .document fileId seed) commits = some t) :
    t.session.roomKind = .document ∧ Settled t := by
  refine Schedule.run_along (motive := fun t => t.session.roomKind = .document ∧ Settled t) ?_ ?_ addressable ran
  · rintro t c t' ⟨document,settled⟩ short fired
    exact ⟨(step_frame fired).2.1.trans document,step_settled document settled short fired⟩
  · exact ⟨rfl,fun op member => absurd member List.not_mem_nil⟩

theorem committed_bounded (logged : Logged t.session t.log) (settled : Settled t) (short : Addressable t)
    (index : sent.index.toNat < 2^31) (delete : sent.delete.toNat < 2^31) (baseSeq : Nat) :
    (committed t.session baseSeq sent).index.toNat + (committed t.session baseSeq sent).delete.toNat ≤
      (Document.textOf t.session.snapshot).length := by
  have bound : (Document.textOf t.session.snapshot).length < 2^48 := short
  have ring := logged.opsAfter baseSeq
  have settles : ∀ other ∈ (t.session.opsAfter baseSeq).filterMap Document.replaceFromOp, Settles other := by
    intro other member
    obtain ⟨op,retained,moves⟩ := List.mem_filterMap.mp member
    rw [ring] at retained
    exact settled.settles short (List.mem_of_mem_drop retained) moves
  have few : ((t.session.opsAfter baseSeq).filterMap Document.replaceFromOp).length ≤ 1024 := by
    have shorter := List.length_filterMap_le Document.replaceFromOp (t.session.opsAfter baseSeq)
    have size := congrArg List.length ring
    rw [List.length_drop] at size
    simp only [defaultMaxOps] at size
    omega
  have grown := transformThrough_grows settles (Nat.le_of_lt index) (Nat.le_of_lt delete) (by omega)
  obtain ⟨first,fits | ⟨wraps,same⟩⟩ := Document.clamp_cases (Document.textOf t.session.snapshot)
    (transformReplaceThrough sent ((t.session.opsAfter baseSeq).filterMap Document.replaceFromOp))
    (Nat.lt_trans short (by decide))
  · exact fits
  · rw [same] at wraps
    omega

theorem submitted_iff (document : session.roomKind = .document)
    (done : Engine.Submitted now opId session actor baseSeq .replace payload clientOpId op next)
    (parsed : Document.parseReplace payload = .ok sent)
    (span : (committed session baseSeq sent).index.toNat + (committed session baseSeq sent).delete.toNat ≤
      (Document.textOf session.snapshot).length)
    (short : (Document.textOf session.snapshot).length < 2^31) (insert : sent.insert.length < 2^31)
    (other : userId ≠ actor) (locked : held session.participants userId = some range) (wide : range.1 < range.2) :
    Keeps (Document.textOf session.snapshot) (Document.textOf next.snapshot) range (held next.participants userId) ↔
      range.2.toNat + sent.insert.length < 2^64 + (committed session baseSeq sent).delete.toNat := by
  obtain ⟨again,parsed',moves,inserts⟩ := Locks.replace_committed document done
  rw [parsed] at parsed'
  cases parsed'
  obtain ⟨validated,snapshot,valid,applied,rfl,rfl⟩ := done.passed
  rw [document] at valid applied
  have checked : Document.validateAndTransform session.snapshot (session.opsAfter baseSeq)
      ⟨opId,0,actor,now,baseSeq,.replace,payload,clientOpId⟩ actor session.participants = .ok validated := valid
  obtain ⟨_,replace,parsed',same,free,rfl⟩ := Document.validate_replace rfl checked
  rw [parsed] at parsed'
  cases parsed'
  have clamped : replace = committed session baseSeq sent := same
  subst clamped
  have fits : (committed session baseSeq sent).Fits := ⟨by omega,by rw [inserts]; omega⟩
  -- the text the op leaves
  have after : Document.textOf snapshot = (committed session baseSeq sent).splice.apply (Document.textOf session.snapshot) := by
    have result : Document.apply session.snapshot ⟨opId,0,actor,now,baseSeq,.replace,
        Document.replacePayload (committed session baseSeq sent),clientOpId⟩ = .ok snapshot := applied
    rw [Document.apply_replace rfl rfl] at result
    split at result
    · cases result
    · cases result
      rw [Document.textOf_withText,applyReplace_splice _ _ fits (by omega)]
  -- the lock the other participant is left with
  have moved : held (Engine.append now session actor snapshot ⟨opId,session.nextSeq,actor,now,baseSeq,.replace,
      Document.replacePayload (committed session baseSeq sent),clientOpId⟩).participants userId =
      transformRange range.1 range.2 (committed session baseSeq sent) := by
    obtain ⟨p,present,lock⟩ := bind_eq_some_iff.mp locked
    rw [Locks.append_get document,present,bind_some,if_neg other,Locks.lockOf_transform,moves]
    simp only [lock,bind_some]
  have beside := beside_of_free (by omega) free locked other wide
  rw [moved,← inserts]
  refine keeps_iff span ?_ (by rw [inserts]; omega) wide beside
  exact after

theorem locked_text_iff
    (ran : Schedule.run step (created now sessionId .document fileId seed) commits = some t)
    (addressable : Schedule.Along step (fun t _ => Addressable t) (created now sessionId .document fileId seed) commits)
    (short : (Document.textOf t.session.snapshot).length < 2^31)
    (call : c.call = .submitOp sessionId' actor baseSeq .replace payload clientOpId)
    (parsed : Document.parseReplace payload = .ok sent) (index : sent.index.toNat < 2^31)
    (delete : sent.delete.toNat < 2^31) (insert : sent.insert.length < 2^31) (fired : step t c = some t')
    (other : userId ≠ actor) (locked : held (read t.session c.prunedAt).participants userId = some range)
    (wide : range.1 < range.2) :
    Keeps (Document.textOf t.session.snapshot) (Document.textOf t'.session.snapshot) range
        (held t'.session.participants userId) ↔
      range.2.toNat + sent.insert.length < 2^64 + (committed t.session baseSeq sent).delete.toNat := by
  obtain ⟨document,settled⟩ := run_settled addressable ran
  have logged := Timeline.reached_logged ⟨commits,ran⟩
  have fits : Addressable t := by unfold Addressable; omega
  have span := committed_bounded logged settled fits index delete baseSeq
  obtain ⟨op,next,submitted,rfl⟩ := Timeline.step_submits fired call
  have same : committed (read t.session c.prunedAt) baseSeq sent = committed t.session baseSeq sent := by
    simp only [committed,CollabSession.opsAfter,Timeline.read_snapshot,Timeline.read_ops]
  have copy := submitted_iff ((Timeline.read_roomKind _ _).trans document) submitted parsed
    (by rw [same,Timeline.read_snapshot]; exact span) (by rw [Timeline.read_snapshot]; exact short) insert other locked wide
  rw [same,Timeline.read_snapshot] at copy
  exact copy

def seedHello : Value := .object [("text",.string ['h','e','l','l','o'])]

def lockedBy (stop : UInt64) : List Commit := [Locks.joinOf "u1",Locks.joinOf "u2",Locks.lockOp "u2" 1 stop]

def typeFront : Commit :=
  Locks.commitOf (.submitOp "s" "u1" 1 .replace (Document.replacePayload ⟨0,0,['a']⟩) none)

theorem lockedBy_addressable (stop : UInt64) : Schedule.Along step (fun t _ => Addressable t)
    (created 0 "s" .document "f" (some seedHello)) (lockedBy stop) := by
  have hello : Addressable (created 0 "s" .document "f" (some seedHello)) := by unfold Addressable; decide
  refine ⟨hello,?_⟩
  rintro t fired
  cases fired
  refine ⟨hello,?_⟩
  rintro t fired
  cases fired
  exact ⟨hello,fun _ _ => trivial⟩

def shownBefore (stop : UInt64) : Option (Option Range × Text) :=
  (Schedule.run step (created 0 "s" .document "f" (some seedHello)) (lockedBy stop)).map
    (fun t => (held (read t.session []).participants "u2",Document.textOf t.session.snapshot))

def lockAfter (stop : UInt64) : Option (Option Range) :=
  (Schedule.run step (created 0 "s" .document "f" (some seedHello)) (lockedBy stop ++ [typeFront])).map
    (fun t => held t.session.participants "u2")

theorem lockedBy_runs (before : shownBefore stop = some (locked,text)) (after : lockAfter stop = some moved) :
    ∃ t t', Schedule.run step (created 0 "s" .document "f" (some seedHello)) (lockedBy stop) = some t ∧
      step t typeFront = some t' ∧ held (read t.session []).participants "u2" = locked ∧
      Document.textOf t.session.snapshot = text ∧ held t'.session.participants "u2" = moved := by
  obtain ⟨last,whole,lock⟩ := map_eq_some_iff.mp after
  rw [Schedule.run_append] at whole
  obtain ⟨t,first,typed⟩ := bind_eq_some_iff.mp whole
  obtain ⟨t',fired,ended⟩ := Schedule.run_cons typed
  cases Schedule.run_nil ended
  obtain ⟨same,ran,shown⟩ := map_eq_some_iff.mp before
  cases first.symm.trans ran
  obtain ⟨range,characters⟩ := Prod.mk.inj shown
  exact ⟨t,last,first,fired,range,characters,lock⟩

theorem locked_text_iff_beside : ∃ t t',
    Schedule.run step (created 0 "s" .document "f" (some seedHello)) (lockedBy 3) = some t ∧
    step t typeFront = some t' ∧ Keeps (Document.textOf t.session.snapshot) (Document.textOf t'.session.snapshot) (1,3)
      (held t'.session.participants "u2") := by
  obtain ⟨t,t',ran,fired,locked,text,_⟩ := lockedBy_runs
    (by decide : shownBefore 3 = some (some (1,3),['h','e','l','l','o'])) (by decide : lockAfter 3 = some (some (2,4)))
  refine ⟨t,t',ran,fired,(locked_text_iff ran (lockedBy_addressable 3) (by rw [text]; decide) rfl
    (Document.parseReplace_replacePayload ⟨0,0,['a']⟩ (by decide)) (by decide) (by decide) (by decide) fired (by decide)
    locked (by decide)).mpr ?_⟩
  have room : (3 : UInt64).toNat + ['a'].length < 2^64 := by decide
  exact Nat.lt_of_lt_of_le room (Nat.le_add_right _ _)

theorem locked_text_lost : ∃ t t' range,
    Schedule.run step (created 0 "s" .document "f" (some seedHello)) (lockedBy 18446744073709551615) = some t ∧
    step t typeFront = some t' ∧ Document.textOf t.session.snapshot = ['h','e','l','l','o'] ∧
    held (read t.session []).participants "u2" = some range ∧ range.1 < range.2 ∧
    inside (Document.textOf t.session.snapshot) range = ['e','l','l','o'] ∧
    ¬Keeps (Document.textOf t.session.snapshot) (Document.textOf t'.session.snapshot) range
      (held t'.session.participants "u2") := by
  obtain ⟨t,t',ran,fired,locked,text,lost⟩ := lockedBy_runs
    (by decide : shownBefore 18446744073709551615 = some (some (1,18446744073709551615),['h','e','l','l','o']))
    (by decide : lockAfter 18446744073709551615 = some none)
  refine ⟨t,t',(1,18446744073709551615),ran,fired,text,locked,by decide,?_,?_⟩
  · rw [text]
    rfl
  · rintro ⟨range,kept,_⟩
    rw [lost] at kept
    cases kept

end Ownly.Collab.LockedText
