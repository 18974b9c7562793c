import Ownly.Collab.Document

-- The 64-bit additions that a replace goes through on its way from the payload into the text.
namespace Ownly.Collab.Document
open List
variable {text : Text} {submitted op against written : TextReplace} {prior : List TextReplace}

def AddsSigned (x y : Int64) : Prop := -2^63 ≤ x.toInt + y.toInt ∧ x.toInt + y.toInt < 2^63

def Adds (x y : UInt64) : Prop := x.toNat + y.toNat < 2^64

-- The additions of `transform_replace`, those of the branch it takes among them.
def RebaseAdds (op against : TextReplace) : Prop :=
  let aIdx := op.index.toInt64
  let aDel := op.delete.toInt64
  let aEnd := aIdx + aDel
  let bIdx := against.index.toInt64
  let bDel := against.delete.toInt64
  let bEnd := bIdx + bDel
  let bIns := against.insertLen.toInt64
  AddsSigned aIdx aDel ∧ AddsSigned bIdx bDel ∧
  if bEnd ≤ aIdx then AddsSigned (aIdx - bDel) bIns
  else if aEnd ≤ bIdx then True
  else if bIdx ≤ aIdx then AddsSigned bIdx bIns
  else AddsSigned (bIdx - aIdx) (max (aEnd - bEnd) 0)

def RebasesAdd (op : TextReplace) : List TextReplace → Prop
  | [] => True
  | against :: rest => RebaseAdds op against ∧ RebasesAdd (transformReplace op against) rest

structure Safe (text : Text) (prior : List TextReplace) (submitted written : TextReplace) : Prop where
  rebases : RebasesAdd submitted prior
  clamps : Adds (min (transformReplaceThrough submitted prior).index (UInt64.ofNat text.length))
    (transformReplaceThrough submitted prior).delete
  probes : Adds written.index written.delete
  index : written.index.toNat ≤ text.length
  span : written.index.toNat + written.delete.toNat ≤ text.length
  applies : Adds (min written.index (UInt64.ofNat text.length)) written.delete
  length : (applyReplace text written).length + written.delete.toNat = text.length + written.insert.length

-- A replace as it is written back over a text of a Rust string, which has fewer than 2^63
-- characters: it starts inside the text and ends inside it, unless the sum of the two wrapped.
structure Committed (op : TextReplace) : Prop where
  index : op.index.toNat < 2^63
  span : op.index.toNat + op.delete.toNat < 2^63 ∨ 2^64 ≤ op.index.toNat + op.delete.toNat
  insert : op.insert.length < 2^63

-- A replace about to be moved past another one, its numbers read as signed ones: the end of its
-- span, its index behind the other one and the span around the other one stay below 2^63.
def RebaseRoom (op against : TextReplace) : Prop :=
  let aIdx := op.index.toInt64.toInt
  let aDel := op.delete.toInt64.toInt
  let bIdx := against.index.toInt64.toInt
  let bDel := against.delete.toInt64.toInt
  aIdx + aDel < 2^63 ∧ -2^63 ≤ aIdx + aDel ∧
  (bIdx + bDel ≤ aIdx → aIdx - bDel < 2^63 → aIdx - bDel + against.insert.length < 2^63) ∧
  (bIdx ≤ aIdx → aIdx < bIdx + bDel → bIdx < aIdx + aDel → bIdx + against.insert.length < 2^63) ∧
  (aIdx < bIdx → aIdx < bIdx + bDel → bIdx < aIdx + aDel → aDel - bDel < 2^63)

def RebasesRoom (op : TextReplace) : List TextReplace → Prop
  | [] => True
  | against :: rest => RebaseRoom op against ∧ RebasesRoom (transformReplace op against) rest

theorem rebaseAdds_iff (committed : Committed against) : RebaseAdds op against ↔ RebaseRoom op against := by
  obtain ⟨bIndex,bDelete,bInsert⟩ := committed
  have bIdx := MachineInt.toInt_toInt64 against.index (by omega)
  have insertLen : against.insertLen.toNat = against.insert.length := MachineInt.toNat_ofNat _ (by omega)
  have bIns := MachineInt.toInt_toInt64 against.insertLen (by omega)
  have bDel : -(2^63 : Int) < against.delete.toInt64.toInt ∧
      against.index.toInt64.toInt + against.delete.toInt64.toInt < 2^63 ∧
      0 ≤ against.index.toInt64.toInt + against.delete.toInt64.toInt := by
    have word := against.delete.toNat_lt
    rcases bDelete with low | high
    · rw [MachineInt.toInt_toInt64 _ (by omega)]
      omega
    · rw [MachineInt.toInt_toInt64_high _ (by omega)]
      omega
  have aIdx := Int64.toInt_lt op.index.toInt64
  have aDel := Int64.toInt_lt op.delete.toInt64
  have aIdx' := Int64.le_toInt op.index.toInt64
  have aDel' := Int64.le_toInt op.delete.toInt64
  have bEnd := MachineInt.toInt_add against.index.toInt64 against.delete.toInt64 (by omega) (by omega)
  unfold RebaseAdds RebaseRoom AddsSigned
  dsimp only
  by_cases span : -2^63 ≤ op.index.toInt64.toInt + op.delete.toInt64.toInt ∧
      op.index.toInt64.toInt + op.delete.toInt64.toInt < 2^63
  swap
  · constructor
    · intro adds
      exact absurd adds.1 span
    · intro room
      exact absurd ⟨room.2.1,room.1⟩ span
  have aEnd := MachineInt.toInt_add op.index.toInt64 op.delete.toInt64 span.1 span.2
  by_cases left : against.index.toInt64 + against.delete.toInt64 ≤ op.index.toInt64
  · rw [if_pos left]
    rw [Int64.le_iff_toInt_le,bEnd] at left
    by_cases wraps : op.index.toInt64.toInt - against.delete.toInt64.toInt < 2^63
    · have gap := MachineInt.toInt_sub op.index.toInt64 against.delete.toInt64 (by omega) wraps
      omega
    · have gap := MachineInt.toInt_sub_high op.index.toInt64 against.delete.toInt64 (by omega) (by omega)
      omega
  rw [if_neg left]
  rw [Int64.le_iff_toInt_le,bEnd] at left
  by_cases right : op.index.toInt64 + op.delete.toInt64 ≤ against.index.toInt64
  · rw [if_pos right,and_true]
    rw [Int64.le_iff_toInt_le,aEnd] at right
    omega
  rw [if_neg right]
  rw [Int64.le_iff_toInt_le,aEnd] at right
  by_cases into : against.index.toInt64 ≤ op.index.toInt64
  · rw [if_pos into]
    rw [Int64.le_iff_toInt_le] at into
    omega
  · rw [if_neg into]
    rw [Int64.le_iff_toInt_le] at into
    have before := MachineInt.toInt_sub against.index.toInt64 op.index.toInt64 (by omega) (by omega)
    have rest := MachineInt.toInt_sub (op.index.toInt64 + op.delete.toInt64)
      (against.index.toInt64 + against.delete.toInt64) (by omega) (by omega)
    have after := MachineInt.toInt_max (op.index.toInt64 + op.delete.toInt64 -
      (against.index.toInt64 + against.delete.toInt64)) 0
    have zero : (0 : Int64).toInt = 0 := rfl
    omega

theorem rebasesAdd_iff (committed : ∀ other ∈ prior, Committed other) : RebasesAdd op prior ↔ RebasesRoom op prior := by
  induction prior generalizing op with
  | nil => exact Iff.rfl
  | cons against rest ih =>
    have one : RebaseAdds op against ↔ RebaseRoom op against := rebaseAdds_iff (committed against mem_cons_self)
    have more : RebasesAdd (transformReplace op against) rest ↔ RebasesRoom (transformReplace op against) rest :=
      ih (fun other later => committed other (mem_cons_of_mem _ later))
    simp only [RebasesAdd,RebasesRoom,one,more]

theorem clamp_index (text : Text) (op : TextReplace) :
    (clampReplace text op).index = min op.index (UInt64.ofNat text.length) := by
  have unfolded : min op.index (UInt64.ofNat text.length) =
      if op.index ≤ UInt64.ofNat text.length then op.index else UInt64.ofNat text.length := rfl
  simp only [clampReplace,unfolded]
  by_cases inside : op.index ≤ UInt64.ofNat text.length
  · rw [if_neg (UInt64.not_lt.mpr inside),if_pos inside]
  · rw [if_pos (UInt64.not_le.mp inside),if_neg inside]

theorem clampReplace_bounds (short : text.length < 2^63) (adds : Adds (min op.index (UInt64.ofNat text.length)) op.delete) :
    (clampReplace text op).index.toNat ≤ text.length ∧
    (clampReplace text op).index.toNat + (clampReplace text op).delete.toNat ≤ text.length := by
  obtain ⟨inside,span⟩ := clamp_cases text op (by omega)
  refine ⟨inside,?_⟩
  rcases span with span | ⟨wraps,same⟩
  · exact span
  · have index : (clampReplace text op).index = min op.index (UInt64.ofNat text.length) := clamp_index text op
    rw [index,same] at wraps
    exact absurd adds (Nat.not_lt.mpr wraps)

theorem applyReplace_length (short : text.length < 2^63) (span : op.index.toNat + op.delete.toNat ≤ text.length) :
    (applyReplace text op).length + op.delete.toNat = text.length + op.insert.length := by
  obtain ⟨start,stop⟩ := replace_cuts (by omega : op.index.toNat + op.delete.toNat < 2^64)
    (by omega : text.length < 2^64)
  simp only [applyReplace,start,stop,length_append,length_take,length_drop]
  omega

def writtenBack (text : Text) (prior : List TextReplace) (submitted : TextReplace) : TextReplace :=
  clampReplace text (transformReplaceThrough submitted prior)

-- The replace has room at each other one it is moved past, and where the clamp adds its index,
-- or the end of the text, and its length.
def Room (text : Text) (prior : List TextReplace) (submitted : TextReplace) : Prop :=
  RebasesRoom submitted prior ∧
  min (transformReplaceThrough submitted prior).index.toNat text.length +
    (transformReplaceThrough submitted prior).delete.toNat < 2^64

theorem safe_iff (short : text.length < 2^63) (committed : ∀ other ∈ prior, Committed other) :
    Safe text prior submitted (writtenBack text prior submitted) ↔ Room text prior submitted := by
  have len := MachineInt.toNat_ofNat text.length (by omega)
  have sum : Adds (min (transformReplaceThrough submitted prior).index (UInt64.ofNat text.length))
      (transformReplaceThrough submitted prior).delete ↔
      min (transformReplaceThrough submitted prior).index.toNat text.length +
        (transformReplaceThrough submitted prior).delete.toNat < 2^64 := by
    rw [Adds,MachineInt.toNat_min,len]
  constructor
  · intro safe
    exact ⟨(rebasesAdd_iff committed).mp safe.rebases,sum.mp safe.clamps⟩
  · rintro ⟨rebases,clamps⟩
    obtain ⟨index,span⟩ := clampReplace_bounds short (sum.mpr clamps)
    refine ⟨(rebasesAdd_iff committed).mpr rebases,sum.mpr clamps,?_,index,span,?_,applyReplace_length short span⟩
    · unfold Adds writtenBack
      omega
    · rw [Adds,MachineInt.toNat_min,len,writtenBack]
      omega

theorem validate_arithmetic (snapshot : DomainSnapshot) (intervening : List OpEnvelope) (envelope : OpEnvelope)
    (actor : String) (participants : Participants) (kind : envelope.opType = .replace)
    (parsed : parseReplace envelope.payload = .ok submitted)
    (committed : ∀ other ∈ intervening.filterMap replaceFromOp, Committed other)
    (short : (textOf snapshot).length < 2^63) :
    (∀ out, validateAndTransform snapshot intervening envelope actor participants = .ok out →
      out = {envelope with
        payload := replacePayload (writtenBack (textOf snapshot) (intervening.filterMap replaceFromOp) submitted)}) ∧
    (Safe (textOf snapshot) (intervening.filterMap replaceFromOp) submitted
        (writtenBack (textOf snapshot) (intervening.filterMap replaceFromOp) submitted) ↔
      Room (textOf snapshot) (intervening.filterMap replaceFromOp) submitted) := by
  refine ⟨fun out valid => ?_,safe_iff short committed⟩
  obtain ⟨sent,replace,parsed',moved,_,same⟩ := validate_replace kind valid
  cases parsed.symm.trans parsed'
  rw [same,moved]
  rfl

def typed (replace : TextReplace) : OpEnvelope := ⟨"op",1,"u1",0,0,.replace,replacePayload replace,none⟩

def hello : DomainSnapshot := withText emptySnapshot ['h','e','l','l','o']

theorem validate_arithmetic_typed :
    Safe ['h','e','l','l','o'] [⟨0,0,['h']⟩] ⟨3,1,['p']⟩ (writtenBack ['h','e','l','l','o'] [⟨0,0,['h']⟩] ⟨3,1,['p']⟩) := by
  have committed : ∀ other ∈ [typed ⟨0,0,['h']⟩].filterMap replaceFromOp, Committed other := by
    intro other inside
    cases mem_singleton.mp inside
    exact ⟨by decide,.inl (by decide),by decide⟩
  refine (validate_arithmetic hello [typed ⟨0,0,['h']⟩] (typed ⟨3,1,['p']⟩) "u1" KeyMap.empty rfl rfl committed
    (by decide)).2.mpr ⟨⟨?_,trivial⟩,by decide⟩
  unfold RebaseRoom
  decide

-- Of "hello", two characters less than 2^64 from the fourth one on: the end wraps to the second
-- character, so that nothing is clamped and "ello" comes twice.
theorem validate_arithmetic_wraps :
    validateAndTransform hello [] (typed ⟨3,18446744073709551614,[]⟩) "u1" KeyMap.empty =
      .ok (typed ⟨3,18446744073709551614,[]⟩) ∧
    applyReplace ['h','e','l','l','o'] ⟨3,18446744073709551614,[]⟩ = ['h','e','l','e','l','l','o'] ∧
    ¬Safe ['h','e','l','l','o'] [] ⟨3,18446744073709551614,[]⟩ (writtenBack ['h','e','l','l','o'] [] ⟨3,18446744073709551614,[]⟩) := by
  refine ⟨rfl,by decide,fun safe => ?_⟩
  exact absurd safe.span (by decide)

end Ownly.Collab.Document
