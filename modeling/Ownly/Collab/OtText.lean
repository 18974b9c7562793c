import Ownly.Collab.Types
import Ownly.Lib.MachineInt
import Ownly.Lib.Splice
import Mathlib.Tactic.Common

namespace Ownly.Collab

-- backend/src/collab/ot/text.rs on a 64-bit target: `usize` is UInt64, `as i64`
-- keeps the bits, and arithmetic wraps as it does in a release build.
structure TextReplace where
  index : UInt64
  delete : UInt64
  insert : Text
  deriving DecidableEq, Repr

variable {op against : TextReplace}

def TextReplace.insertLen (op : TextReplace) : UInt64 := UInt64.ofNat op.insert.length

-- `chars[end..]` starts before `chars[..index]` ends when `index + delete` wrapped.
def applyReplace (text : Text) (op : TextReplace) : Text :=
  let len := UInt64.ofNat text.length
  let index := min op.index len
  let stop := min (index + op.delete) len
  text.take index.toNat ++ op.insert ++ text.drop stop.toNat

def transformReplace (op against : TextReplace) : TextReplace :=
  let aIdx := op.index.toInt64
  let aDel := op.delete.toInt64
  let aEnd := aIdx + aDel
  let bIdx := against.index.toInt64
  let bDel := against.delete.toInt64
  let bEnd := bIdx + bDel
  let bIns := against.insertLen.toInt64
  if bEnd ≤ aIdx then
    {op with index := (max (aIdx - bDel + bIns) 0).toUInt64}
  else if aEnd ≤ bIdx then op
  else if bIdx ≤ aIdx then
    let overlap := min aEnd bEnd - aIdx
    let newDel := max (aDel - overlap) 0
    let newIdx := bIdx + bIns
    ⟨(max newIdx 0).toUInt64,newDel.toUInt64,op.insert⟩
  else
    let before := bIdx - aIdx
    let after := max (aEnd - bEnd) 0
    {op with delete := (before + after).toUInt64}

def transformReplaceThrough (op : TextReplace) (against : List TextReplace) : TextReplace :=
  against.foldl transformReplace op

def transformOffset (offset : UInt64) (op : TextReplace) : UInt64 :=
  if offset ≤ op.index then offset
  else if op.index + op.delete ≤ offset then offset - op.delete + op.insertLen
  else op.index + op.insertLen

def transformRange (start stop : UInt64) (op : TextReplace) : Option (UInt64 × UInt64) :=
  if stop ≤ start then none
  else
    let s := transformOffset start op
    let e := transformOffset stop op
    if s < e then some (s,e) else none

-- A Rust string has fewer than 2^63 bytes, so no sum of positions inside the texts
-- of one exchange wraps; a quarter of the range leaves room for two of them.
structure TextReplace.Fits (op : TextReplace) : Prop where
  span : op.index.toNat + op.delete.toNat < 2^62
  insert : op.insert.length < 2^62

def TextReplace.splice (op : TextReplace) : Splice Char := ⟨op.index.toNat,op.delete.toNat,op.insert⟩

@[simp] theorem TextReplace.splice_insert (op : TextReplace) : op.splice.insert = op.insert := rfl

theorem transformReplace_insert (op against : TextReplace) : (transformReplace op against).insert = op.insert := by
  unfold transformReplace
  dsimp only
  split_ifs
  · rfl
  · rfl
  · rfl
  · rfl

theorem transformReplaceThrough_insert (op : TextReplace) (against : List TextReplace) :
    (transformReplaceThrough op against).insert = op.insert := by
  induction against generalizing op with
  | nil => rfl
  | cons other rest ih => exact (ih (transformReplace op other)).trans (transformReplace_insert op other)

theorem TextReplace.splice_injective (same : op.splice = against.splice) : op = against := by
  obtain ⟨index,delete,insert⟩ := op
  obtain ⟨index',delete',insert'⟩ := against
  simp only [TextReplace.splice,Splice.mk.injEq] at same
  obtain ⟨first,second,rfl⟩ := same
  rw [UInt64.toNat_inj.mp first,UInt64.toNat_inj.mp second]

theorem replace_cuts (span : op.index.toNat + op.delete.toNat < 2^64) (small : n < 2^64) :
    (min op.index (UInt64.ofNat n)).toNat = min op.index.toNat n ∧
    (min (min op.index (UInt64.ofNat n) + op.delete) (UInt64.ofNat n)).toNat =
      min (op.index.toNat + op.delete.toNat) n := by
  have len := MachineInt.toNat_ofNat n small
  have start : (min op.index (UInt64.ofNat n)).toNat = min op.index.toNat n := by
    rw [MachineInt.toNat_min,len]
  have sum := MachineInt.toNat_add (min op.index (UInt64.ofNat n)) op.delete (by omega)
  refine ⟨start,?_⟩
  rw [MachineInt.toNat_min,sum,start,len]
  omega

theorem applyReplace_splice (text : Text) (op : TextReplace) (fits : op.Fits) (small : text.length < 2^64) :
    applyReplace text op = op.splice.apply text := by
  obtain ⟨span,_⟩ := fits
  obtain ⟨start,stop⟩ := replace_cuts (by omega : op.index.toNat + op.delete.toNat < 2^64) small
  simp only [applyReplace,Splice.apply,Splice.stop,TextReplace.splice,start,stop]
  rw [← List.take_eq_take_min,← List.drop_eq_drop_min]

section
variable (aSpan : op.index.toNat + op.delete.toNat < 2^63) (bSpan : against.index.toNat + against.delete.toNat < 2^63)
include aSpan bSpan

theorem transform_guards
    :
    (against.index.toInt64 + against.delete.toInt64 ≤ op.index.toInt64 ↔ against.splice.stop ≤ op.splice.index) ∧
    (op.index.toInt64 + op.delete.toInt64 ≤ against.index.toInt64 ↔ op.splice.stop ≤ against.splice.index) ∧
    (against.index.toInt64 ≤ op.index.toInt64 ↔ against.splice.index ≤ op.splice.index) := by
  have aIdx := MachineInt.toInt_toInt64 op.index (by omega)
  have aDel := MachineInt.toInt_toInt64 op.delete (by omega)
  have bIdx := MachineInt.toInt_toInt64 against.index (by omega)
  have bDel := MachineInt.toInt_toInt64 against.delete (by omega)
  have aEnd := MachineInt.toInt_add op.index.toInt64 op.delete.toInt64 (by omega) (by omega)
  have bEnd := MachineInt.toInt_add against.index.toInt64 against.delete.toInt64 (by omega) (by omega)
  simp only [Int64.le_iff_toInt_le,aEnd,bEnd,aIdx,aDel,bIdx,bDel,TextReplace.splice,Splice.stop]
  omega

theorem transformReplace_room
    (room : max op.index.toNat against.index.toNat + against.insert.length < 2^63) :
    (transformReplace op against).splice = op.splice.transform against.splice := by
  obtain ⟨first,second,third⟩ := transform_guards aSpan bSpan
  have aIdx := MachineInt.toInt_toInt64 op.index (by omega)
  have aDel := MachineInt.toInt_toInt64 op.delete (by omega)
  have bIdx := MachineInt.toInt_toInt64 against.index (by omega)
  have bDel := MachineInt.toInt_toInt64 against.delete (by omega)
  have insertLen : against.insertLen.toNat = against.insert.length := MachineInt.toNat_ofNat _ (by omega)
  have bIns := MachineInt.toInt_toInt64 against.insertLen (by omega)
  have aEnd := MachineInt.toInt_add op.index.toInt64 op.delete.toInt64 (by omega) (by omega)
  have bEnd := MachineInt.toInt_add against.index.toInt64 against.delete.toInt64 (by omega) (by omega)
  have zero : (0 : Int64).toInt = 0 := rfl
  simp only [transformReplace,Splice.transform]
  by_cases left : against.splice.stop ≤ op.splice.index
  · rw [if_pos (first.mpr left),if_pos left]
    simp only [TextReplace.splice,Splice.stop] at left ⊢
    have gap := MachineInt.toInt_sub op.index.toInt64 against.delete.toInt64 (by omega) (by omega)
    have moved := MachineInt.toInt_add (op.index.toInt64 - against.delete.toInt64) against.insertLen.toInt64
      (by omega) (by omega)
    congr 1
    rw [MachineInt.toNat_toUInt64 _ (by rw [MachineInt.toInt_max,zero]; exact Int.le_max_right _ _),
      MachineInt.toInt_max]
    omega
  rw [if_neg (fun le => left (first.mp le)),if_neg left]
  by_cases right : op.splice.stop ≤ against.splice.index
  · rw [if_pos (second.mpr right),if_pos right]
  rw [if_neg (fun le => right (second.mp le)),if_neg right]
  by_cases into : against.splice.index ≤ op.splice.index
  · rw [if_pos (third.mpr into),if_pos into]
    simp only [TextReplace.splice,Splice.stop] at left right into ⊢
    have least := MachineInt.toInt_min (op.index.toInt64 + op.delete.toInt64)
      (against.index.toInt64 + against.delete.toInt64)
    have overlap := MachineInt.toInt_sub (min (op.index.toInt64 + op.delete.toInt64)
      (against.index.toInt64 + against.delete.toInt64)) op.index.toInt64 (by omega) (by omega)
    have kept := MachineInt.toInt_sub op.delete.toInt64 (min (op.index.toInt64 + op.delete.toInt64)
      (against.index.toInt64 + against.delete.toInt64) - op.index.toInt64) (by omega) (by omega)
    have start := MachineInt.toInt_add against.index.toInt64 against.insertLen.toInt64 (by omega) (by omega)
    congr 1
    · rw [MachineInt.toNat_toUInt64 _ (by rw [MachineInt.toInt_max,zero]; exact Int.le_max_right _ _),
        MachineInt.toInt_max]
      omega
    · rw [MachineInt.toNat_toUInt64 _ (by rw [MachineInt.toInt_max,zero]; exact Int.le_max_right _ _),
        MachineInt.toInt_max]
      omega
  · rw [if_neg (fun le => into (third.mp le)),if_neg into]
    simp only [TextReplace.splice,Splice.stop] at left right into ⊢
    have before := MachineInt.toInt_sub against.index.toInt64 op.index.toInt64 (by omega) (by omega)
    have rest := MachineInt.toInt_sub (op.index.toInt64 + op.delete.toInt64)
      (against.index.toInt64 + against.delete.toInt64) (by omega) (by omega)
    have after := MachineInt.toInt_max (op.index.toInt64 + op.delete.toInt64 -
      (against.index.toInt64 + against.delete.toInt64)) 0
    have sum := MachineInt.toInt_add (against.index.toInt64 - op.index.toInt64)
      (max (op.index.toInt64 + op.delete.toInt64 - (against.index.toInt64 + against.delete.toInt64)) 0)
      (by omega) (by omega)
    congr 1
    rw [MachineInt.toNat_toUInt64 _ (by omega)]
    omega

end

theorem transformReplace_splice (ha : op.Fits) (hb : against.Fits) :
    (transformReplace op against).splice = op.splice.transform against.splice := by
  obtain ⟨aSpan,_⟩ := ha
  obtain ⟨bSpan,bInsert⟩ := hb
  exact transformReplace_room (by omega) (by omega) (by omega)

theorem transformOffset_toNat (span : op.index.toNat + op.delete.toNat < 2^64)
    (room : offset.toNat + op.insert.length < 2^64) :
    (transformOffset offset op).toNat =
      if offset.toNat ≤ op.index.toNat then offset.toNat
      else if op.index.toNat + op.delete.toNat ≤ offset.toNat then offset.toNat - op.delete.toNat + op.insert.length
      else op.index.toNat + op.insert.length := by
  have insertLen : op.insertLen.toNat = op.insert.length := MachineInt.toNat_ofNat _ (by omega)
  have sum := MachineInt.toNat_add op.index op.delete span
  unfold transformOffset
  by_cases before : offset ≤ op.index
  · rw [if_pos before,if_pos (UInt64.le_iff_toNat_le.mp before)]
  rw [if_neg before,if_neg (fun le => before (UInt64.le_iff_toNat_le.mpr le))]
  have after : op.index.toNat < offset.toNat := Nat.lt_of_not_le (fun le => before (UInt64.le_iff_toNat_le.mpr le))
  by_cases past : op.index + op.delete ≤ offset
  · have reach := UInt64.le_iff_toNat_le.mp past
    rw [sum] at reach
    have back : (offset - op.delete).toNat = offset.toNat - op.delete.toNat :=
      UInt64.toNat_sub_of_le _ _ (UInt64.le_iff_toNat_le.mpr (by omega))
    rw [if_pos past,if_pos reach,MachineInt.toNat_add _ _ (by omega),back,insertLen]
  · have inside : ¬op.index.toNat + op.delete.toNat ≤ offset.toNat :=
      fun le => past (UInt64.le_iff_toNat_le.mpr (by omega))
    rw [if_neg past,if_neg inside,MachineInt.toNat_add _ _ (by omega),insertLen]

theorem transformOffset_mono (span : op.index.toNat + op.delete.toNat < 2^64)
    (room : last.toNat + op.insert.length < 2^64) (order : first ≤ last) :
    transformOffset first op ≤ transformOffset last op := by
  have ordered := UInt64.le_iff_toNat_le.mp order
  have left := transformOffset_toNat span (by omega : first.toNat + op.insert.length < 2^64)
  have right := transformOffset_toNat span room
  rw [UInt64.le_iff_toNat_le,left,right]
  split_ifs <;> omega

end Ownly.Collab
