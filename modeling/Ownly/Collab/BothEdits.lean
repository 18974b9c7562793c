import Ownly.Collab.OtText
import Ownly.Lib.Origins

-- What is left of two concurrent edits of one text once the one is applied and the other one
-- is moved past it, told by where each character comes from.
namespace Ownly.Collab
open List
variable {text : Text} {op a b : TextReplace}

-- `apply_replace` on characters that carry their origin along.
def applyMarked (chars : List Origin) (op : TextReplace) (block : List Origin) : List Origin :=
  let len := UInt64.ofNat chars.length
  let index := min op.index len
  let stop := min (index + op.delete) len
  chars.take index.toNat ++ block ++ chars.drop stop.toNat

def bothEdits (text : Text) (a b : TextReplace) : Text := applyReplace (applyReplace text b) (transformReplace a b)

def bothMarked (text : Text) (a b : TextReplace) : List Origin :=
  applyMarked (applyMarked (Origin.originals 0 text.length) b (Origin.theirsBlock b.insert.length)) (transformReplace a b)
    (Origin.mineBlock a.insert.length)

def PreservesBoth (text : Text) (a b : TextReplace) : Prop :=
  Origin.KeepsBoth text.length a.splice b.splice (bothMarked text a b)

-- `b` inserts strictly inside what `a` deletes, and `a` deletes on behind what `b` deletes.
def Swallows (a b : TextReplace) : Prop :=
  a.index.toNat < b.index.toNat ∧ b.index.toNat + b.delete.toNat < a.index.toNat + a.delete.toNat ∧ b.insert ≠ []

theorem applyMarked_splice {chars : List Origin} (block : List Origin) (span : op.index.toNat + op.delete.toNat < 2^64)
    (small : chars.length < 2^64) :
    applyMarked chars op block = Splice.apply chars (Origin.marked op.splice block) := by
  obtain ⟨start,stop⟩ := replace_cuts span small
  simp only [applyMarked,Splice.apply,Splice.stop,Origin.marked,TextReplace.splice,start,stop]
  rw [← take_eq_take_min,← drop_eq_drop_min]

-- `with_capacity` aborts where a text and what is inserted into it pass isize::MAX, so that
-- a position behind the insertion has room.
theorem bothMarked_trace (inA : a.splice.stop ≤ text.length) (inB : b.splice.stop ≤ text.length)
    (room : text.length + b.insert.length < 2^63) :
    bothMarked text a b = Origin.trace text.length a.splice b.splice := by
  have spanA : a.index.toNat + a.delete.toNat ≤ text.length := inA
  have spanB : b.index.toNat + b.delete.toNat ≤ text.length := inB
  have moved : (transformReplace a b).splice = a.splice.transform b.splice :=
    transformReplace_room (by omega) (by omega) (by omega)
  have theirs : Splice.InBounds (Origin.originals 0 text.length)
      (Origin.marked b.splice (Origin.theirsBlock b.insert.length)) := by
    rw [Splice.InBounds,Origin.length_originals]
    exact inB
  have mine : Splice.InBounds (Origin.originals 0 text.length)
      (Origin.marked a.splice (Origin.mineBlock a.insert.length)) := by
    rw [Splice.InBounds,Origin.length_originals]
    exact inA
  have reach := Splice.transform_bounded theirs mine
  have shape : (Origin.theirsBlock b.insert.length).length = b.splice.insert.length := Origin.length_theirsBlock
  rw [Splice.InBounds,Origin.transform_marked _ _ shape,Origin.apply_originals inB,← moved] at reach
  have span : (transformReplace a b).index.toNat + (transformReplace a b).delete.toNat ≤
      text.length + b.insert.length := by
    refine Nat.le_trans reach ?_
    simp only [length_append,Origin.length_originals,Origin.length_theirsBlock,TextReplace.splice,Splice.stop]
    omega
  have size : (Origin.originals 0 b.splice.index ++ Origin.theirsBlock b.insert.length ++
      Origin.originals b.splice.stop text.length).length < 2^64 := by
    simp only [length_append,Origin.length_originals,Origin.length_theirsBlock,TextReplace.splice,Splice.stop]
    omega
  have once : applyMarked (Origin.originals 0 text.length) b (Origin.theirsBlock b.insert.length) =
      Origin.originals 0 b.splice.index ++ Origin.theirsBlock b.insert.length ++
        Origin.originals b.splice.stop text.length := by
    rw [applyMarked_splice _ (by omega) (by rw [Origin.length_originals]; omega),Origin.apply_originals inB]
  rw [bothMarked,once,applyMarked_splice _ (by omega) size,moved,Origin.trace_eq inB]
  rfl

theorem transformReplace_preserves_both (inA : a.splice.stop ≤ text.length) (inB : b.splice.stop ≤ text.length)
    (room : text.length + b.insert.length < 2^63) : PreservesBoth text a b ↔ ¬Swallows a b := by
  rw [PreservesBoth,bothMarked_trace inA inB room,Origin.keepsBoth_iff inB inA]
  simp only [Swallows,TextReplace.splice,Splice.stop]
  tauto

theorem transformReplace_preserves_both_apart : PreservesBoth ['a','b','c','d'] ⟨0,1,['X']⟩ ⟨2,1,['Y','Z']⟩ :=
  (transformReplace_preserves_both (by decide) (by decide) (by decide)).mpr (by unfold Swallows; decide)

theorem transformReplace_swallows :
    bothEdits ['a','b','c','d'] ⟨0,4,[]⟩ ⟨2,0,['X','Y']⟩ = ['c','d'] ∧
    ¬PreservesBoth ['a','b','c','d'] ⟨0,4,[]⟩ ⟨2,0,['X','Y']⟩ := by
  refine ⟨by decide,fun both => ?_⟩
  exact absurd both.survivors (by decide)

end Ownly.Collab
