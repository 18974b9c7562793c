import Ownly.Lib.Spread

-- frontend/src/lib/collab/ot/text.ts: the one replacement that leads from a text to another.
namespace Ownly.Collab.PlainDiff
open JsString
open List

structure TextReplace where
  index : Nat
  delete : Nat
  insert : Str
  deriving DecidableEq, Repr

def applyReplace (text : Str) (op : TextReplace) : Str :=
  let chars := spread text
  let len := chars.length
  let index := min op.index len
  let stop := min (index + op.delete) len
  (chars.take index).flatten ++ op.insert ++ (chars.drop stop).flatten

-- The first loop: `start` goes on over what both texts begin with.
def commonStart (beforeChars afterChars : List Str) (minLen start : Nat) : Nat :=
  if start < minLen ∧ beforeChars[start]? = afterChars[start]? then
    commonStart beforeChars afterChars minLen (start + 1)
  else start
termination_by minLen - start

-- The second loop: both ends go back over what both texts end with, never past `start`.
def commonEnd (beforeChars afterChars : List Str) (start endBefore endAfter : Nat) : Nat × Nat :=
  if start < endBefore ∧ start < endAfter ∧ beforeChars[endBefore - 1]? = afterChars[endAfter - 1]? then
    commonEnd beforeChars afterChars start (endBefore - 1) (endAfter - 1)
  else (endBefore,endAfter)
termination_by endBefore

def diffPlainText (before after : Str) : Option TextReplace :=
  if before = after then none
  else
    let beforeChars := spread before
    let afterChars := spread after
    let start := commonStart beforeChars afterChars (min beforeChars.length afterChars.length) 0
    let ends := commonEnd beforeChars afterChars start beforeChars.length afterChars.length
    some ⟨start,ends.1 - start,((afterChars.drop start).take (ends.2 - start)).flatten⟩

variable {before after : List Str} {start minLen endBefore endAfter : Nat}

-- Where the first loop may stop: in front of it both texts are the same.
structure StartsAt (before after : List Str) (minLen start : Nat) : Prop where
  room : start ≤ minLen
  same : ∀ i < start, before[i]? = after[i]?

-- Where the second loop may stop: behind the ends both texts are the same.
structure EndsAt (before after : List Str) (start endBefore endAfter : Nat) : Prop where
  lowBefore : start ≤ endBefore
  lowAfter : start ≤ endAfter
  insideBefore : endBefore ≤ before.length
  insideAfter : endAfter ≤ after.length
  same : before.drop endBefore = after.drop endAfter

theorem commonStart_spec (at_ : StartsAt before after minLen start) :
    StartsAt before after minLen (commonStart before after minLen start) ∧
    (commonStart before after minLen start < minLen →
      before[commonStart before after minLen start]? ≠ after[commonStart before after minLen start]?) := by
  induction start using commonStart.induct before after minLen with
  | case1 start more ih =>
    rw [commonStart,if_pos more]
    apply ih
    refine ⟨more.1,fun i below => ?_⟩
    rcases Nat.lt_succ_iff_lt_or_eq.mp below with earlier | rfl
    · exact at_.same i earlier
    · exact more.2
  | case2 start done =>
    rw [commonStart,if_neg done]
    exact ⟨at_,fun inside equal => done ⟨inside,equal⟩⟩

theorem commonEnd_spec (at_ : EndsAt before after start endBefore endAfter) :
    EndsAt before after start (commonEnd before after start endBefore endAfter).1
      (commonEnd before after start endBefore endAfter).2 ∧
    (start < (commonEnd before after start endBefore endAfter).1 →
      start < (commonEnd before after start endBefore endAfter).2 →
      before[(commonEnd before after start endBefore endAfter).1 - 1]? ≠
        after[(commonEnd before after start endBefore endAfter).2 - 1]?) := by
  induction endBefore,endAfter using commonEnd.induct before after start with
  | case1 endBefore endAfter more ih =>
    rw [commonEnd,if_pos more]
    apply ih
    obtain ⟨lowBefore,lowAfter,equal⟩ := more
    obtain ⟨_,_,insideBefore,insideAfter,same⟩ := at_
    refine ⟨by omega,by omega,by omega,by omega,?_⟩
    have first : before.drop (endBefore - 1) = before[endBefore - 1]?.toList ++ before.drop (endBefore - 1 + 1) :=
      drop_eq_getElem?_toList_append
    have second : after.drop (endAfter - 1) = after[endAfter - 1]?.toList ++ after.drop (endAfter - 1 + 1) :=
      drop_eq_getElem?_toList_append
    rw [Nat.sub_add_cancel (by omega)] at first second
    rw [first,second,equal,same]
  | case2 endBefore endAfter done =>
    rw [commonEnd,if_neg done]
    exact ⟨at_,fun lowBefore lowAfter equal => done ⟨lowBefore,lowAfter,equal⟩⟩

def replaced (before : Str) (diff : TextReplace) : List Str := ((spread before).drop diff.index).take diff.delete

-- A replacement that leads from the one text to the other and keeps as much as one can: what it
-- deletes and what it inserts begin with no common character and end with none.
structure Minimal (before after : Str) (diff : TextReplace) : Prop where
  exact_ : applyReplace before diff = after
  inside : diff.index + diff.delete ≤ (spread before).length
  kept : spread after = (spread before).take diff.index ++ spread diff.insert ++
    (spread before).drop (diff.index + diff.delete)
  noneFirst : ∀ c, (replaced before diff).head? = some c → (spread diff.insert).head? ≠ some c
  noneLast : ∀ c, (replaced before diff).getLast? = some c → (spread diff.insert).getLast? ≠ some c

theorem block_head (start stop : Nat) (wide : start < stop) :
    ((before.drop start).take (stop - start)).head? = before[start]? := by
  rw [head?_take,if_neg (by omega),head?_drop]

theorem block_last (start stop : Nat) (wide : start < stop) (inside : stop ≤ before.length) :
    ((before.drop start).take (stop - start)).getLast? = before[stop - 1]? := by
  rw [getLast?_eq_getElem?,length_take,length_drop,getElem?_take_of_lt (by omega),getElem?_drop]
  congr 1
  omega

theorem both_wide {reading : List Str → Option Str} (mine : reading ((before.drop start).take (endBefore - start)) = some c)
    (theirs : reading ((after.drop start).take (endAfter - start)) = some c) (empty : reading [] = none) :
    start < endBefore ∧ start < endAfter := by
  constructor
  · by_contra narrow
    rw [Nat.sub_eq_zero_of_le (by omega),take_zero,empty] at mine
    cases mine
  · by_contra narrow
    rw [Nat.sub_eq_zero_of_le (by omega),take_zero,empty] at theirs
    cases theirs

theorem diff_minimal {before after : Str} {start endBefore endAfter : Nat}
    (starts : StartsAt (spread before) (spread after) (min (spread before).length (spread after).length) start)
    (ends : EndsAt (spread before) (spread after) start endBefore endAfter)
    (first : start < endBefore → start < endAfter → (spread before)[start]? ≠ (spread after)[start]?)
    (last : start < endBefore → start < endAfter → (spread before)[endBefore - 1]? ≠ (spread after)[endAfter - 1]?) :
    Minimal before after ⟨start,endBefore - start,(((spread after).drop start).take (endAfter - start)).flatten⟩ := by
  obtain ⟨lowBefore,lowAfter,insideBefore,insideAfter,same⟩ := ends
  have front : (spread before).take start = (spread after).take start := by
    apply ext_getElem?
    intro i
    by_cases below : i < start
    · rw [getElem?_take_of_lt below,getElem?_take_of_lt below,starts.same i below]
    · rw [getElem?_take_eq_none (by omega),getElem?_take_eq_none (by omega)]
  have stop : start + (endBefore - start) = endBefore := by omega
  have kept : spread after = (spread before).take start ++ ((spread after).drop start).take (endAfter - start) ++
      (spread before).drop endBefore := by
    have width : endAfter = start + (endAfter - start) := by omega
    rw [front,same,width,Nat.add_sub_cancel_left,append_assoc,← drop_drop,take_append_drop,
      take_append_drop]
  refine ⟨?_,?_,?_,?_,?_⟩
  · have whole := congrArg List.flatten kept
    rw [spread_flatten,flatten_append,flatten_append] at whole
    simp only [applyReplace]
    rw [min_eq_left (by omega : start ≤ (spread before).length),stop,min_eq_left insideBefore]
    exact whole.symm
  · simp only [stop]
    exact insideBefore
  · simp only [spread_block,stop]
    exact kept
  · intro c mine theirs
    simp only [spread_block] at theirs
    obtain ⟨wide,wider⟩ := both_wide mine theirs rfl
    rw [replaced,block_head start endBefore wide] at mine
    rw [block_head start endAfter wider] at theirs
    exact first wide wider (mine.trans theirs.symm)
  · intro c mine theirs
    simp only [spread_block] at theirs
    obtain ⟨wide,wider⟩ := both_wide mine theirs rfl
    rw [replaced,block_last start endBefore wide insideBefore] at mine
    rw [block_last start endAfter wider insideAfter] at theirs
    exact last wide wider (mine.trans theirs.symm)

theorem diffPlainText_minimal (before after : Str) :
    match diffPlainText before after with
    | none => before = after
    | some diff => before ≠ after ∧ Minimal before after diff := by
  by_cases same : before = after
  · simp [diffPlainText,same]
  have opening : StartsAt (spread before) (spread after) (min (spread before).length (spread after).length) 0 :=
    ⟨by omega,fun i below => by omega⟩
  obtain ⟨starts,first⟩ := commonStart_spec opening
  have closing : EndsAt (spread before) (spread after)
      (commonStart (spread before) (spread after) (min (spread before).length (spread after).length) 0)
      (spread before).length (spread after).length := by
    have room := starts.room
    exact ⟨by omega,by omega,le_rfl,le_rfl,by simp⟩
  obtain ⟨ends,last⟩ := commonEnd_spec closing
  simp only [diffPlainText,if_neg same]
  refine ⟨same,diff_minimal starts ends (fun wide wider => first ?_) last⟩
  have insideBefore := ends.insideBefore
  have insideAfter := ends.insideAfter
  omega

end Ownly.Collab.PlainDiff
