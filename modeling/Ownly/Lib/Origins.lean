import Ownly.Lib.Splice
import Mathlib

-- Where each element of a list comes from after two concurrent splices of it: a place of the
-- list that both were made on, or a place of what one of the two inserted.
inductive Origin where
  | original (position : Nat)
  | mine (offset : Nat)
  | theirs (offset : Nat)
  deriving DecidableEq, Repr

namespace Origin
open List Function
variable {α : Type*} {a b : Splice α} {n lo hi k m : Nat}

def position : Origin → Option Nat
  | original i => some i
  | _ => none

def isMine : Origin → Bool
  | mine _ => true
  | _ => false

def isTheirs : Origin → Bool
  | theirs _ => true
  | _ => false

def originals (lo hi : Nat) : List Origin := (List.range' lo (hi - lo)).map original

def mineBlock (n : Nat) : List Origin := (List.range n).map mine

def theirsBlock (n : Nat) : List Origin := (List.range n).map theirs

def Deletes (op : Splice α) (i : Nat) : Prop := op.index ≤ i ∧ i < op.stop

instance (op : Splice α) (i : Nat) : Decidable (Deletes op i) := inferInstanceAs (Decidable (_ ∧ _))

-- Both edits are there: what neither deleted, in its order and once each, and the two inserted
-- blocks, each in one piece and once.
structure KeepsBoth (n : Nat) (a b : Splice α) (trace : List Origin) : Prop where
  survivors : trace.filterMap position = (List.range n).filter (fun i => !decide (Deletes a i) && !decide (Deletes b i))
  mineOnce : trace.filter isMine = mineBlock a.insert.length
  mineWhole : mineBlock a.insert.length <:+: trace
  theirsOnce : trace.filter isTheirs = theirsBlock b.insert.length
  theirsWhole : theirsBlock b.insert.length <:+: trace

def marked (op : Splice α) (block : List Origin) : Splice Origin := ⟨op.index,op.delete,block⟩

def trace (n : Nat) (a b : Splice α) : List Origin :=
  Splice.apply (Splice.apply (originals 0 n) (marked b (theirsBlock b.insert.length)))
    ((marked a (mineBlock a.insert.length)).transform (marked b (theirsBlock b.insert.length)))

@[simp] theorem length_originals : (originals lo hi).length = hi - lo := by simp [originals]

@[simp] theorem length_theirsBlock : (theirsBlock n).length = n := by simp [theirsBlock]

@[simp] theorem positions_originals : (originals lo hi).filterMap position = List.range' lo (hi - lo) := by
  simp [originals,filterMap_map,comp_def,position]

@[simp] theorem positions_mineBlock : (mineBlock n).filterMap position = [] := by
  simp [mineBlock,filterMap_map,comp_def,position]

@[simp] theorem positions_theirsBlock : (theirsBlock n).filterMap position = [] := by
  simp [theirsBlock,filterMap_map,comp_def,position]

@[simp] theorem mine_originals : (originals lo hi).filter isMine = [] := by
  simp [originals,filter_map,comp_def,isMine]

@[simp] theorem mine_mineBlock : (mineBlock n).filter isMine = mineBlock n := by
  simp [mineBlock,filter_map,comp_def,isMine]

@[simp] theorem mine_theirsBlock : (theirsBlock n).filter isMine = [] := by
  simp [theirsBlock,filter_map,comp_def,isMine]

@[simp] theorem theirs_originals : (originals lo hi).filter isTheirs = [] := by
  simp [originals,filter_map,comp_def,isTheirs]

@[simp] theorem theirs_mineBlock : (mineBlock n).filter isTheirs = [] := by
  simp [mineBlock,filter_map,comp_def,isTheirs]

@[simp] theorem theirs_theirsBlock : (theirsBlock n).filter isTheirs = theirsBlock n := by
  simp [theirsBlock,filter_map,comp_def,isTheirs]

theorem originals_split (low : lo ≤ m) (high : m ≤ hi) : originals lo hi = originals lo m ++ originals m hi := by
  have width : hi - lo = (m - lo) + (hi - m) := by omega
  have start : lo + (m - lo) = m := by omega
  rw [originals,originals,originals,width,range'_append_1.symm,start,map_append]

section
variable {p q r s : Nat} (first : p ≤ q) (second : q ≤ r) (third : r ≤ s) (last : s ≤ n)
variable (alive : ∀ i, i < n → (¬Deletes a i ∧ ¬Deletes b i ↔ i < p ∨ q ≤ i ∧ i < r ∨ s ≤ i))
include first second third last alive

theorem survivors_runs :
    List.range' 0 p ++ List.range' q (r - q) ++ List.range' s (n - s) =
      (List.range n).filter (fun i => !decide (Deletes a i) && !decide (Deletes b i)) := by
  have left : (List.range' 0 p ++ List.range' q (r - q) ++ List.range' s (n - s)).Pairwise (· < ·) := by
    simp only [pairwise_append,mem_append,mem_range'_1]
    refine ⟨⟨pairwise_lt_range',pairwise_lt_range',?_⟩,pairwise_lt_range',?_⟩
    · intro i before j after
      omega
    · intro i before j after
      omega
  have right : ((List.range n).filter (fun i => !decide (Deletes a i) && !decide (Deletes b i))).Pairwise (· < ·) :=
    pairwise_lt_range.filter _
  refine left.eq_of_mem_iff right (fun i => ?_)
  simp only [mem_append,mem_range'_1,mem_filter,mem_range,Bool.and_eq_true,
    Bool.not_eq_true',decide_eq_false_iff_not]
  constructor
  · intro inside
    have bound : i < n := by omega
    exact ⟨bound,(alive i bound).mpr (by omega)⟩
  · rintro ⟨bound,free⟩
    have := (alive i bound).mp free
    omega

theorem keepsBoth_mine_first :
    KeepsBoth n a b (originals 0 p ++ mineBlock a.insert.length ++ originals q r ++ theirsBlock b.insert.length ++
      originals s n) where
  survivors := by
    rw [← survivors_runs first second third last alive]
    simp
  mineOnce := by simp
  mineWhole := ⟨originals 0 p,originals q r ++ theirsBlock b.insert.length ++ originals s n,by simp⟩
  theirsOnce := by simp
  theirsWhole := ⟨originals 0 p ++ mineBlock a.insert.length ++ originals q r,originals s n,by simp⟩

theorem keepsBoth_theirs_first :
    KeepsBoth n a b (originals 0 p ++ theirsBlock b.insert.length ++ originals q r ++ mineBlock a.insert.length ++
      originals s n) where
  survivors := by
    rw [← survivors_runs first second third last alive]
    simp
  mineOnce := by simp
  mineWhole := ⟨originals 0 p ++ theirsBlock b.insert.length ++ originals q r,originals s n,by simp⟩
  theirsOnce := by simp
  theirsWhole := ⟨originals 0 p,originals q r ++ mineBlock a.insert.length ++ originals s n,by simp⟩

end

theorem apply_originals (order : b.stop ≤ n) (block : List Origin) :
    Splice.apply (originals 0 n) (marked b block) = originals 0 b.index ++ block ++ originals b.stop n := by
  have inner : b.index ≤ b.stop := Nat.le_add_right _ _
  rw [originals_split (Nat.zero_le b.index) (by omega : b.index ≤ n),originals_split inner order,← append_assoc]
  refine Splice.apply_mid (by simp [marked]) ?_
  simp [marked,Splice.stop]

theorem transform_marked (block other : List Origin) (size : other.length = b.insert.length) :
    (marked a block).transform (marked b other) = marked (a.transform b) block := by
  simp only [Splice.transform,apply_ite (fun op => marked op block)]
  simp only [marked,Splice.stop,size]
  rfl

section
variable (hb : b.stop ≤ n)
include hb

theorem trace_eq : trace n a b =
    Splice.apply (originals 0 b.index ++ theirsBlock b.insert.length ++ originals b.stop n)
      (marked (a.transform b) (mineBlock a.insert.length)) := by
  rw [trace,apply_originals hb,transform_marked _ _ length_theirsBlock]

theorem trace_behind (ha : a.stop ≤ n) (behind : b.stop ≤ a.index) :
    trace n a b = originals 0 b.index ++ theirsBlock b.insert.length ++ originals b.stop a.index ++
      mineBlock a.insert.length ++ originals a.stop n := by
  have inner : a.index ≤ a.stop := Nat.le_add_right _ _
  have span : b.stop = b.index + b.delete := rfl
  rw [trace_eq hb,originals_split behind (by omega : a.index ≤ n),originals_split inner ha,Splice.transform,
    if_pos behind,← append_assoc,← append_assoc]
  refine Splice.apply_mid ?_ ?_
  · simp [marked]
    omega
  · simp [marked,Splice.stop]

theorem trace_front (apart : ¬b.stop ≤ a.index) (front : a.stop ≤ b.index) :
    trace n a b = originals 0 a.index ++ mineBlock a.insert.length ++ originals a.stop b.index ++
      theirsBlock b.insert.length ++ originals b.stop n := by
  have inner : a.index ≤ a.stop := Nat.le_add_right _ _
  rw [trace_eq hb,originals_split (Nat.zero_le a.stop) front,originals_split (Nat.zero_le a.index) inner,Splice.transform,
    if_neg apart,if_pos front]
  simp only [append_assoc]
  rw [← append_assoc (originals 0 a.index) (originals a.index a.stop),← append_assoc (originals 0 a.index)]
  refine Splice.apply_mid ?_ ?_
  · simp [marked]
  · simp [marked,Splice.stop]

theorem trace_meeting (ha : a.stop ≤ n) (apart : ¬b.stop ≤ a.index) (reach : ¬a.stop ≤ b.index)
    (into : b.index ≤ a.index) :
    trace n a b = originals 0 b.index ++ theirsBlock b.insert.length ++ originals b.index b.index ++
      mineBlock a.insert.length ++ originals (max a.stop b.stop) n := by
  rw [trace_eq hb,originals_split (by omega : b.stop ≤ max a.stop b.stop) (by omega : max a.stop b.stop ≤ n),
    Splice.transform,if_neg apart,if_neg reach,if_pos into,← append_assoc]
  have none_ : originals b.index b.index = [] := by simp [originals]
  rw [none_,append_nil]
  refine Splice.apply_mid ?_ ?_
  · simp [marked]
  · simp [marked]
    omega

theorem trace_around (ha : a.stop ≤ n) (reach : ¬a.stop ≤ b.index) (into : ¬b.index ≤ a.index) :
    trace n a b = originals 0 a.index ++ mineBlock a.insert.length ++
      (theirsBlock b.insert.length ++ originals b.stop n).drop (a.stop - b.stop) := by
  have apart : ¬b.stop ≤ a.index := by unfold Splice.stop; omega
  have split := originals_split (Nat.zero_le a.index) (by omega : a.index ≤ b.index)
  rw [trace_eq hb,split,Splice.transform,if_neg apart,if_neg reach,if_neg into]
  have cut : originals 0 a.index ++ originals a.index b.index ++ theirsBlock b.insert.length ++ originals b.stop n =
      originals 0 a.index ++ (originals a.index b.index ++
        (theirsBlock b.insert.length ++ originals b.stop n).take (a.stop - b.stop)) ++
          (theirsBlock b.insert.length ++ originals b.stop n).drop (a.stop - b.stop) := by
    simp only [append_assoc,take_append_drop]
  rw [cut]
  refine Splice.apply_mid ?_ ?_
  · simp [marked]
  · simp [marked]
    omega

end

theorem theirs_zero_cut (wide : 0 < k) :
    theirs 0 ∉ originals 0 lo ++ mineBlock m ++ (theirsBlock n ++ originals hi j).drop k := by
  obtain ⟨k,rfl⟩ := Nat.exists_eq_succ_of_ne_zero (by omega : k ≠ 0)
  intro there
  have inside : theirs 0 ∈ (theirsBlock n ++ originals hi j).drop (k + 1) := by
    simpa [originals,mineBlock] using there
  cases n with
  | zero => simpa [theirsBlock,originals] using mem_of_mem_drop inside
  | succ n =>
    rw [theirsBlock,range_succ_eq_map,map_cons,cons_append,drop_succ_cons] at inside
    simpa [originals] using mem_of_mem_drop inside

-- Both edits survive unless `b` inserts something strictly inside a span of `a` that goes on
-- behind the one of `b`.
theorem keepsBoth_iff (hb : b.stop ≤ n) (ha : a.stop ≤ n) :
    KeepsBoth n a b (trace n a b) ↔ (a.index < b.index → b.stop < a.stop → b.insert = []) := by
  have span : b.stop = b.index + b.delete := rfl
  have reachA : a.stop = a.index + a.delete := rfl
  by_cases behind : b.stop ≤ a.index
  · refine iff_of_true ?_ (fun inside => by omega)
    rw [trace_behind hb ha behind]
    refine keepsBoth_theirs_first (by omega) behind (by omega) ha (fun i bound => ?_)
    unfold Deletes
    omega
  by_cases front : a.stop ≤ b.index
  · refine iff_of_true ?_ (fun _ past => by omega)
    rw [trace_front hb behind front]
    refine keepsBoth_mine_first (by omega) front (by omega) hb (fun i bound => ?_)
    unfold Deletes
    omega
  by_cases into : b.index ≤ a.index
  · refine iff_of_true ?_ (fun inside => by omega)
    rw [trace_meeting hb ha behind front into]
    refine keepsBoth_theirs_first (by omega) (by omega) (by omega) (by omega) (fun i bound => ?_)
    unfold Deletes
    omega
  rw [trace_around hb ha front into]
  constructor
  · intro both inside past
    by_contra some_
    have least : theirs 0 ∈ theirsBlock b.insert.length := by
      simpa [theirsBlock,length_pos_iff] using some_
    have wide : 0 < a.stop - b.stop := by omega
    exact theirs_zero_cut wide (both.theirsWhole.subset least)
  · intro whole
    have kept : (theirsBlock b.insert.length ++ originals b.stop n).drop (a.stop - b.stop) =
        theirsBlock b.insert.length ++ originals (max a.stop b.stop) n := by
      by_cases past : b.stop < a.stop
      · have none_ := whole (by omega) past
        rw [none_,length_nil,originals_split (by omega : b.stop ≤ a.stop) ha,max_eq_left (by omega)]
        simp [theirsBlock]
      · rw [Nat.sub_eq_zero_of_le (by omega),max_eq_right (by omega),drop_zero]
    rw [kept,← append_assoc]
    have both := keepsBoth_mine_first (n := n) (a := a) (b := b) (p := a.index) (q := a.index) (r := a.index)
      (s := max a.stop b.stop) le_rfl le_rfl (by omega) (by omega) (fun i bound => by unfold Deletes; omega)
    simpa [originals] using both

end Origin
