import Mathlib.Data.List.Basic

-- Replacing a run of a list by another list, and moving one replacement past a
-- concurrent one. Positions count elements; nothing here knows about texts.
structure Splice (α : Type*) where
  index : Nat
  delete : Nat
  insert : List α
  deriving DecidableEq, Repr

namespace Splice
open List
variable {α : Type*} {text p q x y m s u : List α} {a b op against : Splice α}

def stop (op : Splice α) : Nat := op.index + op.delete

def apply (text : List α) (op : Splice α) : List α :=
  text.take op.index ++ op.insert ++ text.drop op.stop

def InBounds (text : List α) (op : Splice α) : Prop := op.stop ≤ text.length

instance (text : List α) (op : Splice α) : Decidable (InBounds text op) := inferInstanceAs (Decidable (_ ≤ _))

-- Both splices were made on one list and `against` has been applied to it. Where
-- they overlap, the result deletes what is left of the span of `op`.
def transform (op against : Splice α) : Splice α :=
  if against.stop ≤ op.index then
    {op with index := op.index - against.delete + against.insert.length}
  else if op.stop ≤ against.index then op
  else if against.index ≤ op.index then
    ⟨against.index + against.insert.length,op.stop - against.stop,op.insert⟩
  else {op with delete := (against.index - op.index) + (op.stop - against.stop)}

def transformThrough (op : Splice α) (against : List (Splice α)) : Splice α := against.foldl transform op

@[simp] theorem transform_insert (op against : Splice α) : (op.transform against).insert = op.insert := by
  unfold transform
  split_ifs <;> rfl

@[simp] theorem stop_mk (i d : Nat) (s : List α) : stop ⟨i,d,s⟩ = i + d := rfl

theorem cut (bounded : InBounds text op) :
    ∃ p x q, text = p ++ x ++ q ∧ p.length = op.index ∧ x.length = op.delete := by
  have bound : op.index + op.delete ≤ text.length := bounded
  refine ⟨text.take op.index,(text.drop op.index).take op.delete,text.drop op.stop,?_,?_,?_⟩
  · rw [append_assoc,stop,← drop_drop,take_append_drop,take_append_drop]
  · rw [length_take]; omega
  · rw [length_take,length_drop]; omega

theorem apply_mid (start : p.length = op.index) (span : x.length = op.delete) :
    apply (p ++ x ++ q) op = p ++ op.insert ++ q := by
  simp [apply,stop,← start,← span,drop_append,append_assoc]

theorem length_apply (bounded : InBounds text op) :
    (apply text op).length + op.delete = text.length + op.insert.length := by
  obtain ⟨p,x,q,rfl,start,span⟩ := cut bounded
  rw [apply_mid start span]
  simp only [length_append]
  omega

def segment (text : List α) (start finish : Nat) : List α := (text.drop start).take (finish - start)

theorem segment_past_end (past : text.length ≤ start) : segment text start finish = [] := by
  rw [segment,drop_eq_nil_of_le past,take_nil]

theorem segment_ne_nil (inside : start < text.length) (wide : start < finish) : segment text start finish ≠ [] := by
  intro empty
  have none := congrArg List.length empty
  rw [segment,length_take,length_drop,length_nil] at none
  omega

theorem segment_before (bounded : InBounds text op) (before : finish ≤ op.index) :
    segment (apply text op) start finish = segment text start finish := by
  obtain ⟨p,x,q,rfl,first,span⟩ := cut bounded
  rw [apply_mid first span,segment,segment,← drop_take,← drop_take,append_assoc,append_assoc,
    take_append_of_le_length (by omega),take_append_of_le_length (by omega)]

theorem segment_behind (bounded : InBounds text op) (behind : op.stop ≤ start) (order : start ≤ finish) :
    segment (apply text op) (start - op.delete + op.insert.length) (finish - op.delete + op.insert.length) =
      segment text start finish := by
  obtain ⟨p,x,q,rfl,first,span⟩ := cut bounded
  obtain ⟨past,rfl⟩ := Nat.exists_eq_add_of_le behind
  have after : op.stop + past - op.delete + op.insert.length = (p ++ op.insert).length + past := by
    rw [length_append,stop]
    omega
  have same : op.stop + past = (p ++ x).length + past := by rw [length_append,first,span,stop]
  have width : finish - op.delete + op.insert.length - (op.stop + past - op.delete + op.insert.length) =
      finish - (op.stop + past) := by
    rw [stop] at order ⊢
    omega
  rw [apply_mid first span,segment,segment,width,after,same,drop_length_add_append,drop_length_add_append]

theorem transform_bounded (ha : InBounds text a) (hb : InBounds text b) :
    InBounds (apply text a) (b.transform a) := by
  have size := length_apply ha
  unfold InBounds stop at *
  unfold transform stop
  split_ifs with left right into
  · dsimp only; omega
  · omega
  · dsimp only; omega
  · dsimp only; omega

theorem transform_reach (ha : InBounds text a) (reach : b.stop ≤ text.length + extra) :
    (b.transform a).stop ≤ (apply text a).length + extra := by
  have size := length_apply ha
  unfold InBounds stop at *
  unfold transform stop
  split_ifs with left right into
  · dsimp only; omega
  · omega
  · dsimp only; omega
  · dsimp only; omega

-- Where a span of `delete` elements starts past another splice; a span that shares
-- an element with it, or has one inserted place swallowed, keeps no such start.
def slide (delete index : Nat) (against : Splice α) : Option Nat :=
  if against.stop ≤ index then some (index - against.delete + against.insert.length)
  else if index + delete ≤ against.index then some index
  else if delete = 0 then some (against.index + against.insert.length)
  else if index < against.index ∧ against.delete = 0 then some index
  else none

def slides (delete index : Nat) : List (Splice α) → Option Nat
  | [] => some index
  | against :: rest => (slide delete index against).bind (slides delete · rest)

theorem transform_slide (slid : slide op.delete op.index against = some j) : op.transform against = {op with index := j} := by
  have reach : op.stop = op.index + op.delete := rfl
  unfold slide at slid
  rw [transform,reach]
  by_cases left : against.stop ≤ op.index
  · rw [if_pos left] at slid ⊢
    cases slid
    rfl
  rw [if_neg left] at slid ⊢
  by_cases right : op.index + op.delete ≤ against.index
  · rw [if_pos right] at slid ⊢
    cases slid
    rfl
  rw [if_neg right] at slid ⊢
  unfold stop at left
  by_cases point : op.delete = 0
  · rw [if_pos point] at slid
    cases slid
    rw [if_pos (by omega)]
    simp only [stop,point]
    congr 1
    omega
  · rw [if_neg point] at slid
    split at slid
    · rename_i inner
      cases slid
      rw [if_neg (by omega)]
      simp only [stop,inner.2]
      congr 1
      omega
    · cases slid

theorem transformThrough_slides {against : List (Splice α)} (slid : slides op.delete op.index against = some j) :
    op.transformThrough against = {op with index := j} := by
  induction against generalizing op with
  | nil =>
    cases slid
    rfl
  | cons first rest ih =>
    obtain ⟨i,moved,slid⟩ := Option.bind_eq_some_iff.mp slid
    rw [transformThrough,foldl_cons,transform_slide moved]
    exact @ih {op with index := i} slid

theorem cut_apart (bounded : InBounds text b) (apart : a.stop ≤ b.index) :
    ∃ p x m y q, text = p ++ x ++ m ++ y ++ q ∧ p.length = a.index ∧ x.length = a.delete ∧
      (p ++ x ++ m).length = b.index ∧ y.length = b.delete := by
  obtain ⟨left,y,q,rfl,start,span⟩ := cut bounded
  have inside : InBounds left a := by rw [InBounds,start]; exact apart
  obtain ⟨p,x,m,rfl,first,width⟩ := cut inside
  exact ⟨p,x,m,y,q,rfl,first,width,start,span⟩

theorem converge_apart (bounded : InBounds text b) (apart : a.stop ≤ b.index)
    (untied : ¬(a.index = b.index ∧ a.delete = 0 ∧ b.delete = 0)) :
    apply (apply text b) (a.transform b) = apply (apply text a) (b.transform a) := by
  obtain ⟨p,x,m,y,q,rfl,first,width,start,span⟩ := cut_apart bounded apart
  have kept : a.transform b = a := by
    unfold transform stop at *
    rw [if_neg (by omega),if_pos apart]
  have moved : b.transform a = {b with index := b.index - a.delete + a.insert.length} := by
    rw [transform,if_pos apart]
  have afterA : apply (p ++ x ++ m ++ y ++ q) a = (p ++ a.insert ++ m) ++ y ++ q := by
    have one : apply (p ++ x ++ (m ++ y ++ q)) a = p ++ a.insert ++ (m ++ y ++ q) := apply_mid first width
    simpa only [append_assoc] using one
  have afterB : apply (p ++ x ++ m ++ y ++ q) b = p ++ x ++ (m ++ b.insert ++ q) := by
    rw [apply_mid start span]
    simp only [append_assoc]
  have shifted : (p ++ a.insert ++ m).length = b.index - a.delete + a.insert.length := by
    simp only [length_append] at start ⊢
    omega
  have last : apply ((p ++ a.insert ++ m) ++ y ++ q) {b with index := b.index - a.delete + a.insert.length} =
      (p ++ a.insert ++ m) ++ b.insert ++ q := apply_mid shifted span
  rw [kept,moved,afterA,afterB,apply_mid first width,last]
  simp only [append_assoc]

theorem apply_same_start (start : p.length = b.index) (same : a.index = b.index)
    (both : a.delete = 0 ↔ b.delete = 0) :
    apply (apply (p ++ q) b) (a.transform b) =
      p ++ b.insert ++ a.insert ++ q.drop (max a.delete b.delete) := by
  have afterB : apply (p ++ q) b = p ++ b.insert ++ q.drop b.delete := by
    simp [apply,stop,← start,drop_append]
  have moved : a.transform b = ⟨b.index + b.insert.length,a.delete - b.delete,a.insert⟩ := by
    unfold transform stop
    split_ifs with one two three
    · have none : b.delete = 0 := by omega
      have zero := both.mpr none
      cases a; simp_all
    · omega
    · congr 1; omega
    · omega
  rw [afterB,moved]
  simp only [apply,stop]
  rw [← start,← length_append,take_left,drop_append,drop_eq_nil_of_le (by simp)]
  simp only [nil_append,Nat.add_sub_cancel_left,drop_drop]
  congr 2
  omega

section
variable (hb : InBounds text b) (before : b.index < a.index) (reach : a.index < b.stop)
include hb before reach

theorem apply_into :
    apply (apply text b) (a.transform b) =
      text.take b.index ++ b.insert ++ a.insert ++ text.drop (max a.stop b.stop) := by
  have moved : a.transform b = ⟨b.index + b.insert.length,a.stop - b.stop,a.insert⟩ := by
    unfold transform stop at *
    rw [if_neg (by omega),if_neg (by omega),if_pos (by omega)]
  have start : (text.take b.index).length = b.index := by
    unfold InBounds stop at *
    rw [length_take]; omega
  rw [moved]
  simp only [apply]
  rw [stop,take_append_of_le_length (by simp [start]),take_of_length_le (by simp [start])]
  rw [drop_append,drop_eq_nil_of_le (by simp [start])]
  simp only [nil_append,drop_drop,length_append,start]
  congr 2
  simp only [stop] at reach ⊢
  omega

theorem apply_around :
    apply (apply text a) (b.transform a) =
      text.take b.index ++ b.insert ++ (a.insert ++ text.drop a.stop).drop (b.stop - a.stop) := by
  have moved : b.transform a = {b with delete := (a.index - b.index) + (b.stop - a.stop)} := by
    unfold transform stop at *
    rw [if_neg (by omega),if_neg (by omega),if_neg (by omega)]
  have start : (text.take a.index).length = a.index := by
    unfold InBounds stop at *
    rw [length_take]; omega
  rw [moved]
  simp only [apply]
  rw [append_assoc (text.take a.index),take_append_of_le_length (by omega),take_take,
    Nat.min_eq_left (by omega),drop_append,drop_eq_nil_of_le (by simp only [stop]; omega),
    nil_append,start]
  congr 2
  simp only [stop]
  omega

end

-- What two concurrent splices must satisfy for the two orders to agree: inserts at
-- one place commute, and a splice inside the span of the other survives its count.
def Compatible (text : List α) (a b : Splice α) : Prop :=
  (a.index = b.index → (a.delete = 0 ↔ b.delete = 0) → a.insert ++ b.insert = b.insert ++ a.insert) ∧
  (b.index < a.index → a.stop < b.stop →
    a.insert <:+ a.insert ++ (text.drop a.stop).take (b.stop - a.stop)) ∧
  (a.index < b.index → b.stop < a.stop →
    b.insert <:+ b.insert ++ (text.drop b.stop).take (a.stop - b.stop))

instance [DecidableEq α] (text : List α) (a b : Splice α) : Decidable (Compatible text a b) :=
  inferInstanceAs (Decidable (_ ∧ _ ∧ _))

theorem suffix_drop_iff (s v w : List α) :
    s ++ w = (s ++ (v ++ w)).drop v.length ↔ s <:+ s ++ v := by
  rw [← append_assoc,drop_append_of_le_length (by simp),append_cancel_right_eq,
    suffix_iff_eq_drop]
  simp

theorem converge_inside (ha : InBounds text a) (hb : InBounds text b) (before : b.index < a.index)
    (reach : a.index < b.stop) :
    apply (apply text b) (a.transform b) = apply (apply text a) (b.transform a) ↔
      (a.stop < b.stop → a.insert <:+ a.insert ++ (text.drop a.stop).take (b.stop - a.stop)) := by
  rw [apply_into hb before reach,apply_around hb before reach,append_assoc (_ ++ _),
    append_cancel_left_eq]
  by_cases inner : a.stop < b.stop
  · have split : text.drop a.stop = (text.drop a.stop).take (b.stop - a.stop) ++ text.drop b.stop := by
      conv_lhs => rw [← take_append_drop (b.stop - a.stop) (text.drop a.stop),drop_drop]
      congr 2
      omega
    have size : ((text.drop a.stop).take (b.stop - a.stop)).length = b.stop - a.stop := by
      unfold InBounds at *
      rw [length_take,length_drop]; omega
    rw [Nat.max_eq_right (Nat.le_of_lt inner)]
    have exact := suffix_drop_iff a.insert ((text.drop a.stop).take (b.stop - a.stop)) (text.drop b.stop)
    rw [← split,size] at exact
    simp only [inner,forall_const]
    exact exact
  · rw [Nat.max_eq_left (by omega),Nat.sub_eq_zero_of_le (by omega)]
    simp [inner]

theorem converge_same_start (ha : InBounds text a) (same : a.index = b.index) (both : a.delete = 0 ↔ b.delete = 0) :
    apply (apply text b) (a.transform b) = apply (apply text a) (b.transform a) ↔
      a.insert ++ b.insert = b.insert ++ a.insert := by
  have start : (text.take a.index).length = a.index := by
    unfold InBounds stop at *
    rw [length_take]; omega
  rw [← take_append_drop a.index text,apply_same_start (start.trans same) same both,
    apply_same_start start same.symm both.symm,Nat.max_comm,append_cancel_right_eq,append_assoc,
    append_assoc,append_cancel_left_eq]
  exact eq_comm

theorem converge_iff (ha : InBounds text a) (hb : InBounds text b) :
    apply (apply text b) (a.transform b) = apply (apply text a) (b.transform a) ↔ Compatible text a b := by
  rcases Nat.lt_trichotomy a.index b.index with less | same | more
  · by_cases reach : b.index < a.stop
    · rw [eq_comm,converge_inside hb ha less reach]
      simp only [Compatible]
      constructor
      · intro inside
        exact ⟨fun same => absurd same (Nat.ne_of_lt less),fun more => absurd more (by omega),fun _ => inside⟩
      · intro compatible
        exact compatible.2.2 less
    · refine iff_of_true (converge_apart hb (by omega) (by omega)) ⟨?_,?_,?_⟩
      · intro same; omega
      · intro more; omega
      · intro _ inner; unfold stop at *; omega
  · by_cases both : a.delete = 0 ↔ b.delete = 0
    · rw [converge_same_start ha same both]
      constructor
      · intro commute
        exact ⟨fun _ _ => commute,fun less => by omega,fun less => by omega⟩
      · intro compatible
        exact compatible.1 same both
    · refine iff_of_true ?_ ⟨fun _ tied => absurd tied both,fun less => by omega,fun less => by omega⟩
      by_cases zero : a.delete = 0
      · exact converge_apart hb (by unfold stop; omega) (by tauto)
      · have other : b.delete = 0 := by tauto
        exact (converge_apart ha (by unfold stop; omega) (by tauto)).symm
  · by_cases reach : a.index < b.stop
    · rw [converge_inside ha hb more reach]
      simp only [Compatible]
      constructor
      · intro inside
        exact ⟨fun same => by omega,fun _ => inside,fun less => by omega⟩
      · intro compatible
        exact compatible.2.1 more
    · refine iff_of_true (converge_apart ha (by omega) (by omega)).symm ⟨?_,?_,?_⟩
      · intro same; omega
      · intro _ inner; unfold stop at *; omega
      · intro less; omega

end Splice
