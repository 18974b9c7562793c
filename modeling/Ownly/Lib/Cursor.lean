import Mathlib.Data.List.Range

-- A reader of a numbered stream that drops what is at or below its cursor and hands
-- on the rest. The cursor may be moved past numbers that were not handed on, and a
-- number may be forced in wherever the cursor stands.
structure Cursor where
  latest : Nat
  delivered : List Nat

namespace Cursor
open List
variable {c : Cursor} {joined seq view first count : Nat} {due due' : Nat → Prop}

def take (c : Cursor) (seq : Nat) : Cursor := if seq ≤ c.latest then c else ⟨seq,c.delivered ++ [seq]⟩

def force (c : Cursor) (seq : Nat) : Cursor := ⟨max c.latest seq,c.delivered ++ [seq]⟩

def skipTo (c : Cursor) (seq : Nat) : Cursor := {c with latest := max c.latest seq}

def takeAll (c : Cursor) (seqs : List Nat) : Cursor := seqs.foldl take c

-- The last number handed on, if all were from `joined` on.
def reach (joined : Nat) (c : Cursor) : Nat := joined + c.delivered.length

-- The numbers were handed on in order and once, and those the cursor has passed
-- without handing them on are `due` to be forced in.
structure Owing (joined : Nat) (due : Nat → Prop) (c : Cursor) : Prop where
  run : c.delivered = List.range' (joined + 1) c.delivered.length
  owed : ∀ seq, c.reach joined < seq → seq ≤ c.latest → due seq

structure Within (joined : Nat) (c : Cursor) : Prop where
  low : joined ≤ c.latest
  high : ∀ seq ∈ c.delivered, seq ≤ c.latest

theorem Within.take (within : Within joined c) (seq : Nat) : Within joined (c.take seq) := by
  unfold Cursor.take
  by_cases old : seq ≤ c.latest
  · rw [if_pos old]
    exact within
  · rw [if_neg old]
    have newer := Nat.le_of_not_le old
    refine ⟨Nat.le_trans within.low newer,?_⟩
    intro other member
    rcases mem_append.mp member with before | last
    · exact Nat.le_trans (within.high other before) newer
    · cases mem_singleton.mp last
      exact Nat.le_refl _

theorem Within.force (within : Within joined c) (seq : Nat) : Within joined (c.force seq) := by
  refine ⟨Nat.le_trans within.low (Nat.le_max_left _ _),?_⟩
  intro other member
  rcases mem_append.mp member with before | last
  · exact Nat.le_trans (within.high other before) (Nat.le_max_left _ _)
  · cases mem_singleton.mp last
    exact Nat.le_max_right _ _

theorem Within.skipTo (within : Within joined c) (seq : Nat) : Within joined (c.skipTo seq) :=
  ⟨Nat.le_trans within.low (Nat.le_max_left _ _),fun other member => Nat.le_trans (within.high other member) (Nat.le_max_left _ _)⟩

theorem Within.takeAll (within : Within joined c) (seqs : List Nat) : Within joined (c.takeAll seqs) := by
  induction seqs generalizing c with
  | nil => exact within
  | cons seq rest ih => exact ih (within.take seq)

theorem Within.reach_le (within : Within joined c) (run : c.delivered = List.range' (joined + 1) c.delivered.length) :
    c.reach joined ≤ c.latest := by
  unfold reach
  rcases Nat.eq_zero_or_pos c.delivered.length with none | some
  · rw [none]
    exact within.low
  · refine within.high _ ?_
    rw [run,mem_range'_1,length_range']
    omega

theorem take_latest (c : Cursor) (seq : Nat) : (c.take seq).latest = max c.latest seq := by
  unfold take
  by_cases old : seq ≤ c.latest
  · rw [if_pos old,Nat.max_eq_left old]
  · rw [if_neg old,Nat.max_eq_right (Nat.le_of_not_le old)]

theorem takeAll_latest (c : Cursor) (seqs : List Nat) : (c.takeAll seqs).latest = seqs.foldl max c.latest := by
  induction seqs generalizing c with
  | nil => rfl
  | cons seq rest ih =>
    have later : ((c.take seq).takeAll rest).latest = rest.foldl max (c.take seq).latest := ih (c.take seq)
    rw [take_latest] at later
    exact later

theorem takeAll_bounds {bound : Nat} {seqs : List Nat} (high : c.latest ≤ bound) (inside : ∀ seq ∈ seqs, seq ≤ bound) :
    (c.takeAll seqs).latest ≤ bound ∧ c.latest ≤ (c.takeAll seqs).latest ∧ ∀ seq ∈ seqs, seq ≤ (c.takeAll seqs).latest := by
  induction seqs generalizing c with
  | nil => exact ⟨high,Nat.le_refl _,fun _ member => by cases member⟩
  | cons first rest ih =>
    have latest := take_latest c first
    obtain ⟨most,above,members⟩ := ih (c := c.take first) (by rw [latest]; exact Nat.max_le.mpr ⟨high,inside first mem_cons_self⟩)
      (fun seq member => inside seq (mem_cons_of_mem _ member))
    rw [latest] at above
    refine ⟨most,Nat.le_trans (Nat.le_max_left _ _) above,?_⟩
    intro seq member
    rcases mem_cons.mp member with rfl | later
    · exact Nat.le_trans (Nat.le_max_right _ _) above
    · exact members seq later

theorem takeAll_run (c : Cursor) (first count : Nat) :
    ((∀ seq ∈ List.range' first count, seq ≤ c.latest) ∧ c.takeAll (List.range' first count) = c) ∨
      ∃ start more, start = max first (c.latest + 1) ∧ start + more ∈ List.range' first count ∧
        c.takeAll (List.range' first count) = ⟨start + more,c.delivered ++ List.range' start (more + 1)⟩ := by
  induction count generalizing c first with
  | zero => exact .inl ⟨fun _ member => absurd member not_mem_nil,rfl⟩
  | succ count ih =>
    rw [range'_succ]
    have unfolded : c.takeAll (first :: List.range' (first + 1) count) =
        (c.take first).takeAll (List.range' (first + 1) count) := rfl
    rw [unfolded]
    by_cases old : first ≤ c.latest
    · rw [take,if_pos old]
      rcases ih c (first + 1) with ⟨others,same⟩ | ⟨start,more,begins,inside,taken⟩
      · left
        refine ⟨?_,same⟩
        intro seq member
        rcases mem_cons.mp member with rfl | later
        · exact old
        · exact others seq later
      · right
        refine ⟨start,more,?_,mem_cons_of_mem _ inside,taken⟩
        rw [begins,Nat.max_eq_right (Nat.succ_le_succ old),Nat.max_eq_right (Nat.le_succ_of_le old)]
    · have begins : first = max first (c.latest + 1) := (Nat.max_eq_left (Nat.gt_of_not_le old)).symm
      rw [take,if_neg old]
      right
      rcases ih ⟨first,c.delivered ++ [first]⟩ (first + 1) with ⟨_,same⟩ | ⟨start,more,next,inside,taken⟩
      · exact ⟨first,0,begins,mem_cons_self,same⟩
      · rw [Nat.max_self] at next
        subst next
        have far : first + 1 + more = first + (more + 1) := by rw [Nat.add_assoc,Nat.add_comm 1]
        refine ⟨first,more + 1,begins,?_,?_⟩
        · rw [← far]
          exact mem_cons_of_mem _ inside
        · rw [taken,far,append_assoc,range'_succ (s := first)]
          rfl

theorem skipTo_owing_iff (within : Within joined c) : Owing joined due (c.skipTo view) ↔
    Owing joined due c ∧ ∀ seq, c.latest < seq → seq ≤ view → due seq := by
  constructor
  · rintro ⟨run,owed⟩
    refine ⟨⟨run,fun seq above below => owed seq above (Nat.le_trans below (Nat.le_max_left _ _))⟩,?_⟩
    intro seq above below
    exact owed seq (Nat.lt_of_le_of_lt (within.reach_le run) above) (Nat.le_trans below (Nat.le_max_right _ _))
  · rintro ⟨⟨run,owed⟩,viewed⟩
    refine ⟨run,?_⟩
    intro seq above below
    rcases Nat.lt_or_ge c.latest seq with newer | old
    · rcases Nat.le_total c.latest view with ahead | behind
      · exact viewed seq newer (by rw [← Nat.max_eq_right ahead]; exact below)
      · have here : seq ≤ c.latest := by rw [← Nat.max_eq_left behind]; exact below
        exact absurd newer (Nat.not_lt.mpr here)
    · exact owed seq above old

theorem append_run_iff {delivered : List Nat} {start more : Nat} :
    delivered ++ List.range' start (more + 1) = List.range' (joined + 1) (delivered ++ List.range' start (more + 1)).length ↔
      delivered = List.range' (joined + 1) delivered.length ∧ start = joined + delivered.length + 1 := by
  have split : List.range' (joined + 1) (delivered.length + (more + 1)) =
      List.range' (joined + 1) delivered.length ++ List.range' (joined + 1 + delivered.length) (more + 1) :=
    range'_append_1.symm
  rw [length_append,length_range',split]
  constructor
  · intro same
    obtain ⟨front,back⟩ := append_inj same length_range'.symm
    rw [range'_succ,range'_succ] at back
    have begins := (List.cons.inj back).1
    exact ⟨front,by rw [begins,Nat.add_right_comm]⟩
  · rintro ⟨front,rfl⟩
    rw [← front,Nat.add_right_comm]

theorem takeAll_owing_iff (within : Within joined c) : Owing joined due (c.takeAll (List.range' first count)) ↔
    Owing joined due c ∧ ((∀ seq ∈ List.range' first count, seq ≤ c.latest) ∨
      (c.latest = c.reach joined ∧ first ≤ c.latest + 1)) := by
  rcases takeAll_run c first count with ⟨old,same⟩ | ⟨start,more,begins,inside,taken⟩
  · rw [same]
    exact (and_iff_left (.inl old)).symm
  · have fresh : ¬∀ seq ∈ List.range' first count, seq ≤ c.latest := by
      intro old
      have last := old _ inside
      have above := Nat.le_max_right first (c.latest + 1)
      omega
    rw [taken,or_iff_right fresh]
    constructor
    · rintro ⟨run,_⟩
      obtain ⟨front,next⟩ := append_run_iff.mp run
      have behind := within.reach_le front
      unfold reach at *
      have left := Nat.le_max_left first (c.latest + 1)
      have right := Nat.le_max_right first (c.latest + 1)
      refine ⟨⟨front,?_⟩,by omega,by omega⟩
      intro seq above below
      exact absurd below (by unfold reach at above; omega)
    · rintro ⟨⟨run,_⟩,level,near⟩
      rw [Nat.max_eq_right near,level] at begins
      refine ⟨append_run_iff.mpr ⟨run,begins⟩,?_⟩
      intro seq above below
      have high : seq ≤ start + more := below
      simp only [reach,length_append,length_range'] at above begins
      exact absurd high (by omega)

theorem takeAll_skipTo_owing_iff (within : Within joined c) :
    Owing joined due ((c.takeAll (List.range' first count)).skipTo view) ↔ Owing joined due c ∧
      ((∀ seq ∈ List.range' first count, seq ≤ c.latest) ∨ (c.latest = c.reach joined ∧ first ≤ c.latest + 1)) ∧
      ∀ seq, (List.range' first count).foldl max c.latest < seq → seq ≤ view → due seq := by
  rw [skipTo_owing_iff (within.takeAll _),takeAll_owing_iff within,takeAll_latest,and_assoc]

theorem force_owing_iff (awaited : due seq) (left : ∀ other, due' other ↔ due other ∧ other ≠ seq) :
    Owing joined due' (c.force seq) ↔ Owing joined due c ∧ seq = c.reach joined + 1 := by
  have one : (c.force seq).delivered = c.delivered ++ List.range' seq (0 + 1) := rfl
  have longer : (c.force seq).reach joined = c.reach joined + 1 := by
    rw [reach,one,length_append,length_range',reach,Nat.add_assoc]
  constructor
  · rintro ⟨run,owed⟩
    rw [one] at run
    obtain ⟨front,next⟩ := append_run_iff.mp run
    rw [longer] at owed
    refine ⟨⟨front,?_⟩,next⟩
    intro other above below
    rcases Nat.lt_or_ge (c.reach joined + 1) other with far | near
    · exact ((left other).mp (owed other far (Nat.le_trans below (Nat.le_max_left _ _)))).1
    · have same : other = seq := Nat.le_antisymm (Nat.le_trans near (Nat.le_of_eq next.symm)) (by rw [next]; exact above)
      rw [same]
      exact awaited
  · rintro ⟨⟨run,owed⟩,next⟩
    refine ⟨?_,?_⟩
    · rw [one]
      exact append_run_iff.mpr ⟨run,next⟩
    · rw [longer]
      intro other above below
      have old : other ≤ c.latest := by
        rcases Nat.le_total c.latest seq with ahead | passed
        · have here : other ≤ seq := by rw [← Nat.max_eq_right ahead]; exact below
          omega
        · rw [← Nat.max_eq_left passed]
          exact below
      exact (left other).mpr ⟨owed other (Nat.lt_of_succ_lt above) old,by omega⟩

theorem lost_owing_iff (left : ∀ other, due' other ↔ due other ∧ other ≠ seq) :
    Owing joined due' c ↔ Owing joined due c ∧ ¬(c.reach joined < seq ∧ seq ≤ c.latest) := by
  constructor
  · rintro ⟨run,owed⟩
    refine ⟨⟨run,fun other above below => ((left other).mp (owed other above below)).1⟩,?_⟩
    rintro ⟨above,below⟩
    exact ((left seq).mp (owed seq above below)).2 rfl
  · rintro ⟨⟨run,owed⟩,outside⟩
    refine ⟨run,?_⟩
    intro other above below
    refine (left other).mpr ⟨owed other above below,?_⟩
    rintro rfl
    exact outside ⟨above,below⟩

theorem due_owing_iff (ahead : c.latest < seq) (more : ∀ other, due' other ↔ other = seq ∨ due other) :
    Owing joined due' c ↔ Owing joined due c := by
  constructor
  · rintro ⟨run,owed⟩
    refine ⟨run,?_⟩
    intro other above below
    rcases (more other).mp (owed other above below) with rfl | before
    · exact absurd below (Nat.not_le.mpr ahead)
    · exact before
  · rintro ⟨run,owed⟩
    exact ⟨run,fun other above below => (more other).mpr (.inr (owed other above below))⟩

theorem owing_nothing_iff (within : Within joined c) (nothing : ∀ seq, ¬due seq) :
    Owing joined due c ↔ c.delivered = List.range' (joined + 1) (c.latest - joined) := by
  constructor
  · rintro ⟨run,owed⟩
    have behind := within.reach_le run
    have level : c.latest = c.reach joined := by
      by_contra apart
      exact nothing c.latest (owed c.latest (by omega) (Nat.le_refl _))
    have count : c.latest - joined = c.delivered.length := by
      rw [level,reach,Nat.add_sub_cancel_left]
    rw [count]
    exact run
  · intro run
    have count : c.delivered.length = c.latest - joined := by
      rw [run,length_range']
    refine ⟨by rw [count]; exact run,?_⟩
    intro seq above below
    have low := within.low
    rw [reach,count] at above
    exact absurd below (by omega)

end Cursor
