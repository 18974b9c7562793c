import Mathlib

-- A sorted list that is read in pages, each behind the last entry of the one before.
namespace Paging
open List
variable {κ : Type*} [LinearOrder κ] {keys items rest : List κ} {cursor : Option κ} {key next : κ} {limit : Nat}

def after (cursor : Option κ) (key : κ) : Bool := cursor.all (fun last => decide (last < key))

structure Page (κ : Type*) where
  items : List κ
  isTruncated : Bool
  nextStartAfter : Option κ

def page (keys : List κ) (limit : Nat) (cursor : Option κ) : Page κ :=
  let left := keys.filter (after cursor)
  let items := left.take limit
  {items := items
   isTruncated := decide (limit < left.length)
   nextStartAfter := if limit < left.length then items.getLast? else none}

def passed (keys : List κ) (cursor : Option κ) : List κ := keys.filter (fun key => !after cursor key)

@[simp] theorem after_none (key : κ) : after none key = true := rfl

@[simp] theorem after_some (last key : κ) : after (some last) key = decide (last < key) := rfl

@[simp] theorem passed_none : passed keys none = [] := by
  simp [passed]

theorem passed_append (sorted : keys.Pairwise (· < ·)) (cursor : Option κ) :
    passed keys cursor ++ keys.filter (after cursor) = keys := by
  induction keys with
  | nil => rfl
  | cons key rest ih =>
    obtain ⟨least,sorted⟩ := pairwise_cons.mp sorted
    have ih := ih sorted
    cases here : after cursor key with
    | false =>
      rw [passed,filter_cons,here,filter_cons,here]
      simp only [Bool.not_false,Bool.false_eq_true,if_true,if_false,cons_append]
      exact congrArg (key :: ·) ih
    | true =>
      have all : ∀ other ∈ rest, after cursor other = true := by
        intro other member
        cases cursor with
        | none => rfl
        | some last =>
          rw [after_some,decide_eq_true_iff] at here ⊢
          exact lt_trans here (least other member)
      have none_ : passed rest cursor = [] := filter_eq_nil_iff.mpr (fun other member => by simp [all other member])
      rw [passed,filter_cons,here,filter_cons,here]
      simp only [Bool.not_true,Bool.false_eq_true,if_true,if_false]
      change passed rest cursor ++ key :: rest.filter (after cursor) = _
      rw [none_,nil_append,filter_eq_self.mpr all]

theorem passed_page (sorted : keys.Pairwise (· < ·)) (split : keys.filter (after cursor) = items ++ rest)
    (last : items.getLast? = some next) : passed keys (some next) = passed keys cursor ++ items := by
  obtain ⟨front,rfl⟩ : ∃ front, items = front ++ [next] := getLast?_eq_some_iff.mp last
  have whole := passed_append sorted cursor
  rw [split] at whole
  rw [← whole] at sorted
  have parts := pairwise_append.mp sorted
  have inner := pairwise_append.mp parts.2.1
  have ends := pairwise_append.mp inner.1
  have before : ∀ key ∈ passed keys cursor ++ (front ++ [next]), key ≤ next := by
    intro key member
    rcases mem_append.mp member with old | new
    · exact le_of_lt (parts.2.2 key old next (by simp))
    · rcases mem_append.mp new with earlier | final
      · exact le_of_lt (ends.2.2 key earlier next (mem_singleton.mpr rfl))
      · exact le_of_eq (mem_singleton.mp final)
  have behind : ∀ key ∈ rest, next < key := fun key member => inner.2.2 next (by simp) key member
  have kept : passed (passed keys cursor ++ (front ++ [next])) (some next) = passed keys cursor ++ (front ++ [next]) := by
    refine filter_eq_self.mpr (fun key member => ?_)
    have early := before key member
    simp [not_lt.mpr early]
  have gone : passed rest (some next) = [] := by
    refine filter_eq_nil_iff.mpr (fun key member => ?_)
    simp [behind key member]
  calc passed keys (some next) = passed ((passed keys cursor ++ (front ++ [next])) ++ rest) (some next) := by
        rw [append_assoc,whole]
    _ = passed (passed keys cursor ++ (front ++ [next])) (some next) ++ passed rest (some next) := filter_append _ _
    _ = passed keys cursor ++ (front ++ [next]) := by rw [kept,gone,append_nil]

theorem filter_page {wanted : κ → Bool} (all : ∀ key ∈ (page keys limit cursor).items, wanted key = true) :
    (keys.filter wanted).filter (after cursor) =
      (page keys limit cursor).items ++ ((keys.filter (after cursor)).drop limit).filter wanted := by
  have own : (page keys limit cursor).items.filter wanted = (page keys limit cursor).items := filter_eq_self.mpr all
  calc (keys.filter wanted).filter (after cursor) = (keys.filter (after cursor)).filter wanted := filter_comm _ _ _
    _ = ((keys.filter (after cursor)).take limit ++ (keys.filter (after cursor)).drop limit).filter wanted := by
        rw [take_append_drop]
    _ = (page keys limit cursor).items.filter wanted ++ ((keys.filter (after cursor)).drop limit).filter wanted :=
        filter_append _ _
    _ = _ := by rw [own]

theorem page_next (some_ : 0 < limit) (truncated : (page keys limit cursor).isTruncated = true) :
    ∃ next, (page keys limit cursor).nextStartAfter = some next ∧ (page keys limit cursor).items.getLast? = some next := by
  have more : limit < (keys.filter (after cursor)).length := of_decide_eq_true truncated
  have ne : (page keys limit cursor).items ≠ [] := by
    intro none_
    have empty := congrArg List.length none_
    simp only [page,length_take,length_nil] at empty
    omega
  refine ⟨_,?_,getLast?_eq_some_getLast ne⟩
  simp only [page,if_pos more]
  exact getLast?_eq_some_getLast ne

theorem page_last (done : (page keys limit cursor).isTruncated = false) : (keys.filter (after cursor)).drop limit = [] := by
  have fits : ¬limit < (keys.filter (after cursor)).length := of_decide_eq_false done
  exact drop_eq_nil_of_le (Nat.le_of_not_lt fits)

section Offsets
variable {ρ : Type*} {before : ρ → ρ → Prop} {rows s : List ρ} {size n p : Nat} {answers : Nat → List ρ}

structure Ranks (before : ρ → ρ → Prop) : Prop where
  asymm : ∀ a b, before a b → ¬before b a
  between : ∀ a b c, before a b → before a c ∨ before c b

-- The rows that compare equal stand in any order.
structure Arranged (before : ρ → ρ → Prop) (rows s : List ρ) : Prop where
  perm : s.Perm rows
  sorted : s.Pairwise (fun a b => ¬before b a)

def Unsplit (before : ρ → ρ → Prop) (size : Nat) (rows : List ρ) : Prop :=
  ∀ front a b back, Arranged before rows (front ++ a :: b :: back) → size ∣ front.length + 1 → before a b

def offsetPage (answer : List ρ) (size k : Nat) : List ρ := (answer.drop (k * size)).take size

theorem Unsplit.parted (unsplit : Unsplit before size rows) (ranks : Ranks before) (arranged : Arranged before rows s) (ends : size ∣ p) :
    ∀ a ∈ s.take p, ∀ b ∈ s.drop p, before a b := by
  intro a early b late
  have whole := take_append_drop p s
  have filled : p < s.length := by simpa using length_pos_of_mem late
  have sized : (s.take p).length = p := length_take_of_le filled.le
  cases rest : s.drop p with
  | nil => simp [rest] at late
  | cons first back =>
    obtain ⟨front,last,parts⟩ := (eq_nil_or_concat (s.take p)).resolve_left (ne_nil_of_mem early)
    rw [parts,concat_eq_append] at early sized whole
    rw [rest] at late whole
    have split : s = front ++ last :: first :: back := by simp [← whole]
    rw [split] at arranged
    have edge := unsplit front last first back arranged (by simpa [← sized] using ends)
    have sorted := arranged.sorted
    simp only [pairwise_append,pairwise_cons] at sorted
    have below : before last b := by
      rcases mem_cons.mp late with rfl | later
      · exact edge
      · exact (ranks.between _ _ b edge).resolve_right (sorted.2.1.2.1 b later)
    rcases mem_append.mp early with earlier | final
    · exact (ranks.between _ _ a below).resolve_left (sorted.2.2 a earlier last mem_cons_self)
    · exact mem_singleton.mp final ▸ below

open Classical in
noncomputable def early (before : ρ → ρ → Prop) (rows : List ρ) (p : Nat) (a : ρ) : Bool :=
  decide (rows.countP (fun b => decide (before b a)) < p)

section
variable (unsplit : Unsplit before size rows) (ranks : Ranks before)
include unsplit ranks

theorem Unsplit.take_perm (arranged : Arranged before rows s) (ends : size ∣ p) :
    (s.take p).Perm (rows.filter (early before rows p)) := by
  classical
  have parted := unsplit.parted ranks arranged ends
  refine .trans (.of_eq ?_) (arranged.perm.filter _)
  nth_rewrite 2 [← take_append_drop p s]
  rw [filter_append,filter_eq_self.mpr,filter_eq_nil_iff.mpr,append_nil]
  · intro b late
    have filled : p < s.length := by simpa using length_pos_of_mem late
    have all : (s.take p).countP (fun a => decide (before a b)) = (s.take p).length :=
      countP_eq_length.mpr (fun a member => decide_eq_true (parted a member b late))
    rw [early,decide_eq_true_eq,← arranged.perm.countP_eq,← take_append_drop p s,countP_append,all,length_take_of_le filled.le]
    omega
  · intro a first
    have none_ : (s.drop p).countP (fun b => decide (before b a)) = 0 := by
      simpa [countP_eq_zero] using fun b late => ranks.asymm _ _ (parted a first b late)
    have some_ : (s.take p).countP (fun b => decide (before b a)) < (s.take p).length := by
      refine lt_of_le_of_ne countP_le_length (fun same => ?_)
      have own := countP_eq_length.mp same a first
      simp only [decide_eq_true_eq] at own
      exact ranks.asymm _ _ own own
    have bound := length_take_le p s
    rw [early,decide_eq_true_eq,← arranged.perm.countP_eq,← take_append_drop p s,countP_append,none_]
    omega

theorem Unsplit.pages_perm (arranged : ∀ k, Arranged before rows (answers k)) (n : Nat) :
    ((range n).flatMap (fun k => offsetPage (answers k) size k)).Perm (rows.filter (early before rows (n * size))) := by
  induction n with
  | zero => simp [early]
  | succ n ih =>
    have front := unsplit.take_perm ranks (arranged n) (Nat.dvd_mul_left size n)
    have whole := unsplit.take_perm ranks (arranged n) (Nat.dvd_mul_left size (n + 1))
    rw [range_succ,flatMap_append,flatMap_singleton]
    refine ((ih.trans front.symm).append_right _).trans ?_
    rwa [offsetPage,← take_add,← Nat.succ_mul]

theorem Unsplit.whole (arranged : ∀ k, Arranged before rows (answers k))
    (covers : rows.length ≤ (n + 1) * size) : ((range (n + 1)).flatMap (fun k => offsetPage (answers k) size k)).Perm rows := by
  have last := unsplit.take_perm ranks (arranged n) (Nat.dvd_mul_left size (n + 1))
  rw [take_of_length_le ((arranged n).perm.length_eq.trans_le covers)] at last
  exact (unsplit.pages_perm ranks arranged (n + 1)).trans (last.symm.trans (arranged n).perm)

end

-- Otherwise one answer has the last row of a page behind the first one of the next page.
theorem unsplit_of_whole (once : rows.Nodup) (whole : ∀ answers : Nat → List ρ, (∀ k, Arranged before rows (answers k)) →
    ∃ n, rows.length ≤ n * size ∧ ((range n).flatMap (fun k => offsetPage (answers k) size k)).Perm rows) : Unsplit before size rows := by
  rintro front a b back arranged ⟨k,ends⟩
  by_contra tied
  have positive : 0 < k := Nat.pos_of_ne_zero (fun none_ => by simp [none_] at ends)
  obtain ⟨k,rfl⟩ := Nat.exists_eq_succ_of_ne_zero positive.ne'
  have exchanged : Arranged before rows (front ++ b :: a :: back) := by
    refine ⟨((Perm.swap a b back).append_left front).trans arranged.perm,?_⟩
    have sorted := arranged.sorted
    simp only [pairwise_append,pairwise_cons,mem_cons] at sorted ⊢
    grind
  have long := arranged.perm.length_eq
  simp only [length_append,length_cons] at long
  obtain ⟨n,covers,listed⟩ := whole (fun j => if j = k + 1 then front ++ b :: a :: back else front ++ a :: b :: back)
    (fun j => by split <;> assumption)
  have inside : k + 1 < n := by
    by_contra out
    have := Nat.mul_le_mul_right size (Nat.le_of_not_lt out)
    rw [Nat.mul_comm (k + 1)] at this
    simp only [Nat.succ_eq_add_one] at ends
    omega
  have apart := pairwise_iff_getElem.mp (nodup_flatMap.mp (listed.nodup_iff.mpr once)).2 k (k + 1) (by simp; omega) (by simpa using inside) (Nat.lt_succ_self k)
  simp only [getElem_range,Function.onFun,Nat.left_eq_add,one_ne_zero,if_false,if_true] at apart
  rw [Nat.succ_eq_add_one,Nat.mul_add_one,Nat.mul_comm] at ends
  have full : 0 < size := Nat.pos_of_ne_zero (fun none_ => by simp [none_] at ends)
  refine apart (a := a) ?_ ?_
  · rw [offsetPage,drop_append_of_le_length (by omega),take_append,show size - (front.drop (k * size)).length = 1 by simp; omega]
    simp
  · rw [offsetPage,append_cons,drop_left' (by simp [Nat.succ_mul,ends])]
    exact mem_take_iff_getElem.mpr ⟨0,by simpa,rfl⟩

end Offsets

end Paging
