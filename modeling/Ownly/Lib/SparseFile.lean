import Mathlib.Data.List.Flatten
import Mathlib.Data.List.TakeDrop
import Mathlib.Order.Monotone.Basic
import Mathlib.Order.Lattice.Nat

-- Files written at an offset, and the pieces of a file written in any order and as often
-- as one likes.
namespace SparseFile
open List Option
variable {α : Type*} {blank : α} {file body : List α} {offset start size : Nat} {writes : List (Nat × List α)} {k : Nat}

-- What is past the end reads as `blank` once something behind it is written.
def write (blank : α) (file : List α) (offset : Nat) (body : List α) : List α :=
  if body = [] then file
  else file.take offset ++ List.replicate (offset - file.length) blank ++ body ++ file.drop (offset + body.length)

def segment (file : List α) (start size : Nat) : List α := (file.drop start).take size

theorem length_write : (write blank file offset body).length =
    if body = [] then file.length else max file.length (offset + body.length) := by
  unfold write
  split
  · rfl
  · simp only [length_append,length_take,length_replicate,length_drop]
    omega

theorem getElem?_write (filled : body ≠ []) (i : Nat) : (write blank file offset body)[i]? =
    if i < offset then (if i < file.length then file[i]? else some blank)
    else if i < offset + body.length then body[i - offset]? else file[i]? := by
  have front : (file.take offset ++ List.replicate (offset - file.length) blank).length = offset := by
    simp only [length_append,length_take,length_replicate]
    omega
  rw [write,if_neg filled]
  split
  · rename_i before
    rw [append_assoc,getElem?_append_left (by omega)]
    split
    · rename_i inside
      rw [getElem?_append_left (by rw [length_take]; omega),getElem?_take_of_lt before]
    · rw [getElem?_append_right (by rw [length_take]; omega),length_take,getElem?_replicate]
      rw [if_pos (by omega)]
  · rename_i behind
    split
    · rw [append_assoc,getElem?_append_right (by omega),front,getElem?_append_left (by omega)]
    · rw [getElem?_append_right (by rw [length_append]; omega),length_append,front,getElem?_drop]
      congr 1
      omega

theorem segment_write (blank : α) (file : List α) (offset : Nat) (body : List α) :
    segment (write blank file offset body) offset body.length = body := by
  by_cases filled : body = []
  · simp [filled,segment]
  · refine ext_getElem? (fun i => ?_)
    rw [segment,getElem?_take]
    split
    · rename_i inside
      rw [getElem?_drop,getElem?_write filled,if_neg (by omega),if_pos (by omega),Nat.add_sub_cancel_left]
    · rename_i past
      rw [getElem?_eq_none (by omega)]

theorem segment_write_apart (blank : α) (apart : offset + body.length ≤ start ∨ start + size ≤ offset)
    (inside : start + size ≤ file.length) : segment (write blank file offset body) start size = segment file start size := by
  by_cases filled : body = []
  · rw [write,if_pos filled]
  · refine ext_getElem? (fun i => ?_)
    rw [segment,segment,getElem?_take,getElem?_take]
    split
    · rw [getElem?_drop,getElem?_drop,getElem?_write filled]
      split
      · rw [if_pos (by omega)]
      · rw [if_neg (by omega)]
    · rfl

def latest (k : Nat) : List (Nat × List α) → Option (List α)
  | [] => none
  | (j,body) :: rest => (latest k rest).or (if j = k then some body else none)

theorem latest_isSome : (latest k writes).isSome ↔ ∃ w ∈ writes, w.1 = k := by
  induction writes with
  | nil => simp [latest]
  | cons w rest ih =>
    obtain ⟨j,body⟩ := w
    cases later : latest k rest with
    | some found =>
      have written := ih.mp (by rw [later]; rfl)
      simp only [latest,later,some_or,isSome_some,true_iff]
      exact written.imp (fun w found => ⟨mem_cons_of_mem _ found.1,found.2⟩)
    | none =>
      have unwritten : ¬∃ w ∈ rest, w.1 = k := fun written => by simpa [later] using ih.mpr written
      by_cases same : j = k
      · simp [latest,later,same]
      · simpa [latest,later,same] using unwritten

theorem latest_mem (found : latest k writes = some body) : (k,body) ∈ writes := by
  induction writes with
  | nil => cases found
  | cons w rest ih =>
    obtain ⟨j,new⟩ := w
    cases later : latest k rest with
    | some other =>
      simp only [latest,later,some_or] at found
      exact mem_cons_of_mem _ (ih (later.trans found))
    | none =>
      simp only [latest,later,none_or] at found
      split at found
      · rename_i same
        cases found
        cases same
        exact mem_cons_self
      · cases found

section Pieces

-- Piece `k` lies between `edge k` and `edge (k + 1)`.
variable {edge : Nat → Nat} {count : Nat} {writes : List (Nat × List α)}

def writeAll (blank : α) (edge : Nat → Nat) (file : List α) (writes : List (Nat × List α)) : List α :=
  writes.foldl (fun file w => write blank file (edge w.1) w.2) file

def Fits (edge : Nat → Nat) (count : Nat) (w : Nat × List α) : Prop :=
  w.1 < count ∧ w.2 ≠ [] ∧ edge w.1 + w.2.length = edge (w.1 + 1)

theorem length_writeAll (rising : Monotone edge) (fits : ∀ w ∈ writes, Fits edge count w) (short : file.length ≤ edge count) :
    (writeAll blank edge file writes).length ≤ edge count := by
  induction writes generalizing file with
  | nil => exact short
  | cons w rest ih =>
    obtain ⟨less,_,reach⟩ := fits w mem_cons_self
    have inside : edge (w.1 + 1) ≤ edge count := rising less
    refine ih (fun w member => fits w (mem_cons_of_mem _ member)) ?_
    rw [length_write]
    split
    · exact short
    · omega

def piece (edge : Nat → Nat) (file : List α) (k : Nat) : List α := segment file (edge k) (edge (k + 1) - edge k)

theorem piece_write_self (blank : α) (file : List α) (fits : Fits edge count (k,body)) :
    edge (k + 1) ≤ (write blank file (edge k) body).length ∧ piece edge (write blank file (edge k) body) k = body := by
  obtain ⟨_,filled,reach⟩ := fits
  dsimp only at filled reach
  constructor
  · rw [length_write,if_neg filled,reach]
    exact le_max_right _ _
  · have length : edge (k + 1) - edge k = body.length := by omega
    rw [piece,length]
    exact segment_write blank file (edge k) body

theorem piece_write_other {j k : Nat} (blank : α) (rising : Monotone edge) (fits : Fits edge count (j,body)) (other : j ≠ k)
    (inside : edge (k + 1) ≤ file.length) :
    edge (k + 1) ≤ (write blank file (edge j) body).length ∧ piece edge (write blank file (edge j) body) k = piece edge file k := by
  obtain ⟨_,filled,reach⟩ := fits
  dsimp only at filled reach
  have order : edge k ≤ edge (k + 1) := rising (Nat.le_succ k)
  constructor
  · rw [length_write,if_neg filled]
    exact le_trans inside (le_max_left _ _)
  · refine segment_write_apart blank ?_ (by omega)
    rcases Nat.lt_or_gt_of_ne other with before | behind
    · have next : edge (j + 1) ≤ edge k := rising before
      left
      omega
    · have next : edge (k + 1) ≤ edge j := rising behind
      right
      omega

theorem piece_writeAll (rising : Monotone edge) (fits : ∀ w ∈ writes, Fits edge count w) (k : Nat) :
    (∀ body, latest k writes = some body → piece edge (writeAll blank edge file writes) k = body) ∧
    (latest k writes = none → edge (k + 1) ≤ file.length →
      piece edge (writeAll blank edge file writes) k = piece edge file k) := by
  induction writes generalizing file with
  | nil => exact ⟨fun body found => (by cases found),fun _ _ => rfl⟩
  | cons w rest ih =>
    obtain ⟨j,new⟩ := w
    have here := fits (j,new) mem_cons_self
    have step : writeAll blank edge file ((j,new) :: rest) = writeAll blank edge (write blank file (edge j) new) rest := rfl
    have after := @ih (write blank file (edge j) new) (fun w member => fits w (mem_cons_of_mem _ member))
    rw [step]
    cases later : latest k rest with
    | some found =>
      simp only [latest,later,some_or]
      refine ⟨fun body same => ?_,fun none => by cases none⟩
      cases same
      exact after.1 found later
    | none =>
      simp only [latest,later,none_or]
      by_cases same : j = k
      · subst j
        rw [if_pos rfl]
        obtain ⟨inside,written⟩ := piece_write_self blank file here
        refine ⟨fun body found => ?_,fun none => by cases none⟩
        cases found
        exact (after.2 later inside).trans written
      · rw [if_neg same]
        refine ⟨fun body found => (by cases found),fun _ inside => ?_⟩
        obtain ⟨reached,kept⟩ := piece_write_other blank rising here same inside
        exact (after.2 later reached).trans kept

theorem take_pieces (first : edge 0 = 0) (rising : Monotone edge) {bodies : Nat → List α} {m : Nat}
    (held : ∀ k < m, piece edge file k = bodies k) :
    file.take (edge m) = (List.range m).flatMap bodies := by
  induction m with
  | zero => rw [first]; rfl
  | succ m ih =>
    have order : edge m ≤ edge (m + 1) := rising (Nat.le_succ m)
    have split : edge (m + 1) = edge m + (edge (m + 1) - edge m) := by omega
    rw [range_succ,flatMap_append,← ih (fun k less => held k (Nat.lt_succ_of_lt less)),split,take_add]
    have last : (file.drop (edge m)).take (edge (m + 1) - edge m) = bodies m := held m (Nat.lt_succ_self m)
    rw [last,flatMap_singleton]

theorem writeAll_flatMap (first : edge 0 = 0) (rising : Monotone edge) (fits : ∀ w ∈ writes, Fits edge count w)
    (covered : ∀ k < count, ∃ w ∈ writes, w.1 = k) (short : file.length ≤ edge count) :
    writeAll blank edge file writes = (List.range count).flatMap (fun k => (latest k writes).getD []) := by
  have whole : (writeAll blank edge file writes).take (edge count) = writeAll blank edge file writes :=
    take_of_length_le (length_writeAll rising fits short)
  rw [← whole]
  refine take_pieces first rising (fun k less => ?_)
  obtain ⟨body,found⟩ := isSome_iff_exists.mp (latest_isSome.mpr (covered k less))
  rw [found]
  exact (piece_writeAll rising fits k).1 body found

theorem length_pieces (first : edge 0 = 0) (fits : ∀ w ∈ writes, Fits edge count w) (covered : ∀ k < count, ∃ w ∈ writes, w.1 = k) :
    ((List.range count).flatMap (fun k => (latest k writes).getD [])).length = edge count := by
  have upto : ∀ m ≤ count, ((List.range m).flatMap (fun k => (latest k writes).getD [])).length = edge m := by
    intro m
    induction m with
    | zero => intro _; exact first.symm
    | succ m ih =>
      intro less
      obtain ⟨body,found⟩ := isSome_iff_exists.mp (latest_isSome.mpr (covered m less))
      have reach : edge m + body.length = edge (m + 1) := (fits (m,body) (latest_mem found)).2.2
      rw [range_succ,flatMap_append,length_append,ih (Nat.le_of_succ_le less),flatMap_singleton,found]
      exact reach
  exact upto count (Nat.le_refl count)

end Pieces

end SparseFile
