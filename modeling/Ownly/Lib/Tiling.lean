import Mathlib.Algebra.BigOperators.Group.List.Basic
import Mathlib.Algebra.Order.Group.Defs
import Mathlib.Algebra.Order.Monoid.Unbundled.Basic

-- Pieces that cover an interval one behind the other, each given by its offset and its
-- length.
namespace Tiling
open List
variable {α : Type*} [AddCommGroup α] [LinearOrder α]
variable {start stop x : α} {pieces more : List (α × α)} {piece : α × α}

def Tiles : α → List (α × α) → α → Prop
  | start,[],stop => start = stop
  | start,(offset,length) :: rest,stop => offset = start ∧ 0 < length ∧ Tiles (start + length) rest stop

def Holds (piece : α × α) (x : α) : Prop := piece.1 ≤ x ∧ x < piece.1 + piece.2

theorem Tiles.append (tiles : Tiles start pieces x) (behind : Tiles x more stop) : Tiles start (pieces ++ more) stop := by
  induction pieces generalizing start with
  | nil => cases tiles; exact behind
  | cons piece rest ih =>
    obtain ⟨same,positive,tiles⟩ := tiles
    exact ⟨same,positive,ih tiles⟩

theorem Tiles.total (tiles : Tiles start pieces stop) : start + (pieces.map Prod.snd).sum = stop := by
  induction pieces generalizing start with
  | nil => simpa [Tiles] using tiles
  | cons piece rest ih =>
    obtain ⟨_,_,tiles⟩ := tiles
    simpa [add_assoc] using ih tiles

theorem Tiles.positive (tiles : Tiles start pieces stop) (member : piece ∈ pieces) : 0 < piece.2 := by
  induction pieces generalizing start with
  | nil => cases member
  | cons first rest ih =>
    obtain ⟨_,positive,tiles⟩ := tiles
    rcases mem_cons.mp member with rfl | member
    · exact positive
    · exact ih tiles member

theorem tiles_steps (edge size : Nat → α) {count : Nat}
    (steps : ∀ k < count, 0 < size k ∧ edge (k + 1) = edge k + size k) :
    Tiles (edge 0) ((List.range count).map (fun k => (edge k,size k))) (edge count) := by
  induction count with
  | zero => exact rfl
  | succ count ih =>
    obtain ⟨positive,next⟩ := steps count (Nat.lt_succ_self count)
    rw [range_succ,map_append]
    exact (ih (fun k less => steps k (Nat.lt_succ_of_lt less))).append ⟨rfl,positive,next.symm⟩

variable [IsOrderedAddMonoid α]

section
variable (tiles : Tiles start pieces stop)
include tiles

theorem Tiles.ordered : start ≤ stop := by
  induction pieces generalizing start with
  | nil => exact le_of_eq tiles
  | cons piece rest ih =>
    obtain ⟨_,positive,tiles⟩ := tiles
    exact le_trans (le_add_of_nonneg_right (le_of_lt positive)) (ih tiles)

theorem Tiles.within (member : piece ∈ pieces) :
    start ≤ piece.1 ∧ piece.1 + piece.2 ≤ stop := by
  induction pieces generalizing start with
  | nil => cases member
  | cons first rest ih =>
    obtain ⟨rfl,positive,tiles⟩ := tiles
    rcases mem_cons.mp member with rfl | member
    · exact ⟨le_refl _,tiles.ordered⟩
    · obtain ⟨behind,inside⟩ := ih tiles member
      exact ⟨le_trans (le_add_of_nonneg_right (le_of_lt positive)) behind,inside⟩

theorem Tiles.one (low : start ≤ x) (high : x < stop) :
    ∃! piece, piece ∈ pieces ∧ Holds piece x := by
  induction pieces generalizing start with
  | nil => cases tiles; exact absurd high (not_lt_of_ge low)
  | cons first rest ih =>
    obtain ⟨rfl,positive,tiles⟩ := tiles
    rcases lt_or_ge x (first.1 + first.2) with before | behind
    · refine ⟨first,⟨mem_cons_self,low,before⟩,?_⟩
      rintro other ⟨member,above,_⟩
      rcases mem_cons.mp member with rfl | member
      · rfl
      · exact absurd (le_trans (tiles.within member).1 above) (not_le_of_gt before)
    · obtain ⟨piece,⟨member,holds⟩,only⟩ := ih tiles behind
      refine ⟨piece,⟨mem_cons_of_mem _ member,holds⟩,?_⟩
      rintro other ⟨found,inside⟩
      rcases mem_cons.mp found with rfl | found
      · exact absurd inside.2 (not_lt_of_ge behind)
      · exact only other ⟨found,inside⟩

end

end Tiling
