import Ownly.Lib.Ancestry
import Mathlib.Logic.Relation

-- A walk over what lies below a node with a stack of nodes still to look at: what it has
-- found at its end, and that it ends where every node has one node above it.
namespace Worklist
open List
variable {α : Type*} {below : α → List α} {fuel more : Nat} {stack found popped result nodes : List α} {root a b : α}

def walk (below : α → List α) : Nat → List α → List α → Option (List α)
  | _,[],found => some found
  | 0,_ :: _,_ => none
  | fuel + 1,a :: rest,found => walk below fuel ((below a).reverse ++ rest) (found ++ below a)

def Below (below : α → List α) : α → α → Prop := Relation.TransGen (fun a b => b ∈ below a)

theorem below_iff : Below below a b ↔ b ∈ below a ∨ ∃ c ∈ below a, Below below c b := by
  constructor
  · intro path
    rcases Relation.TransGen.head'_iff.mp path with ⟨c,first,rest⟩
    rcases Relation.reflTransGen_iff_eq_or_transGen.mp rest with same | later
    · exact .inl (same ▸ first)
    · exact .inr ⟨c,first,later⟩
  · rintro (first | ⟨c,first,rest⟩)
    · exact .single first
    · exact .head first rest

theorem walk_mem (ended : walk below fuel stack found = some result) :
    b ∈ result ↔ b ∈ found ∨ ∃ a ∈ stack, Below below a b := by
  induction fuel generalizing stack found with
  | zero =>
    cases stack with
    | nil =>
      rw [walk] at ended
      cases ended
      simp
    | cons a rest => cases ended
  | succ fuel ih =>
    cases stack with
    | nil =>
      rw [walk] at ended
      cases ended
      simp
    | cons a rest =>
      rw [ih ended]
      simp only [mem_append,mem_reverse,mem_cons]
      constructor
      · rintro ((old | new) | ⟨c,first | later,path⟩)
        · exact .inl old
        · exact .inr ⟨a,.inl rfl,below_iff.mpr (.inl new)⟩
        · exact .inr ⟨a,.inl rfl,below_iff.mpr (.inr ⟨c,first,path⟩)⟩
        · exact .inr ⟨c,.inr later,path⟩
      · rintro (old | ⟨c,rfl | later,path⟩)
        · exact .inl (.inl old)
        · rcases below_iff.mp path with new | ⟨d,first,rest⟩
          · exact .inl (.inr new)
          · exact .inr ⟨d,.inl first,rest⟩
        · exact .inr ⟨c,.inr later,path⟩

structure Tracked (up : α → Option α) (nodes : List α) (root : α) (popped stack : List α) : Prop where
  distinct : (popped ++ stack).Nodup
  known : popped ++ stack ⊆ nodes
  placed : ∀ a ∈ popped ++ stack, a = root ∨ ∃ b ∈ popped, up a = some b
  below : ∀ a ∈ popped ++ stack, Ancestry.Reaches up a root

section Ends
variable {up : α → Option α} {rest : List α}

theorem Tracked.next (tracked : Tracked up nodes root popped (a :: rest)) (acyclic : Ancestry.Acyclic up)
    (linked : ∀ a, ∀ b ∈ below a, up b = some a) (once : ∀ a, (below a).Nodup) (inside : ∀ a, below a ⊆ nodes) :
    Tracked up nodes root (a :: popped) ((below a).reverse ++ rest) := by
  have moved : (popped ++ a :: rest).Perm (a :: popped ++ rest) := perm_middle
  have shuffled : (a :: popped ++ ((below a).reverse ++ rest)).Perm ((below a) ++ (popped ++ a :: rest)) := by
    have front : (a :: popped ++ ((below a).reverse ++ rest)).Perm ((below a).reverse ++ (a :: popped ++ rest)) :=
      perm_append_comm_assoc ..
    exact front.trans ((reverse_perm _).append moved.symm)
  have member : ∀ c, c ∈ a :: popped ++ ((below a).reverse ++ rest) ↔ c ∈ below a ∨ c ∈ popped ++ a :: rest := by
    intro c
    rw [shuffled.mem_iff,mem_append]
  have here : a ∈ popped ++ a :: rest := mem_append_right _ mem_cons_self
  have unpopped : a ∉ popped := fun old => (nodup_append.mp tracked.distinct).2.2 a old a mem_cons_self rfl
  refine ⟨?_,?_,?_,?_⟩
  · rw [shuffled.nodup_iff,nodup_append]
    refine ⟨once a,tracked.distinct,?_⟩
    intro c under d old same
    subst same
    -- A node of the stack below `a` would be the root, or have been put there before `a` was taken off.
    rcases tracked.placed c old with rfl | ⟨b,taken,above⟩
    · exact acyclic _ a (linked a _ under) (tracked.below a here)
    · rw [linked a c under] at above
      cases above
      exact unpopped taken
  · intro c listed
    rcases (member c).mp listed with under | old
    · exact inside a under
    · exact tracked.known old
  · intro c listed
    rcases (member c).mp listed with under | old
    · exact .inr ⟨a,mem_cons_self,linked a c under⟩
    · rcases tracked.placed c old with same | ⟨b,taken,above⟩
      · exact .inl same
      · exact .inr ⟨b,mem_cons_of_mem _ taken,above⟩
  · intro c listed
    rcases (member c).mp listed with under | old
    · exact (tracked.below a here).head (linked a c under)
    · exact tracked.below c old

theorem Tracked.ends (tracked : Tracked up nodes root popped stack) (acyclic : Ancestry.Acyclic up)
    (linked : ∀ a, ∀ b ∈ below a, up b = some a) (once : ∀ a, (below a).Nodup) (inside : ∀ a, below a ⊆ nodes)
    (enough : nodes.length ≤ fuel + popped.length) : ∃ result, walk below fuel stack found = some result := by
  induction fuel generalizing popped stack found with
  | zero =>
    cases stack with
    | nil => exact ⟨found,by rw [walk]⟩
    | cons a rest =>
      have shorter := (tracked.distinct.subperm tracked.known).length_le
      rw [length_append,length_cons] at shorter
      omega
  | succ fuel ih =>
    cases stack with
    | nil => exact ⟨found,by rw [walk]⟩
    | cons a rest =>
      refine ih (tracked.next acyclic linked once inside) ?_
      rw [length_cons]
      omega

-- With as much fuel as there are nodes, the walk from one of them ends.
theorem walk_ends (acyclic : Ancestry.Acyclic up) (linked : ∀ a, ∀ b ∈ below a, up b = some a) (once : ∀ a, (below a).Nodup)
    (inside : ∀ a, below a ⊆ nodes) (member : root ∈ nodes) (enough : nodes.length ≤ fuel) :
    ∃ result, walk below fuel [root] found = some result := by
  have start : Tracked up nodes root [] [root] := by
    refine ⟨nodup_cons.mpr ⟨not_mem_nil,nodup_nil⟩,?_,?_,?_⟩
    · rintro a listed
      cases mem_singleton.mp listed
      exact member
    · intro a listed
      exact .inl (mem_singleton.mp listed)
    · intro a listed
      cases mem_singleton.mp listed
      exact Ancestry.reaches_refl up _
  exact start.ends acyclic linked once inside enough

end Ends

end Worklist
