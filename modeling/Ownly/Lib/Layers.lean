import Mathlib.Data.List.Induction
import Mathlib.Order.Defs.Unbundled

-- Layers put on a surface one after another: what is seen of a place is the last one that
-- covers it.
namespace Layers
open List
variable {ι α : Type*} (covers : ι → α → Prop) [∀ i p, Decidable (covers i p)] {layers : List ι} {p : α} {i j : ι}

def top (layers : List ι) (p : α) : Option ι :=
  layers.foldl (fun seen i => if covers i p then some i else seen) none

@[simp] theorem top_nil : top covers [] p = none := rfl

@[simp] theorem top_append : top covers (layers ++ [i]) p = if covers i p then some i else top covers layers p := by
  simp [top,foldl_append]

theorem top_mem (seen : top covers layers p = some i) : i ∈ layers ∧ covers i p := by
  induction layers using List.reverseRecOn with
  | nil => cases seen
  | append_singleton layers last ih =>
    rw [top_append] at seen
    by_cases covered : covers last p
    · rw [if_pos covered] at seen
      cases seen
      exact ⟨mem_append_right _ mem_cons_self,covered⟩
    · rw [if_neg covered] at seen
      exact ⟨mem_append_left _ (ih seen).1,(ih seen).2⟩

-- With the layers in the order of `r`, the one that is seen is covered by no later one.
theorem top_iff (r : ι → ι → Prop) [Std.Asymm r] (sorted : layers.Pairwise r) :
    top covers layers p = some i ↔ i ∈ layers ∧ covers i p ∧ ∀ j ∈ layers, r i j → ¬covers j p := by
  induction layers using List.reverseRecOn with
  | nil => simp
  | append_singleton layers last ih =>
    obtain ⟨before,_,above⟩ := pairwise_append.mp sorted
    have above : ∀ j ∈ layers, r j last := fun j member => above j member last mem_cons_self
    rw [top_append]
    by_cases covered : covers last p
    · rw [if_pos covered]
      constructor
      · intro seen
        cases seen
        refine ⟨mem_append_right _ mem_cons_self,covered,fun j member later => ?_⟩
        rcases mem_append.mp member with member | member
        · exact absurd later (Std.Asymm.asymm _ _ (above j member))
        · cases mem_singleton.mp member
          exact absurd later (Std.Asymm.asymm _ _ later)
      · rintro ⟨member,_,free⟩
        rcases mem_append.mp member with member | member
        · exact absurd covered (free last (mem_append_right _ mem_cons_self) (above i member))
        · rw [mem_singleton.mp member]
    · rw [if_neg covered,ih before]
      constructor
      · rintro ⟨member,here,free⟩
        refine ⟨mem_append_left _ member,here,fun j member later => ?_⟩
        rcases mem_append.mp member with member | member
        · exact free j member later
        · rwa [mem_singleton.mp member]
      · rintro ⟨member,here,free⟩
        rcases mem_append.mp member with member | member
        · exact ⟨member,here,fun j member' later => free j (mem_append_left _ member') later⟩
        · rw [mem_singleton.mp member] at here
          exact absurd here covered

end Layers
