import Mathlib

-- Areas that do not meet, kept as a list: what taking some away and putting one in
-- leaves, and that a point tells which one it is in.
namespace Patchwork
open List
variable {ι P γ : Type*} {area : ι → Set P} {patches : List ι} {new a b : ι} {p : P}

def Apart (area : ι → Set P) (patches : List ι) : Prop := patches.Pairwise (fun a b => Disjoint (area a) (area b))

section
variable (apart : Apart area patches)
include apart

theorem Apart.filter (keep : ι → Bool) : Apart area (patches.filter keep) :=
  List.Pairwise.sublist filter_sublist apart

theorem Apart.place (clear : ∀ other ∈ patches, Disjoint (area other) (area new)) :
    Apart area (patches ++ [new]) := by
  refine pairwise_append.mpr ⟨apart,pairwise_singleton _ _,fun other member last found => ?_⟩
  obtain rfl := mem_singleton.mp found
  exact clear other member

theorem Apart.unique (left : a ∈ patches) (right : b ∈ patches) (inA : p ∈ area a) (inB : p ∈ area b) :
    a = b := by
  induction patches with
  | nil => cases left
  | cons first rest ih =>
    obtain ⟨clear,apart⟩ := pairwise_cons.mp apart
    rcases mem_cons.mp left with rfl | behind
    · rcases mem_cons.mp right with rfl | right
      · rfl
      · exact absurd inB (Set.disjoint_left.mp (clear b right) inA)
    · rcases mem_cons.mp right with rfl | among
      · exact absurd inA (Set.disjoint_left.mp (clear a behind) inB)
      · exact ih apart behind among

theorem Apart.nodup (filled : ∀ a, (area a).Nonempty) : patches.Nodup := by
  refine List.Pairwise.imp (fun {a b} clear same => ?_) apart
  obtain ⟨p,inside⟩ := filled a
  subst same
  exact Set.disjoint_left.mp clear inside inside

end

theorem findSome_none {look : ι → P → Option γ} (looks : ∀ a p, look a p ≠ none ↔ p ∈ area a) :
    patches.findSome? (look · p) = none ↔ ∀ a ∈ patches, p ∉ area a := by
  rw [findSome?_eq_none_iff]
  refine forall₂_congr (fun a _ => ?_)
  rw [← looks a p,not_not]

end Patchwork
