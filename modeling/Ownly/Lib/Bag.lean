import Mathlib.Data.List.Count
import Mathlib.Data.List.Perm.Basic

-- Things under way in no order: the environment takes out any one of them.
namespace Bag
variable {α : Type*} {bag rest : List α} {x : α} {index : Nat}

def pick (bag : List α) (index : Nat) : Option (α × List α) := bag[index]?.map (fun x => (x,bag.eraseIdx index))

theorem pick_perm (picked : pick bag index = some (x,rest)) : bag.Perm (x :: rest) := by
  obtain ⟨y,found,same⟩ := Option.map_eq_some_iff.mp picked
  obtain ⟨rfl,rfl⟩ := Prod.mk.inj same
  obtain ⟨inside,rfl⟩ := List.getElem?_eq_some_iff.mp found
  exact (List.getElem_cons_eraseIdx_perm inside).symm

theorem mem_pick (picked : pick bag index = some (x,rest)) : y ∈ bag ↔ y = x ∨ y ∈ rest := by
  rw [(pick_perm picked).mem_iff,List.mem_cons]

end Bag
