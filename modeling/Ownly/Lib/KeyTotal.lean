import Ownly.Lib.KeyMap
import Mathlib.Algebra.BigOperators.Group.Finset.Basic
import Mathlib.Algebra.Order.BigOperators.Group.Finset
import Mathlib.Algebra.Order.Group.Int
import Mathlib.Algebra.Order.Ring.Int

-- A sum over the entries of a map: what one write changes of it, and how it is
-- bounded by a sum over the keys the map may hold.
namespace KeyMap
open Finset
open Option
variable {κ ν : Type*} {m : KeyMap κ ν} {f g : κ → ν → Int}

def total (m : KeyMap κ ν) (f : κ → ν → Int) : Int := (m.entries.map (fun e => f e.1 e.2)).sum

theorem total_mapValues (m : KeyMap κ ν) (change : ν → ν) (f : κ → ν → Int) :
    (m.mapValues change).total f = m.total (fun k v => f k (change v)) := by
  simp only [total,mapValues,mapEntries,List.map_map,Function.comp_def]

theorem total_mapEntries [DecidableEq κ] (m : KeyMap κ ν) (change : κ → ν → ν) (f : κ → ν → Int) :
    (m.mapEntries change).total f = m.total (fun k v => f k (change k v)) := by
  simp only [total,mapEntries,List.map_map,Function.comp_def]

theorem total_mono [DecidableEq κ] (less : ∀ k v, m.get k = some v → f k v ≤ g k v) :
    m.total f ≤ m.total g := by
  refine List.sum_le_sum ?_
  intro entry member
  exact less entry.1 entry.2 (get_eq_some.mpr member)

theorem total_congr [DecidableEq κ] (same : ∀ k v, m.get k = some v → f k v = g k v) :
    m.total f = m.total g :=
  le_antisymm (total_mono (fun k v found => (same k v found).le)) (total_mono (fun k v found => (same k v found).ge))

theorem total_add (m : KeyMap κ ν) (f g : κ → ν → Int) : m.total (fun k v => f k v + g k v) = m.total f + m.total g :=
  List.sum_map_add

variable [DecidableEq κ] {m : KeyMap κ ν} {k : κ} {v w : ν} {f : κ → ν → Int} {g : κ → Int} {keys : Finset κ}

theorem total_insert (fresh : m.get k = none) : (m.set k v).total f = f k v + m.total f := by
  have absent : k ∉ m := by
    rw [← AList.lookup_eq_none]
    exact fresh
  rw [total,set,AList.entries_insert_of_notMem absent,List.map_cons,List.sum_cons,total]

theorem total_set (found : m.get k = some v) : (m.set k w).total f = m.total f - f k v + f k w := by
  have member : k ∈ m.entries.keys := List.mem_keys_of_mem (get_eq_some.mp found)
  obtain ⟨v',front,back,_,same,erased⟩ := List.exists_of_kerase member
  have value : v' = v := by
    have again : m.get k = some v' := get_eq_some.mpr (by rw [same]; simp)
    rw [found] at again
    exact (Option.some.inj again).symm
  have written : (m.set k w).entries = ⟨k,w⟩ :: (front ++ back) := by
    rw [← erased]
    rfl
  rw [total,total,written,same,value]
  simp only [List.map_cons,List.map_append,List.sum_cons,List.sum_append]
  omega

theorem total_eq_sum (within : ∀ k v, m.get k = some v → k ∈ keys) :
    m.total f = ∑ k ∈ keys, ((m.get k).map (f k)).getD 0 := by
  induction m using AList.insertRec with
  | H0 => exact (Finset.sum_eq_zero (fun k _ => rfl)).symm
  | IH k v rest absent ih =>
    have fresh : get rest k = none := AList.lookup_eq_none.mpr absent
    have inside : k ∈ keys := within k v get_set_self
    have others : ∀ {k' v'}, get rest k' = some v' → k' ≠ k := by
      intro k' v' found same
      rw [same,fresh] at found
      cases found
    have sum := ih (fun k' v' found => within k' v' ((get_set_ne (others found)).trans found))
    have whole : (set rest k v).total f = f k v + total rest f := total_insert fresh
    have written : AList.insert k v rest = set rest k v := rfl
    have split : ∀ m : KeyMap κ ν, ∑ k' ∈ keys, ((m.get k').map (f k')).getD 0 =
        ((m.get k).map (f k)).getD 0 + ∑ k' ∈ keys.erase k, ((m.get k').map (f k')).getD 0 :=
      fun m => (Finset.add_sum_erase keys _ inside).symm
    have gone : ((get rest k).map (f k)).getD 0 = 0 := by rw [fresh]; rfl
    have here : (((set rest k v).get k).map (f k)).getD 0 = f k v := by rw [get_set_self]; rfl
    have same : ∑ k' ∈ keys.erase k, (((set rest k v).get k').map (f k')).getD 0 =
        ∑ k' ∈ keys.erase k, ((get rest k').map (f k')).getD 0 :=
      Finset.sum_congr rfl (fun k' member => by rw [get_set_ne (Finset.ne_of_mem_erase member)])
    rw [written,whole,sum,split,split,gone,here,same]
    omega

theorem total_alike {m m' : KeyMap κ ν} (same : ∀ k, m.get k = m'.get k) : m.total f = m'.total f := by
  have within : ∀ k v, m.get k = some v → k ∈ m.entries.keys.toFinset :=
    fun k v found => List.mem_toFinset.mpr (List.mem_keys_of_mem (get_eq_some.mp found))
  rw [total_eq_sum within,total_eq_sum (fun k v found => within k v ((same k).trans found))]
  exact Finset.sum_congr rfl (fun k _ => by rw [same])

theorem total_split (found : m.get k = some v) :
    m.total f = m.total (fun k' v' => if k' = k then 0 else f k' v') + f k v := by
  have within : ∀ k' v', m.get k' = some v' → k' ∈ m.entries.keys.toFinset :=
    fun k' v' found => List.mem_toFinset.mpr (List.mem_keys_of_mem (get_eq_some.mp found))
  have inside := within k v found
  rw [total_eq_sum within,total_eq_sum within,← Finset.add_sum_erase _ _ inside,← Finset.add_sum_erase _ _ inside,found]
  have others : ∑ k' ∈ m.entries.keys.toFinset.erase k,
      ((m.get k').map (fun v' => if k' = k then 0 else f k' v')).getD 0 =
        ∑ k' ∈ m.entries.keys.toFinset.erase k, ((m.get k').map (f k')).getD 0 :=
    Finset.sum_congr rfl (fun k' member => by simp only [if_neg (Finset.ne_of_mem_erase member)])
  have own : (some v).map (fun v' => if k = k then 0 else f k v') = some 0 := by rw [map_some,if_pos rfl]
  rw [others,own,map_some,getD_some,getD_some]
  omega

theorem total_full (within : ∀ k v, m.get k = some v → k ∈ keys) (share : ∀ k v, m.get k = some v → f k v ≤ g k)
    (positive : ∀ k ∈ keys, 0 < g k) (reach : ∑ k ∈ keys, g k ≤ m.total f) (inside : k ∈ keys) :
    ∃ v, m.get k = some v ∧ f k v = g k := by
  have bound : ∀ k ∈ keys, ((m.get k).map (f k)).getD 0 ≤ g k := by
    intro k member
    cases found : m.get k with
    | none => exact Int.le_of_lt (positive k member)
    | some v => exact share k v found
  rw [total_eq_sum within] at reach
  have equal := (Finset.sum_eq_sum_iff_of_le bound).mp (le_antisymm (Finset.sum_le_sum bound) reach) k inside
  cases found : m.get k with
  | none =>
    rw [found] at equal
    have some := positive k inside
    rw [← equal] at some
    exact absurd some (Int.lt_irrefl 0)
  | some v =>
    rw [found] at equal
    exact ⟨v,rfl,equal⟩

end KeyMap
