import Mathlib.Data.List.AList

-- Hash maps as association lists with distinct keys: what a program may do with
-- one, each operation with the lookup it leaves behind.
abbrev KeyMap (κ ν : Type*) := AList (fun _ : κ => ν)

namespace KeyMap
open List Function
variable {κ ν : Type*} [DecidableEq κ] {m : KeyMap κ ν} {k k' : κ} {v : ν}

def empty : KeyMap κ ν := ∅

def get (m : KeyMap κ ν) (k : κ) : Option ν := AList.lookup k m

def contains (m : KeyMap κ ν) (k : κ) : Bool := (m.get k).isSome

def set (m : KeyMap κ ν) (k : κ) (v : ν) : KeyMap κ ν := AList.insert k v m

def remove (m : KeyMap κ ν) (k : κ) : KeyMap κ ν := AList.erase k m

def view {μ : Type*} (m : KeyMap κ ν) (f : κ → ν → μ) : KeyMap κ μ :=
  ⟨m.entries.map (fun e => ⟨e.1,f e.1 e.2⟩),by
    have keys : (m.entries.map (fun e => (⟨e.1,f e.1 e.2⟩ : Sigma fun _ : κ => μ))).keys = m.entries.keys := by
      simp [List.keys,map_map,comp_def]
    rw [List.NodupKeys,keys]
    exact m.nodupKeys⟩

def mapEntries (m : KeyMap κ ν) (f : κ → ν → ν) : KeyMap κ ν :=
  ⟨m.entries.map (fun e => ⟨e.1,f e.1 e.2⟩),by
    have keys : (m.entries.map (fun e => (⟨e.1,f e.1 e.2⟩ : Sigma fun _ : κ => ν))).keys = m.entries.keys := by
      simp [List.keys,map_map,comp_def]
    rw [List.NodupKeys,keys]
    exact m.nodupKeys⟩

def mapValues (m : KeyMap κ ν) (f : ν → ν) : KeyMap κ ν := m.mapEntries (fun _ => f)

def modify (m : KeyMap κ ν) (k : κ) (f : ν → ν) : KeyMap κ ν :=
  m.mapEntries (fun k' v => if k' = k then f v else v)

def retain (m : KeyMap κ ν) (keep : κ → ν → Bool) : KeyMap κ ν :=
  ⟨m.entries.filter (fun e => keep e.1 e.2),m.nodupKeys.sublist filter_sublist⟩

def any (m : KeyMap κ ν) (p : κ → ν → Bool) : Bool := m.entries.any (fun e => p e.1 e.2)

@[simp] theorem get_empty : (empty : KeyMap κ ν).get k = none := rfl

@[simp] theorem get_set_self : (m.set k v).get k = some v := AList.lookup_insert m

theorem get_set_ne (ne : k' ≠ k) : (m.set k v).get k' = m.get k' := AList.lookup_insert_ne ne

theorem get_set : (m.set k v).get k' = if k' = k then some v else m.get k' := by
  split
  · subst k'; exact get_set_self
  · exact get_set_ne (by assumption)

@[simp] theorem get_remove_self : (m.remove k).get k = none := AList.lookup_erase k m

theorem get_remove_ne (ne : k' ≠ k) : (m.remove k).get k' = m.get k' := AList.lookup_erase_ne ne

@[simp] theorem get_view {μ : Type*} {f : κ → ν → μ} : (m.view f).get k = (m.get k).map (f k) := by
  obtain ⟨entries,distinct⟩ := m
  simp only [get,view,AList.lookup]
  clear distinct
  induction entries with
  | nil => rfl
  | cons e rest ih =>
    obtain ⟨k',v⟩ := e
    by_cases same : k = k'
    · subst k'
      simp only [map_cons]
      rw [dlookup_cons_eq,dlookup_cons_eq]
      rfl
    · simp only [map_cons]
      rw [dlookup_cons_ne _ _ same,dlookup_cons_ne _ _ same]
      exact ih

@[simp] theorem get_mapEntries {f : κ → ν → ν} : (m.mapEntries f).get k = (m.get k).map (f k) := get_view

@[simp] theorem get_mapValues {f : ν → ν} : (m.mapValues f).get k = (m.get k).map f := get_mapEntries

@[simp] theorem get_modify_self {f : ν → ν} : (m.modify k f).get k = (m.get k).map f := by
  simp [modify]

theorem get_eq_some : m.get k = some v ↔ ⟨k,v⟩ ∈ m.entries := AList.mem_lookup_iff

@[simp] theorem get_retain {keep : κ → ν → Bool} : (m.retain keep).get k = (m.get k).filter (keep k) := by
  apply Option.ext
  intro v
  rw [get_eq_some]
  simp only [retain,mem_filter,← get_eq_some,Option.filter_eq_some_iff]

theorem any_iff {p : κ → ν → Bool} : m.any p = true ↔ ∃ k v, m.get k = some v ∧ p k v = true := by
  simp only [any,any_eq_true]
  constructor
  · rintro ⟨⟨k,v⟩,member,holds⟩; exact ⟨k,v,get_eq_some.mpr member,holds⟩
  · rintro ⟨k,v,found,holds⟩; exact ⟨⟨k,v⟩,get_eq_some.mp found,holds⟩

end KeyMap
