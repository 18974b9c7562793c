import Ownly.Lib.KeyMap
import Ownly.Lib.Ancestry

-- The tables folders and files as far as they make up the tree: who owns a row, where it
-- is, what a folder is called, and whether the row is in the recycle bin.
namespace Ownly.Folders
open List Option KeyMap Function

structure FolderRow where
  userId : String
  parentId : Option String
  name : String
  deletedAt : Option Int
  deriving DecidableEq, Repr

structure FileRow where
  userId : String
  folderId : Option String
  deletedAt : Option Int
  deriving DecidableEq, Repr

structure Tree where
  folders : KeyMap String FolderRow
  files : KeyMap String FileRow

def FolderRow.Active (row : FolderRow) : Prop := row.deletedAt = none

def FileRow.Active (row : FileRow) : Prop := row.deletedAt = none

instance (row : FolderRow) : Decidable row.Active := inferInstanceAs (Decidable (_ = _))

instance (row : FileRow) : Decidable row.Active := inferInstanceAs (Decidable (_ = _))

-- `SELECT 1 FROM folders WHERE id = $1 AND deleted_at IS NULL`
def activeFolder (folders : KeyMap String FolderRow) (id : String) : Bool := (folders.get id).any (fun row => decide row.Active)

def activeFile (files : KeyMap String FileRow) (id : String) : Bool := (files.get id).any (fun row => decide row.Active)

-- The way up by parent_id: over all rows, and over active rows alone.
def parent (folders : KeyMap String FolderRow) (id : String) : Option String := (folders.get id).bind (·.parentId)

def activeParent (folders : KeyMap String FolderRow) (id : String) : Option String :=
  (folders.get id).bind (fun row => if row.Active then row.parentId else none)

-- `SELECT id FROM folders WHERE parent_id = $1 AND ..`
def childrenWhere (folders : KeyMap String FolderRow) (keep : FolderRow → Bool) (id : String) : List String :=
  (folders.entries.filter (fun entry => decide (entry.2.parentId = some id) && keep entry.2)).map (·.1)

def Forest (folders : KeyMap String FolderRow) : Prop := Ancestry.Acyclic (parent folders)

section Lemmas
variable {folders : KeyMap String FolderRow} {files : KeyMap String FileRow} {id above : String} {row : FolderRow}
  {keep : FolderRow → Bool} {child : String}

theorem activeFolder_iff : activeFolder folders id = true ↔ ∃ row, folders.get id = some row ∧ row.Active := by
  simp [activeFolder,Option.any_eq_true]

theorem parent_eq (present : folders.get id = some row) : parent folders id = row.parentId := by
  rw [parent,present]
  rfl

theorem parent_some (up : parent folders id = some above) : ∃ row, folders.get id = some row ∧ row.parentId = some above :=
  bind_eq_some_iff.mp up

theorem activeParent_eq (present : folders.get id = some row) (active : row.Active) : activeParent folders id = row.parentId := by
  rw [activeParent,present,bind_some,if_pos active]

theorem activeParent_some (up : activeParent folders id = some above) :
    ∃ row, folders.get id = some row ∧ row.Active ∧ row.parentId = some above := by
  obtain ⟨row,present,linked⟩ := bind_eq_some_iff.mp up
  split at linked
  · exact ⟨row,present,by assumption,linked⟩
  · cases linked

theorem activeParent_parent (up : activeParent folders id = some above) : parent folders id = some above := by
  obtain ⟨row,present,_,linked⟩ := activeParent_some up
  rw [parent_eq present]
  exact linked

theorem childrenWhere_mem : child ∈ childrenWhere folders keep id ↔
    ∃ row, folders.get child = some row ∧ row.parentId = some id ∧ keep row = true := by
  unfold childrenWhere
  rw [List.mem_map]
  constructor
  · rintro ⟨entry,member,rfl⟩
    obtain ⟨stored,holds⟩ := mem_filter.mp member
    rw [Bool.and_eq_true,decide_eq_true_eq] at holds
    exact ⟨_,get_eq_some.mpr stored,holds⟩
  · rintro ⟨row,present,linked,kept⟩
    refine ⟨⟨child,row⟩,mem_filter.mpr ⟨get_eq_some.mp present,?_⟩,rfl⟩
    rw [Bool.and_eq_true,decide_eq_true_eq]
    exact ⟨linked,kept⟩

theorem childrenWhere_parent (member : child ∈ childrenWhere folders keep id) :
    parent folders child = some id := by
  obtain ⟨row,present,linked,_⟩ := childrenWhere_mem.mp member
  rw [parent_eq present]
  exact linked

theorem childrenWhere_nodup : (childrenWhere folders keep id).Nodup := by
  have keys : (folders.entries.map (·.1)).Nodup := folders.keys_nodup
  exact keys.sublist (filter_sublist.map _)

theorem activeParent_acyclic (forest : Forest folders) : Ancestry.Acyclic (activeParent folders) :=
  Ancestry.acyclic_of_sub (fun _ _ => activeParent_parent) forest

theorem parent_listed (up : parent folders id = some above) : id ∈ folders.entries.map (·.1) := by
  obtain ⟨row,present,_⟩ := parent_some up
  exact mem_map.mpr ⟨_,get_eq_some.mp present,rfl⟩

theorem childrenWhere_listed : childrenWhere folders keep id ⊆ folders.entries.map (·.1) := by
  intro child member
  exact parent_listed (childrenWhere_parent member)

theorem forest_of_rank {rank : String → Nat}
    (falls : ∀ entry ∈ folders.entries, ∀ above ∈ entry.2.parentId.toList, rank above < rank entry.1) : Forest folders := by
  have lower : ∀ id above, parent folders id = some above → rank above < rank id := by
    intro id above up
    obtain ⟨row,present,linked⟩ := parent_some up
    exact falls _ (get_eq_some.mp present) above (by rw [linked]; exact mem_singleton_self _)
  exact Ancestry.acyclic_of_rank lower

theorem parent_set {row : FolderRow} : parent (folders.set id row) = Function.update (parent folders) id row.parentId := by
  funext other
  unfold parent
  rw [get_set]
  by_cases same : other = id
  · subst same
    rw [if_pos rfl,update_self]
    rfl
  · rw [if_neg same,update_of_ne same]

end Lemmas

end Ownly.Folders
