import Ownly.Authz.Decision

-- files/access.rs and files/listing.rs: what of other users' files and folders a user's
-- listings show, and when that is what the user may read.
namespace Ownly.Folders
open Authz (Policy GrantRow GrantEffect ResourceRef Subject Permission Unexpired Holds Granted Speaks loadUserGroupIds authorize)
open List Option KeyMap

def defaultListLimit : Int := 200

def maxListLimit : Int := 500

-- `clamp(1, MAX_LIST_LIMIT)` of the limit, `max(0)` of the offset.
def normalizePage (limit offset : Option Int) : Int × Int :=
  (max 1 (min maxListLimit (limit.getD defaultListLimit)),max 0 (offset.getD 0))

def contentPermissions : List String := ["content.read","content.write","content.delete","content.share","content.manage_acl"]

-- `permission IN (..) AND effect = 'allow' AND (expires_at IS NULL OR expires_at > now())`
def Listable (now : Int) (grant : GrantRow) : Prop :=
  grant.permission ∈ contentPermissions ∧ grant.effect = .allow ∧ Unexpired now grant

instance (now : Int) (grant : GrantRow) : Decidable (Listable now grant) := inferInstanceAs (Decidable (_ ∧ _ ∧ _))

def listableGrants (policy : Policy) (now : Int) (subject : Subject → Bool) : List GrantRow :=
  (policy.grants.entries.map (·.2)).filter (fun grant => decide (Listable now grant) && subject grant.subject)

def ofUser (userId : String) (subject : Subject) : Bool := decide (subject = .user userId)

def ofGroups (groupIds : List String) : Subject → Bool
  | .user _ => false
  | .group id => decide (id ∈ groupIds)

def grantRoots (policy : Policy) (now : Int) (userId : String) : List String :=
  let userGrants := (listableGrants policy now (ofUser userId)).filterMap (fun grant => Authz.folderIdOf grant.resource)
  let groupGrants := (listableGrants policy now (ofGroups (loadUserGroupIds policy userId))).filterMap (fun grant => Authz.folderIdOf grant.resource)
  (userGrants ++ groupGrants).dedup

def directlyGrantedFileIds (policy : Policy) (now : Int) (userId : String) : List String :=
  let userRows := (listableGrants policy now (ofUser userId)).filterMap (fun grant => Authz.fileIdOf grant.resource)
  let groupRows := (loadUserGroupIds policy userId).flatMap (fun groupId =>
    (listableGrants policy now (ofGroups [groupId])).filterMap (fun grant => Authz.fileIdOf grant.resource))
  (userRows ++ groupRows).dedup

def activeChildren (folders : KeyMap String FolderRow) : String → List String := childrenWhere folders (fun row => decide row.Active)

-- The recursive query adds the children of the rows it added last, until there are none.
def subtreeRows (folders : KeyMap String FolderRow) : Nat → List String → Option (List String)
  | _,[] => some []
  | 0,_ :: _ => none
  | rounds + 1,id :: last => (subtreeRows folders rounds ((id :: last).flatMap (activeChildren folders))).map ((id :: last) ++ ·)

def collectDescendantFolderIdsBatch (folders : KeyMap String FolderRow) (rootIds : List String) : Option (List String) :=
  (subtreeRows folders (folders.entries.length + 1) (rootIds.filter (activeFolder folders))).map
    (fun rows => rows.filter (fun id => decide (id ∉ rootIds)))

def readableFolderSubtreeIds (policy : Policy) (folders : KeyMap String FolderRow) (now : Int) (userId : String) : Option (List String) :=
  let rootIds := grantRoots policy now userId
  (if rootIds = [] then some [] else collectDescendantFolderIdsBatch folders rootIds).map (fun below => (rootIds ++ below).dedup)

-- An ORDER BY clause: it arranges the rows, each time in the same way.
structure OrderBy (ρ : Type) where
  sort : List ρ → List ρ
  perm : ∀ rows, (sort rows).Perm rows

structure ListResponse (ρ : Type) where
  rows : List ρ
  count : Int
  hasMore : Bool

def paged {ρ : Type} (order : OrderBy ρ) (rows : List ρ) (limit offset : Int) : ListResponse ρ :=
  let page := ((order.sort rows).drop offset.toNat).take limit.toNat
  ⟨page,rows.length,decide (offset + page.length < rows.length)⟩

def filesWhere (tree : Tree) (folderId : Option String) (visible : String → FileRow → Bool) : List (String × FileRow) :=
  (tree.files.entries.map (fun entry => (entry.1,entry.2))).filter
    (fun file => decide (file.2.Active ∧ file.2.folderId = folderId) && visible file.1 file.2)

def foldersWhere (tree : Tree) (parentId : Option String) (visible : String → FolderRow → Bool) : List (String × FolderRow) :=
  (tree.folders.entries.map (fun entry => (entry.1,entry.2))).filter
    (fun folder => decide (folder.2.Active ∧ folder.2.parentId = parentId) && visible folder.1 folder.2)

def listOwnedFiles (tree : Tree) (userId : String) (order : OrderBy (String × FileRow)) (folderId : Option String) (limit offset : Int) :
    ListResponse (String × FileRow) :=
  paged order (filesWhere tree folderId (fun _ row => decide (row.userId = userId))) limit offset

def listOwnedFolders (tree : Tree) (userId : String) (order : OrderBy (String × FolderRow)) (parentId : Option String)
    (limit offset : Int) : ListResponse (String × FolderRow) :=
  paged order (foldersWhere tree parentId (fun _ row => decide (row.userId = userId))) limit offset

-- Without a search text and a type filter.
def listAccessibleFiles (policy : Policy) (tree : Tree) (now : Int) (userId : String) (order : OrderBy (String × FileRow))
    (folderId : Option String) (limit offset : Int) : Option (ListResponse (String × FileRow)) := do
  let readableFolders ← readableFolderSubtreeIds policy tree.folders now userId
  let directFiles := directlyGrantedFileIds policy now userId
  if readableFolders = [] ∧ directFiles = [] then some (listOwnedFiles tree userId order folderId limit offset)
  else
    some (paged order (filesWhere tree folderId (fun id row => decide (row.userId = userId ∨
      row.userId ≠ userId ∧ ((∃ inside ∈ row.folderId.toList, inside ∈ readableFolders) ∨ id ∈ directFiles)))) limit offset)

def listAccessibleFolders (policy : Policy) (tree : Tree) (now : Int) (userId : String) (order : OrderBy (String × FolderRow))
    (parentId : Option String) (limit offset : Int) : Option (ListResponse (String × FolderRow)) := do
  let readableFolders ← readableFolderSubtreeIds policy tree.folders now userId
  if readableFolders = [] then some (listOwnedFolders tree userId order parentId limit offset)
  else
    some (paged order (foldersWhere tree parentId (fun id row => decide (row.userId = userId ∨
      row.userId ≠ userId ∧ id ∈ readableFolders))) limit offset)

section Expansion
variable {policy : Policy} {tree : Tree} {folders : KeyMap String FolderRow} {now : Int} {userId id root fileId : String}
  {level rows roots : List String} {rounds : Nat} {grant : GrantRow} {on : ResourceRef}

theorem activeChildren_mem : id ∈ activeChildren folders root ↔
    activeFolder folders id = true ∧ activeParent folders id = some root := by
  unfold activeChildren
  rw [childrenWhere_mem,activeFolder_iff]
  constructor
  · rintro ⟨row,present,linked,active⟩
    have yes := of_decide_eq_true active
    exact ⟨⟨row,present,yes⟩,(activeParent_eq present yes).trans linked⟩
  · rintro ⟨⟨row,present,active⟩,up⟩
    rw [activeParent_eq present active] at up
    exact ⟨row,present,up,decide_eq_true active⟩

theorem subtreeRows_mem (actives : ∀ id ∈ level, activeFolder folders id = true) (ended : subtreeRows folders rounds level = some rows) :
    id ∈ rows ↔ ∃ root ∈ level, Ancestry.Reaches (activeParent folders) id root := by
  induction rounds generalizing level rows with
  | zero =>
    cases level with
    | nil =>
      rw [subtreeRows] at ended
      cases ended
      simp
    | cons first rest => cases ended
  | succ rounds ih =>
    cases level with
    | nil =>
      rw [subtreeRows] at ended
      cases ended
      simp
    | cons first rest =>
      obtain ⟨later,inner,rfl⟩ := map_eq_some_iff.mp ended
      have children : ∀ id ∈ (first :: rest).flatMap (activeChildren folders), activeFolder folders id = true := by
        intro child member
        obtain ⟨above,_,under⟩ := mem_flatMap.mp member
        exact (activeChildren_mem.mp under).1
      rw [mem_append,ih children inner]
      constructor
      · rintro (here | ⟨child,member,reaches⟩)
        · exact ⟨id,here,Ancestry.reaches_refl _ id⟩
        · obtain ⟨above,listed,under⟩ := mem_flatMap.mp member
          exact ⟨above,listed,reaches.tail (activeChildren_mem.mp under).2⟩
      · rintro ⟨above,listed,k,climbed⟩
        cases k with
        | zero => exact .inl (Option.some.inj climbed ▸ listed)
        | succ k =>
          rw [Ancestry.climb_add] at climbed
          obtain ⟨child,lower,last⟩ := bind_eq_some_iff.mp climbed
          obtain ⟨top,up,same⟩ := bind_eq_some_iff.mp last
          cases same
          obtain ⟨row,present,active,_⟩ := activeParent_some up
          have under : child ∈ activeChildren folders above :=
            activeChildren_mem.mpr ⟨activeFolder_iff.mpr ⟨row,present,active⟩,up⟩
          exact .inr ⟨child,mem_flatMap.mpr ⟨above,listed,under⟩,k,lower⟩

theorem subtreeRows_ends (actives : ∀ id ∈ level, activeFolder folders id = true)
    (bounded : ∀ id root k, root ∈ level → Ancestry.climb (activeParent folders) k id = some root → k < rounds) :
    ∃ rows, subtreeRows folders rounds level = some rows := by
  induction rounds generalizing level with
  | zero =>
    cases level with
    | nil => exact ⟨[],by rw [subtreeRows]⟩
    | cons first rest => exact absurd (bounded first first 0 mem_cons_self rfl) (Nat.not_lt_zero 0)
  | succ rounds ih =>
    cases level with
    | nil => exact ⟨[],by rw [subtreeRows]⟩
    | cons first rest =>
      have deeper : ∃ rows, subtreeRows folders rounds ((first :: rest).flatMap (activeChildren folders)) = some rows := by
        refine ih ?_ ?_
        · intro child member
          obtain ⟨above,_,under⟩ := mem_flatMap.mp member
          exact (activeChildren_mem.mp under).1
        · intro id child k member climbed
          obtain ⟨above,listed,under⟩ := mem_flatMap.mp member
          refine Nat.lt_of_succ_lt_succ (bounded id above (k + 1) listed ?_)
          rw [Ancestry.climb_add,climbed]
          exact (Ancestry.climb_succ (activeChildren_mem.mp under).2).trans rfl
      obtain ⟨later,inner⟩ := deeper
      exact ⟨(first :: rest) ++ later,by rw [subtreeRows,inner]; rfl⟩

theorem collectDescendants_mem (forest : Forest folders) : ∃ below, collectDescendantFolderIdsBatch folders roots = some below ∧
    ∀ id, id ∈ below ↔ id ∉ roots ∧ ∃ root ∈ roots, activeFolder folders root = true ∧ Ancestry.Reaches (activeParent folders) id root := by
  have actives : ∀ id ∈ roots.filter (activeFolder folders), activeFolder folders id = true := fun id member => (mem_filter.mp member).2
  have short : ∀ id root k, root ∈ roots.filter (activeFolder folders) → Ancestry.climb (activeParent folders) k id = some root →
      k < folders.entries.length + 1 := by
    intro id root k _ climbed
    have bound := Ancestry.climb_bounded (activeParent_acyclic forest)
      (fun _ _ up => parent_listed (activeParent_parent up)) climbed
    rw [length_map] at bound
    exact Nat.lt_succ_of_le bound
  obtain ⟨rows,ended⟩ := subtreeRows_ends actives short
  refine ⟨rows.filter (fun id => decide (id ∉ roots)),by rw [collectDescendantFolderIdsBatch,ended]; rfl,?_⟩
  intro id
  rw [mem_filter,subtreeRows_mem actives ended,decide_eq_true_eq,and_comm]
  simp only [mem_filter,and_assoc]

theorem readable_mem (forest : Forest folders) : ∃ readable, readableFolderSubtreeIds policy folders now userId = some readable ∧
    ∀ id, id ∈ readable ↔ ∃ root ∈ grantRoots policy now userId,
      id = root ∨ activeFolder folders root = true ∧ Ancestry.Reaches (activeParent folders) id root := by
  unfold readableFolderSubtreeIds
  dsimp only
  by_cases none : grantRoots policy now userId = []
  · refine ⟨[],by rw [none]; rfl,?_⟩
    rw [none]
    simp
  · obtain ⟨below,ended,member⟩ : ∃ below, collectDescendantFolderIdsBatch folders (grantRoots policy now userId) = some below ∧
        ∀ id, id ∈ below ↔ id ∉ grantRoots policy now userId ∧ ∃ root ∈ grantRoots policy now userId,
          activeFolder folders root = true ∧ Ancestry.Reaches (activeParent folders) id root := collectDescendants_mem forest
    refine ⟨_,by rw [if_neg none,ended]; rfl,?_⟩
    intro id
    rw [mem_dedup,mem_append,member id]
    constructor
    · rintro (itself | ⟨_,root,listed,active,reaches⟩)
      · exact ⟨id,itself,.inl rfl⟩
      · exact ⟨root,listed,.inr ⟨active,reaches⟩⟩
    · rintro ⟨root,listed,rfl | ⟨active,reaches⟩⟩
      · exact .inl listed
      · by_cases itself : id ∈ grantRoots policy now userId
        · exact .inl itself
        · exact .inr ⟨itself,root,listed,active,reaches⟩

def Shows (policy : Policy) (now : Int) (userId : String) (on : ResourceRef) : Prop :=
  ∃ grant, Holds policy now userId grant ∧ Listable now grant ∧ grant.resource = on

theorem listable_mem {subject : Subject → Bool} : grant ∈ listableGrants policy now subject ↔
    (∃ id, policy.grants.get id = some grant) ∧ Listable now grant ∧ subject grant.subject = true := by
  unfold listableGrants
  rw [mem_filter,Bool.and_eq_true,decide_eq_true_eq,Authz.stored_iff]

theorem shows_iff : Shows policy now userId on ↔
    ∃ grant, grant.resource = on ∧ (grant ∈ listableGrants policy now (ofUser userId) ∨
      grant ∈ listableGrants policy now (ofGroups (loadUserGroupIds policy userId))) := by
  refine exists_congr (fun grant => ?_)
  have subject : (ofUser userId grant.subject = true ∨ ofGroups (loadUserGroupIds policy userId) grant.subject = true) ↔
      (grant.subject = .user userId ∨ ∃ groupId, grant.subject = .group groupId ∧ (groupId,userId) ∈ policy.members) := by
    cases grant.subject with
    | user id => simp [ofUser,ofGroups]
    | group id => simp [ofUser,ofGroups,Authz.loadUserGroupIds_mem]
  rw [listable_mem,listable_mem,Holds,← subject]
  constructor
  · rintro ⟨⟨stored,_,mine | ours⟩,listable,on⟩
    · exact ⟨on,.inl ⟨stored,listable,mine⟩⟩
    · exact ⟨on,.inr ⟨stored,listable,ours⟩⟩
  · rintro ⟨on,⟨stored,listable,mine⟩ | ⟨stored,listable,ours⟩⟩
    · exact ⟨⟨stored,listable.2.2,.inl mine⟩,listable,on⟩
    · exact ⟨⟨stored,listable.2.2,.inr ours⟩,listable,on⟩

theorem folderIdOf_iff : Authz.folderIdOf on = some id ↔ on = .folder id := by
  cases on <;> simp [Authz.folderIdOf]

theorem fileIdOf_iff : Authz.fileIdOf on = some id ↔ on = .file id := by
  cases on <;> simp [Authz.fileIdOf]

theorem grantRoots_mem : root ∈ grantRoots policy now userId ↔ Shows policy now userId (.folder root) := by
  unfold grantRoots
  rw [mem_dedup,mem_append,mem_filterMap,mem_filterMap,shows_iff]
  simp only [folderIdOf_iff]
  constructor
  · rintro (⟨grant,member,on⟩ | ⟨grant,member,on⟩)
    · exact ⟨grant,on,.inl member⟩
    · exact ⟨grant,on,.inr member⟩
  · rintro ⟨grant,on,member | member⟩
    · exact .inl ⟨grant,member,on⟩
    · exact .inr ⟨grant,member,on⟩

theorem ofGroups_split {groupIds : List String} : grant ∈ listableGrants policy now (ofGroups groupIds) ↔
    ∃ groupId ∈ groupIds, grant ∈ listableGrants policy now (ofGroups [groupId]) := by
  simp only [listable_mem]
  cases grant.subject with
  | user id => simp [ofGroups]
  | group id =>
    simp only [ofGroups,mem_singleton,decide_eq_true_eq]
    constructor
    · rintro ⟨stored,listable,member⟩
      exact ⟨id,member,stored,listable,rfl⟩
    · rintro ⟨groupId,member,stored,listable,rfl⟩
      exact ⟨stored,listable,member⟩

theorem directFiles_mem : fileId ∈ directlyGrantedFileIds policy now userId ↔ Shows policy now userId (.file fileId) := by
  unfold directlyGrantedFileIds
  rw [mem_dedup,mem_append,mem_filterMap,mem_flatMap,shows_iff]
  simp only [fileIdOf_iff,mem_filterMap]
  constructor
  · rintro (⟨grant,member,on⟩ | ⟨groupId,joined,grant,member,on⟩)
    · exact ⟨grant,on,.inl member⟩
    · exact ⟨grant,on,.inr (ofGroups_split.mpr ⟨groupId,joined,member⟩)⟩
  · rintro ⟨grant,on,member | member⟩
    · exact .inl ⟨grant,member,on⟩
    · obtain ⟨groupId,joined,member⟩ := ofGroups_split.mp member
      exact .inr ⟨groupId,joined,grant,member,on⟩

-- The folder lies under one with such a grant, or is one.
def ShownBy (policy : Policy) (folders : KeyMap String FolderRow) (now : Int) (userId folderId : String) : Prop :=
  ∃ root, Shows policy now userId (.folder root) ∧
    (folderId = root ∨ activeFolder folders root = true ∧ Ancestry.Reaches (activeParent folders) folderId root)

theorem readable_iff (forest : Forest folders) : ∃ readable, readableFolderSubtreeIds policy folders now userId = some readable ∧
    ∀ id, id ∈ readable ↔ ShownBy policy folders now userId id := by
  obtain ⟨readable,ended,member⟩ : ∃ readable, readableFolderSubtreeIds policy folders now userId = some readable ∧
      ∀ id, id ∈ readable ↔ ∃ root ∈ grantRoots policy now userId,
        id = root ∨ activeFolder folders root = true ∧ Ancestry.Reaches (activeParent folders) id root := readable_mem forest
  refine ⟨readable,ended,?_⟩
  intro id
  rw [member id]
  simp only [grantRoots_mem,ShownBy]

end Expansion

section Pages
variable {ρ : Type} {order : OrderBy ρ} {rows : List ρ} {row : ρ} {limit : Option Int}

def page (limit : Option Int) (k : Nat) : Int × Int := normalizePage limit (some (k * (normalizePage limit none).1))

theorem page_size : ∃ size : Nat, 0 < size ∧ ∀ k : Nat, page limit k = ((size : Int),((k * size : Nat) : Int)) := by
  have positive : 0 < (normalizePage limit none).1 := by
    unfold normalizePage
    omega
  obtain ⟨size,sized⟩ := Int.eq_ofNat_of_zero_le (Int.le_of_lt positive)
  refine ⟨size,by omega,?_⟩
  intro k
  have first : (normalizePage limit (some (k * (normalizePage limit none).1))).1 = (normalizePage limit none).1 := rfl
  have second : (normalizePage limit (some (k * (normalizePage limit none).1))).2 = max 0 (k * (normalizePage limit none).1) := rfl
  refine Prod.ext (first.trans sized) (second.trans ?_)
  rw [sized,← Int.natCast_mul]
  omega

theorem paged_mem : (∃ k, row ∈ (paged order rows (page limit k).1 (page limit k).2).rows) ↔ row ∈ rows := by
  obtain ⟨size,positive,pages⟩ : ∃ size : Nat, 0 < size ∧ ∀ k : Nat, page limit k = ((size : Int),((k * size : Nat) : Int)) := page_size
  constructor
  · rintro ⟨k,member⟩
    exact (order.perm rows).mem_iff.mp (mem_of_mem_drop (mem_of_mem_take member))
  · intro member
    obtain ⟨i,here⟩ := mem_iff_getElem?.mp ((order.perm rows).mem_iff.mpr member)
    refine ⟨i / size,?_⟩
    rw [pages,paged]
    dsimp only
    rw [Int.toNat_natCast,Int.toNat_natCast]
    have placed : (((order.sort rows).drop (i / size * size)).take size)[i % size]? = some row := by
      rw [getElem?_take_of_lt (Nat.mod_lt i positive),getElem?_drop,Nat.mul_comm,Nat.div_add_mod]
      exact here
    exact mem_of_getElem? placed

end Pages

def Foreign (tree : Tree) (userId : String) : ResourceRef → Prop
  | .instanceWide => False
  | .folder id => ∃ row, tree.folders.get id = some row ∧ row.Active ∧ row.userId ≠ userId
  | .file id => ∃ row, tree.files.get id = some row ∧ row.Active ∧ row.userId ≠ userId

structure Pages where
  files : OrderBy (String × FileRow)
  folders : OrderBy (String × FolderRow)
  limit : Option Int

def Listed (pages : Pages) (policy : Policy) (tree : Tree) (now : Int) (userId : String) : ResourceRef → Prop
  | .instanceWide => False
  | .folder id => ∃ row k response, tree.folders.get id = some row ∧ listAccessibleFolders policy tree now userId pages.folders
      row.parentId (page pages.limit k).1 (page pages.limit k).2 = some response ∧ (id,row) ∈ response.rows
  | .file id => ∃ row k response, tree.files.get id = some row ∧ listAccessibleFiles policy tree now userId pages.files
      row.folderId (page pages.limit k).1 (page pages.limit k).2 = some response ∧ (id,row) ∈ response.rows

def Shown (policy : Policy) (tree : Tree) (now : Int) (userId : String) : ResourceRef → Prop
  | .instanceWide => False
  | .folder id => ShownBy policy tree.folders now userId id
  | .file id => Shows policy now userId (.file id) ∨
      ∃ row folderId, tree.files.get id = some row ∧ row.folderId = some folderId ∧ ShownBy policy tree.folders now userId folderId

structure GrantsAgree (policy : Policy) (tree : Tree) (now : Int) (userId : String) (resource : ResourceRef) : Prop where
  shown : Shown policy tree now userId resource →
    ¬Granted policy tree Authz.maxDepth now userId .deny .contentRead resource ∧
      Granted policy tree Authz.maxDepth now userId .allow .contentRead resource
  hidden : ¬Shown policy tree now userId resource → Granted policy tree Authz.maxDepth now userId .allow .contentRead resource →
    Granted policy tree Authz.maxDepth now userId .deny .contentRead resource

section Agreement
variable {policy : Policy} {tree : Tree} {now : Int} {userId id : String} {pages : Pages} {resource : ResourceRef}
  {row : FileRow} {folder : FolderRow} {parentId : Option String} {folderId : Option String} {readable : List String}
  {limit offset : Int}

theorem filesWhere_mem {visible : String → FileRow → Bool} :
    (id,row) ∈ filesWhere tree folderId visible ↔
      tree.files.get id = some row ∧ (row.Active ∧ row.folderId = folderId) ∧ visible id row = true := by
  unfold filesWhere
  rw [mem_filter,Bool.and_eq_true,decide_eq_true_eq,get_eq_some,List.mem_map]
  refine and_congr_left (fun _ => ⟨?_,fun member => ⟨_,member,rfl⟩⟩)
  rintro ⟨entry,member,same⟩
  cases same
  exact member

theorem foldersWhere_mem {visible : String → FolderRow → Bool} :
    (id,folder) ∈ foldersWhere tree parentId visible ↔
      tree.folders.get id = some folder ∧ (folder.Active ∧ folder.parentId = parentId) ∧ visible id folder = true := by
  unfold foldersWhere
  rw [mem_filter,Bool.and_eq_true,decide_eq_true_eq,get_eq_some,List.mem_map]
  refine and_congr_left (fun _ => ⟨?_,fun member => ⟨_,member,rfl⟩⟩)
  rintro ⟨entry,member,same⟩
  cases same
  exact member

section
variable (ended : readableFolderSubtreeIds policy tree.folders now userId = some readable)
include ended

theorem accessibleFolders_eq {order : OrderBy (String × FolderRow)}
    :
    listAccessibleFolders policy tree now userId order parentId limit offset =
      some (paged order (foldersWhere tree parentId (fun id row => decide (row.userId = userId ∨
        row.userId ≠ userId ∧ id ∈ readable))) limit offset) := by
  unfold listAccessibleFolders
  rw [ended]
  by_cases none : readable = []
  · subst none
    simp [listOwnedFolders]
  · simp [none]

theorem accessibleFiles_eq {order : OrderBy (String × FileRow)}
    :
    listAccessibleFiles policy tree now userId order folderId limit offset =
      some (paged order (filesWhere tree folderId (fun id row => decide (row.userId = userId ∨
        row.userId ≠ userId ∧ ((∃ inside ∈ row.folderId.toList, inside ∈ readable) ∨
          id ∈ directlyGrantedFileIds policy now userId)))) limit offset) := by
  unfold listAccessibleFiles
  rw [ended]
  by_cases none : readable = [] ∧ directlyGrantedFileIds policy now userId = []
  · simp [none,listOwnedFiles]
  · simp [none]

end

theorem folder_listed (forest : Forest tree.folders) (foreign : Foreign tree userId (.folder id)) :
    Listed pages policy tree now userId (.folder id) ↔ Shown policy tree now userId (.folder id) := by
  obtain ⟨row,present,active,other⟩ := foreign
  obtain ⟨readable,ended,member⟩ : ∃ readable, readableFolderSubtreeIds policy tree.folders now userId = some readable ∧
      ∀ id, id ∈ readable ↔ ShownBy policy tree.folders now userId id := readable_iff forest
  have entry : (∃ k, (id,row) ∈ (paged pages.folders (foldersWhere tree row.parentId (fun id row => decide (row.userId = userId ∨
      row.userId ≠ userId ∧ id ∈ readable))) (page pages.limit k).1 (page pages.limit k).2).rows) ↔ _ := paged_mem
  rw [foldersWhere_mem,decide_eq_true_eq] at entry
  unfold Listed Shown
  simp only [accessibleFolders_eq ended,Option.some.injEq]
  rw [← member id]
  constructor
  · rintro ⟨row',k,response,same,rfl,listed⟩
    rw [present] at same
    cases same
    rcases (entry.mp ⟨k,listed⟩).2.2 with mine | ⟨_,inside⟩
    · exact absurd mine other
    · exact inside
  · intro inside
    obtain ⟨k,listed⟩ := entry.mpr ⟨present,⟨active,rfl⟩,.inr ⟨other,inside⟩⟩
    exact ⟨row,k,_,present,rfl,listed⟩

theorem file_listed (forest : Forest tree.folders) (foreign : Foreign tree userId (.file id)) :
    Listed pages policy tree now userId (.file id) ↔ Shown policy tree now userId (.file id) := by
  obtain ⟨row,present,active,other⟩ := foreign
  obtain ⟨readable,ended,member⟩ : ∃ readable, readableFolderSubtreeIds policy tree.folders now userId = some readable ∧
      ∀ id, id ∈ readable ↔ ShownBy policy tree.folders now userId id := readable_iff forest
  have entry : (∃ k, (id,row) ∈ (paged pages.files (filesWhere tree row.folderId (fun id row => decide (row.userId = userId ∨
      row.userId ≠ userId ∧ ((∃ inside ∈ row.folderId.toList, inside ∈ readable) ∨ id ∈ directlyGrantedFileIds policy now userId))))
      (page pages.limit k).1 (page pages.limit k).2).rows) ↔ _ := paged_mem
  rw [filesWhere_mem,decide_eq_true_eq] at entry
  have visible : ((∃ inside ∈ row.folderId.toList, inside ∈ readable) ∨ id ∈ directlyGrantedFileIds policy now userId) ↔
      Shown policy tree now userId (.file id) := by
    unfold Shown
    simp only [directFiles_mem,mem_toList,member,present,Option.some.injEq]
    constructor
    · rintro (⟨inside,placed,shown⟩ | direct)
      · exact .inr ⟨row,inside,rfl,placed,shown⟩
      · exact .inl direct
    · rintro (direct | ⟨_,inside,rfl,placed,shown⟩)
      · exact .inr direct
      · exact .inl ⟨inside,placed,shown⟩
  rw [← visible]
  unfold Listed
  simp only [accessibleFiles_eq ended,Option.some.injEq]
  constructor
  · rintro ⟨row',k,response,same,rfl,listed⟩
    rw [present] at same
    cases same
    rcases (entry.mp ⟨k,listed⟩).2.2 with mine | ⟨_,inside⟩
    · exact absurd mine other
    · exact inside
  · intro inside
    obtain ⟨k,listed⟩ := entry.mpr ⟨present,⟨active,rfl⟩,.inr ⟨other,inside⟩⟩
    exact ⟨row,k,_,present,rfl,listed⟩

theorem foreign_listed (forest : Forest tree.folders) (foreign : Foreign tree userId resource) :
    Listed pages policy tree now userId resource ↔ Shown policy tree now userId resource := by
  cases resource with
  | instanceWide => exact foreign.elim
  | folder id => exact folder_listed forest foreign
  | file id => exact file_listed forest foreign

theorem foreign_unowned (foreign : Foreign tree userId resource) : ¬Authz.Owns tree userId resource := by
  cases resource with
  | instanceWide => exact foreign.elim
  | folder id =>
    obtain ⟨row,present,_,other⟩ := foreign
    rintro ⟨row',same,_,mine⟩
    rw [present] at same
    cases same
    exact other mine
  | file id =>
    obtain ⟨row,present,_,other⟩ := foreign
    rintro ⟨row',same,_,mine⟩
    rw [present] at same
    cases same
    exact other mine

theorem foreign_readable (foreign : Foreign tree userId resource) :
    authorize {policy with shares := []} tree now userId .contentRead resource = .ok () ↔
      ¬Granted policy tree Authz.maxDepth now userId .deny .contentRead resource ∧
        Granted policy tree Authz.maxDepth now userId .allow .contentRead resource := by
  rw [Authz.authorize_ok,Authz.fallback_iff]
  have unshared : ¬Authz.SharedWith {policy with shares := []} userId resource := fun shared => not_mem_nil shared.2
  refine and_congr_right (fun _ => or_iff_left ?_)
  rintro (mine | ⟨_,shared⟩)
  · exact foreign_unowned foreign mine
  · exact unshared shared

-- The listings show exactly what the user may read where for each row of somebody else
-- the grants agree.
theorem listing_agrees (pages : Pages) (policy : Policy) (tree : Tree) (now : Int) (userId : String) (forest : Forest tree.folders) :
    (∀ resource, Foreign tree userId resource → (Listed pages policy tree now userId resource ↔
      authorize {policy with shares := []} tree now userId .contentRead resource = .ok ())) ↔
    ∀ resource, Foreign tree userId resource → GrantsAgree policy tree now userId resource := by
  refine forall_congr' (fun resource => forall_congr' (fun foreign => ?_))
  rw [foreign_listed forest foreign,foreign_readable foreign]
  constructor
  · intro same
    refine ⟨same.mp,?_⟩
    intro hidden allowed
    by_contra undenied
    exact hidden (same.mpr ⟨undenied,allowed⟩)
  · rintro ⟨shown,hidden⟩
    refine ⟨shown,?_⟩
    rintro ⟨undenied,allowed⟩
    by_contra unshown
    exact undenied (hidden unshown allowed)

end Agreement

section DeniedFile

def docsTree : Tree :=
  ⟨KeyMap.empty.set "docs" ⟨"ann",none,"docs",none⟩,KeyMap.empty.set "report" ⟨"ann",some "docs",none⟩⟩

def readDocs : GrantRow := ⟨.user "bob",.folder "docs","content.read",.allow,some "ann",0,none⟩

def docsShared : Policy := ⟨KeyMap.empty,KeyMap.empty,[],[],KeyMap.empty.set "g1" readDocs⟩

def reportDenied : Policy :=
  {docsShared with grants := docsShared.grants.set "g2" ⟨.user "bob",.file "report","content.read",.deny,some "ann",0,none⟩}

def asStored : Pages := ⟨⟨fun rows => rows,fun _ => .refl _⟩,⟨fun rows => rows,fun _ => .refl _⟩,none⟩

theorem docs_forest : Forest docsTree.folders := by
  have falls : ∀ entry ∈ docsTree.folders.entries, ∀ above ∈ entry.2.parentId.toList, above.length < entry.1.length := by decide +kernel
  exact forest_of_rank falls

theorem listing_agrees_docs : (∀ resource, Foreign docsTree "bob" resource → (Listed asStored docsShared docsTree 0 "bob" resource ↔
      authorize {docsShared with shares := []} docsTree 0 "bob" .contentRead resource = .ok ())) ↔
    ∀ resource, Foreign docsTree "bob" resource → GrantsAgree docsShared docsTree 0 "bob" resource :=
  listing_agrees asStored docsShared docsTree 0 "bob" docs_forest

theorem listing_shows_denied : Forest docsTree.folders ∧ Foreign docsTree "bob" (.file "report") ∧
    Listed asStored reportDenied docsTree 0 "bob" (.file "report") ∧
    authorize {reportDenied with shares := []} docsTree 0 "bob" .contentRead (.file "report") ≠ .ok () := by
  refine ⟨docs_forest,⟨⟨"ann",some "docs",none⟩,by decide +kernel,by decide,by decide⟩,
    ⟨⟨"ann",some "docs",none⟩,0,_,by decide +kernel,rfl,by decide +kernel⟩,by decide +kernel⟩

end DeniedFile

end Ownly.Folders
