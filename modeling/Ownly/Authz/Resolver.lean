import Ownly.Authz.Catalog
import Ownly.Folders.Store
import Mathlib.Data.List.Dedup

-- authz/resolver.rs: what a user may do with a resource by the grants on it, on the
-- folders above it and on the instance.
namespace Ownly.Authz
open Folders (Tree FolderRow activeFolder activeFile activeParent)
open List

inductive ResourceRef where
  | instanceWide
  | folder (id : String)
  | file (id : String)
  deriving DecidableEq, Repr

inductive Subject where
  | user (id : String)
  | group (id : String)
  deriving DecidableEq, Repr

inductive GrantEffect where
  | allow
  | deny
  deriving DecidableEq, Repr

inductive Effect where
  | allow
  | deny
  | absent
  deriving DecidableEq, Repr

-- A row of permission_grants: its check constraint ties a missing resource_id to the type
-- `instance`, which makes the two columns one ResourceRef. Times are microseconds.
structure GrantRow where
  subject : Subject
  resource : ResourceRef
  permission : String
  effect : GrantEffect
  grantedBy : Option String
  createdAt : Int
  expiresAt : Option Int
  deriving DecidableEq, Repr

-- `members` are the pairs (group_id,user_id) of group_members, `groups` the slugs and
-- `users` the roles; `shares` has the pairs (grantee_user_id,resource) of resource_user_shares.
structure Policy where
  users : KeyMap String String
  groups : KeyMap String String
  members : List (String × String)
  shares : List (String × ResourceRef)
  grants : KeyMap String GrantRow

def loadUserGroupIds (policy : Policy) (userId : String) : List String :=
  (policy.members.filter (fun member => decide (member.2 = userId))).map Prod.fst

def userIsAdminGroupMember (policy : Policy) (userId : String) : Bool :=
  policy.members.any (fun member => decide (member.2 = userId) && decide (policy.groups.get member.1 = some "admin"))

-- The recursive query, which may still add `left` rows.
def ancestorRows (folders : KeyMap String FolderRow) : Nat → String → List String
  | 0,_ => []
  | left + 1,id => match folders.get id with
    | none => []
    | some row => if row.Active then id :: row.parentId.elim [] (ancestorRows folders left) else []

def maxDepth : Nat := 64

def folderAncestorChain (folders : KeyMap String FolderRow) (folderId : String) : List String :=
  ancestorRows folders maxDepth folderId

def fileOwnerAndFolder (tree : Tree) (fileId : String) : Option (String × Option String) :=
  ((tree.files.get fileId).filter (fun row => decide row.Active)).map (fun row => (row.userId,row.folderId))

def folderOwner (tree : Tree) (folderId : String) : Option String :=
  ((tree.folders.get folderId).filter (fun row => decide row.Active)).map (·.userId)

def hasLegacyUserShareRead (policy : Policy) (userId : String) : ResourceRef → Bool
  | .instanceWide => false
  | resource => decide ((userId,resource) ∈ policy.shares)

def resourceKeys (tree : Tree) (resource : ResourceRef) : List ResourceRef :=
  .instanceWide :: match resource with
    | .instanceWide => []
    | .folder folderId => .folder folderId :: (folderAncestorChain tree.folders folderId).map .folder
    | .file fileId => .file fileId :: match fileOwnerAndFolder tree fileId with
      | some (_,some folderId) => (folderAncestorChain tree.folders folderId).map .folder
      | _ => []

def Unexpired (now : Int) (grant : GrantRow) : Prop := grant.expiresAt.all (fun expires => decide (now < expires)) = true

instance (now : Int) (grant : GrantRow) : Decidable (Unexpired now grant) := inferInstanceAs (Decidable (_ = _))

def subjectMatches (userId : String) (groupIds : List String) : Subject → Bool
  | .user id => decide (id = userId)
  | .group id => decide (id ∈ groupIds)

def resourceMatches (includeInstance : Bool) (folderIds fileIds : List String) : ResourceRef → Bool
  | .instanceWide => includeInstance
  | .folder id => decide (id ∈ folderIds)
  | .file id => decide (id ∈ fileIds)

def fetchGrantsBatch (policy : Policy) (now : Int) (userId : String) (groupIds : List String) (includeInstance : Bool)
    (folderIds fileIds : List String) : List GrantRow :=
  (policy.grants.entries.map (·.2)).filter (fun grant => decide (Unexpired now grant) &&
    subjectMatches userId groupIds grant.subject && resourceMatches includeInstance folderIds fileIds grant.resource)

def folderIdOf : ResourceRef → Option String
  | .folder id => some id
  | _ => none

def fileIdOf : ResourceRef → Option String
  | .file id => some id
  | _ => none

def loadApplicableGrants (policy : Policy) (tree : Tree) (now : Int) (userId : String) (groupIds : List String)
    (resource : ResourceRef) : List GrantRow :=
  let keys := (resourceKeys tree resource).dedup
  fetchGrantsBatch policy now userId groupIds (keys.any (fun key => decide (key = .instanceWide)))
    (keys.filterMap folderIdOf) (keys.filterMap fileIdOf)

def grantMatchesPermission (grantPermission : String) (required : Permission) : Bool :=
  match Permission.parse grantPermission with
  | .ok granted => Permission.satisfies required granted
  | .error _ => false

def effectOf (permission : Permission) : Bool → List GrantRow → Effect
  | hasAllow,[] => if hasAllow then .allow else .absent
  | hasAllow,grant :: rest =>
    if grantMatchesPermission grant.permission permission then
      match grant.effect with
      | .deny => .deny
      | .allow => effectOf permission true rest
    else effectOf permission hasAllow rest

def resolveEffect (policy : Policy) (tree : Tree) (now : Int) (userId : String) (permission : Permission)
    (resource : ResourceRef) : Effect :=
  effectOf permission false (loadApplicableGrants policy tree now userId (loadUserGroupIds policy userId) resource)

def isResourceOwner (tree : Tree) (userId : String) : ResourceRef → Bool
  | .instanceWide => false
  | .folder folderId => decide (folderOwner tree folderId = some userId)
  | .file fileId => (fileOwnerAndFolder tree fileId).any (fun file => decide (file.1 = userId))

def refusal : AppError := .forbidden "you do not have permission for this action"

def authorize (policy : Policy) (tree : Tree) (now : Int) (userId : String) (permission : Permission) (resource : ResourceRef) :
    Except AppError Unit :=
  match resolveEffect policy tree now userId permission resource with
  | .deny => .error refusal
  | .allow => .ok ()
  | .absent =>
    if isResourceOwner tree userId resource then .ok ()
    else if decide (permission = .contentRead) && hasLegacyUserShareRead policy userId resource then .ok ()
    else .error refusal

def hasLegacyInstanceAdminRole (policy : Policy) (userId : String) : Bool :=
  userIsAdminGroupMember policy userId || decide (policy.users.get userId = some "admin")

def authorizeInstance (policy : Policy) (tree : Tree) (now : Int) (userId : String) (permission : Permission) :
    Except AppError Unit :=
  if hasLegacyInstanceAdminRole policy userId then .ok ()
  else authorize policy tree now userId permission .instanceWide

-- The grants of a user at one time: their own and those of their groups, where not expired.
def Holds (policy : Policy) (now : Int) (userId : String) (grant : GrantRow) : Prop :=
  (∃ id, policy.grants.get id = some grant) ∧ Unexpired now grant ∧
    (grant.subject = .user userId ∨ ∃ groupId, grant.subject = .group groupId ∧ (groupId,userId) ∈ policy.members)

def innermost (tree : Tree) : ResourceRef → Option String
  | .instanceWide => none
  | .folder folderId => some folderId
  | .file fileId => (fileOwnerAndFolder tree fileId).bind (·.2)

def Within (tree : Tree) (n : Nat) (resource : ResourceRef) (folderId : String) : Prop :=
  ∃ first k, innermost tree resource = some first ∧ k < n ∧
    Ancestry.climb (activeParent tree.folders) k first = some folderId ∧ activeFolder tree.folders folderId = true

def Bears (tree : Tree) (n : Nat) (resource on : ResourceRef) : Prop :=
  on = .instanceWide ∨ on = resource ∨ ∃ folderId, on = .folder folderId ∧ Within tree n resource folderId

def Speaks (effect : GrantEffect) (permission : Permission) (grant : GrantRow) : Prop :=
  grant.effect = effect ∧ grantMatchesPermission grant.permission permission = true

def Granted (policy : Policy) (tree : Tree) (n : Nat) (now : Int) (userId : String) (effect : GrantEffect)
    (permission : Permission) (resource : ResourceRef) : Prop :=
  ∃ grant, Holds policy now userId grant ∧ Bears tree n resource grant.resource ∧ Speaks effect permission grant

section Resolution
variable {policy : Policy} {tree : Tree} {folders : KeyMap String FolderRow} {now : Int} {userId folderId first : String}
  {permission required weaker stronger : Permission} {resource on : ResourceRef} {grant : GrantRow} {rows : List GrantRow} {n : Nat} {hasAllow : Bool}

theorem ancestorRows_mem : folderId ∈ ancestorRows folders n first ↔
    ∃ k, k < n ∧ Ancestry.climb (activeParent folders) k first = some folderId ∧ activeFolder folders folderId = true := by
  induction n generalizing first with
  | zero => exact ⟨fun member => absurd member not_mem_nil,fun ⟨k,less,_⟩ => absurd less (Nat.not_lt_zero k)⟩
  | succ n ih =>
    rw [ancestorRows]
    cases present : folders.get first with
    | none =>
      refine ⟨fun member => absurd member not_mem_nil,?_⟩
      rintro ⟨k,_,climbed,active⟩
      cases k with
      | zero =>
        cases climbed
        simp [activeFolder,present] at active
      | succ k => simp [Ancestry.climb,activeParent,present] at climbed
    | some row =>
      by_cases active : row.Active
      · simp only [if_pos active,mem_cons]
        constructor
        · rintro (rfl | later)
          · exact ⟨0,Nat.zero_lt_succ n,rfl,Folders.activeFolder_iff.mpr ⟨row,present,active⟩⟩
          · cases linked : row.parentId with
            | none =>
              rw [linked] at later
              exact absurd later not_mem_nil
            | some above =>
              rw [linked] at later
              obtain ⟨k,less,climbed,found⟩ := ih.mp later
              refine ⟨k + 1,Nat.succ_lt_succ less,?_,found⟩
              rw [Ancestry.climb_succ ((Folders.activeParent_eq present active).trans linked)]
              exact climbed
        · rintro ⟨k,less,climbed,found⟩
          cases k with
          | zero => exact .inl (Option.some.inj climbed).symm
          | succ k =>
            obtain ⟨above,step,rest⟩ := Option.bind_eq_some_iff.mp climbed
            rw [Folders.activeParent_eq present active] at step
            rw [step]
            exact .inr (ih.mpr ⟨k,Nat.lt_of_succ_lt_succ less,rest,found⟩)
      · simp only [if_neg active]
        refine ⟨fun member => absurd member not_mem_nil,?_⟩
        rintro ⟨k,_,climbed,found⟩
        cases k with
        | zero =>
          cases climbed
          obtain ⟨other,same,yes⟩ := Folders.activeFolder_iff.mp found
          rw [present] at same
          cases same
          exact absurd yes active
        | succ k =>
          obtain ⟨above,step,_⟩ := Option.bind_eq_some_iff.mp climbed
          obtain ⟨other,same,yes,_⟩ := Folders.activeParent_some step
          rw [present] at same
          cases same
          exact absurd yes active

theorem chain_mem (start : innermost tree resource = some first) :
    on ∈ (folderAncestorChain tree.folders first).map ResourceRef.folder ↔
      ∃ folderId, on = .folder folderId ∧ Within tree maxDepth resource folderId := by
  rw [mem_map]
  constructor
  · rintro ⟨folderId,member,rfl⟩
    obtain ⟨k,less,climbed,active⟩ := ancestorRows_mem.mp member
    exact ⟨folderId,rfl,first,k,start,less,climbed,active⟩
  · rintro ⟨folderId,rfl,other,k,same,less,climbed,active⟩
    rw [start] at same
    cases same
    exact ⟨folderId,ancestorRows_mem.mpr ⟨k,less,climbed,active⟩,rfl⟩

theorem unplaced (nowhere : innermost tree resource = none) : ¬∃ folderId, on = .folder folderId ∧ Within tree n resource folderId := by
  rintro ⟨folderId,_,first,_,start,_⟩
  rw [nowhere] at start
  cases start

theorem resourceKeys_mem : on ∈ resourceKeys tree resource ↔ Bears tree maxDepth resource on := by
  unfold resourceKeys Bears
  rw [mem_cons]
  cases resource with
  | instanceWide =>
    have none : ¬∃ folderId, on = .folder folderId ∧ Within tree maxDepth .instanceWide folderId := unplaced rfl
    simp only [not_mem_nil,or_false,none,or_self]
  | folder folderId =>
    have start : innermost tree (.folder folderId) = some folderId := rfl
    rw [mem_cons,chain_mem start]
  | file fileId =>
    rw [mem_cons]
    refine or_congr Iff.rfl (or_congr Iff.rfl ?_)
    cases placed : innermost tree (.file fileId) with
    | none =>
      refine iff_of_false ?_ (unplaced placed)
      obtain absent | ⟨owner,absent⟩ : fileOwnerAndFolder tree fileId = none ∨ ∃ owner, fileOwnerAndFolder tree fileId = some (owner,none) := by
        cases file : fileOwnerAndFolder tree fileId with
        | none => exact .inl rfl
        | some pair =>
          obtain ⟨owner,folderId⟩ := pair
          rw [innermost,file] at placed
          exact .inr ⟨owner,by rw [show folderId = none from placed]⟩
      · simp [absent]
      · simp [absent]
    | some first =>
      obtain ⟨⟨owner,folderId⟩,file,inside⟩ := Option.bind_eq_some_iff.mp placed
      rw [show folderId = some first from inside] at file
      simp only [file]
      exact chain_mem placed

theorem loadUserGroupIds_mem {groupId : String} : groupId ∈ loadUserGroupIds policy userId ↔ (groupId,userId) ∈ policy.members := by
  simp [loadUserGroupIds]

theorem subjectMatches_iff : subjectMatches userId (loadUserGroupIds policy userId) grant.subject = true ↔
    grant.subject = .user userId ∨ ∃ groupId, grant.subject = .group groupId ∧ (groupId,userId) ∈ policy.members := by
  cases grant.subject with
  | user id => simp [subjectMatches]
  | group id => simp [subjectMatches,loadUserGroupIds_mem]

theorem resourceMatches_iff {keys : List ResourceRef} :
    resourceMatches (keys.any (fun key => decide (key = .instanceWide))) (keys.filterMap folderIdOf) (keys.filterMap fileIdOf) on = true ↔
      on ∈ keys := by
  cases on with
  | instanceWide => simp [resourceMatches]
  | folder id =>
    simp only [resourceMatches,decide_eq_true_eq,mem_filterMap]
    constructor
    · rintro ⟨key,member,same⟩
      cases key with
      | folder other => cases same; exact member
      | instanceWide => cases same
      | file other => cases same
    · exact fun member => ⟨_,member,rfl⟩
  | file id =>
    simp only [resourceMatches,decide_eq_true_eq,mem_filterMap]
    constructor
    · rintro ⟨key,member,same⟩
      cases key with
      | file other => cases same; exact member
      | instanceWide => cases same
      | folder other => cases same
    · exact fun member => ⟨_,member,rfl⟩

theorem stored_iff : grant ∈ policy.grants.entries.map (·.2) ↔ ∃ id, policy.grants.get id = some grant := by
  rw [mem_map]
  constructor
  · rintro ⟨entry,member,rfl⟩
    exact ⟨entry.1,KeyMap.get_eq_some.mpr member⟩
  · rintro ⟨id,found⟩
    exact ⟨_,KeyMap.get_eq_some.mp found,rfl⟩

theorem applicable_iff : grant ∈ loadApplicableGrants policy tree now userId (loadUserGroupIds policy userId) resource ↔
    Holds policy now userId grant ∧ Bears tree maxDepth resource grant.resource := by
  unfold loadApplicableGrants fetchGrantsBatch
  simp only [mem_filter,Bool.and_eq_true,decide_eq_true_eq,resourceMatches_iff,subjectMatches_iff,mem_dedup,
    resourceKeys_mem]
  rw [stored_iff]
  constructor
  · rintro ⟨found,⟨fresh,subject⟩,bears⟩
    exact ⟨⟨found,fresh,subject⟩,bears⟩
  · rintro ⟨⟨found,fresh,subject⟩,bears⟩
    exact ⟨found,⟨fresh,subject⟩,bears⟩

theorem effectOf_deny : effectOf permission hasAllow rows = .deny ↔ ∃ grant ∈ rows, Speaks .deny permission grant := by
  induction rows generalizing hasAllow with
  | nil => cases hasAllow <;> simp [effectOf]
  | cons grant rest ih =>
    rw [effectOf]
    by_cases matching : grantMatchesPermission grant.permission permission
    · cases effect : grant.effect with
      | deny => simp [matching,effect,Speaks]
      | allow => simp [matching,effect,Speaks,ih]
    · simp [matching,Speaks,ih]

theorem effectOf_absent : effectOf permission hasAllow rows = .absent ↔
    hasAllow = false ∧ ∀ grant ∈ rows, grantMatchesPermission grant.permission permission = false := by
  induction rows generalizing hasAllow with
  | nil => cases hasAllow <;> simp [effectOf]
  | cons grant rest ih =>
    rw [effectOf]
    by_cases matching : grantMatchesPermission grant.permission permission
    · cases effect : grant.effect with
      | deny => simp [matching]
      | allow => simp [matching,ih]
    · simp [matching,ih]

theorem resolveEffect_deny : resolveEffect policy tree now userId permission resource = .deny ↔
    Granted policy tree maxDepth now userId .deny permission resource := by
  unfold resolveEffect Granted
  simp only [effectOf_deny,applicable_iff,and_assoc]

theorem resolveEffect_absent : resolveEffect policy tree now userId permission resource = .absent ↔
    ¬Granted policy tree maxDepth now userId .deny permission resource ∧
      ¬Granted policy tree maxDepth now userId .allow permission resource := by
  unfold resolveEffect Granted
  simp only [effectOf_absent,applicable_iff,true_and]
  constructor
  · intro silent
    refine ⟨?_,?_⟩
    · rintro ⟨grant,holds,bears,_,speaks⟩
      rw [silent grant ⟨holds,bears⟩] at speaks
      cases speaks
    · rintro ⟨grant,holds,bears,_,speaks⟩
      rw [silent grant ⟨holds,bears⟩] at speaks
      cases speaks
  · rintro ⟨undenied,unallowed⟩ grant ⟨holds,bears⟩
    cases speaks : grantMatchesPermission grant.permission permission with
    | false => rfl
    | true =>
      cases effect : grant.effect with
      | allow => exact absurd ⟨grant,holds,bears,effect,speaks⟩ unallowed
      | deny => exact absurd ⟨grant,holds,bears,effect,speaks⟩ undenied

theorem resolveEffect_allow : resolveEffect policy tree now userId permission resource = .allow ↔
    ¬Granted policy tree maxDepth now userId .deny permission resource ∧
      Granted policy tree maxDepth now userId .allow permission resource := by
  rw [← resolveEffect_deny]
  cases answer : resolveEffect policy tree now userId permission resource with
  | deny => simp
  | absent => simp [(resolveEffect_absent.mp answer).2]
  | allow =>
    simp only [reduceCtorEq,not_false_eq_true,true_and,true_iff]
    by_contra unallowed
    have undenied : ¬Granted policy tree maxDepth now userId .deny permission resource := by
      rw [← resolveEffect_deny,answer]
      exact Effect.noConfusion
    rw [resolveEffect_absent.mpr ⟨undenied,unallowed⟩] at answer
    cases answer

-- Owners and the legacy share rows stand in where no grant speaks.
def Fallback (policy : Policy) (tree : Tree) (userId : String) (permission : Permission) (resource : ResourceRef) : Prop :=
  isResourceOwner tree userId resource = true ∨
    permission = .contentRead ∧ hasLegacyUserShareRead policy userId resource = true

theorem authorize_ok : authorize policy tree now userId permission resource = .ok () ↔
    ¬Granted policy tree maxDepth now userId .deny permission resource ∧
      (Granted policy tree maxDepth now userId .allow permission resource ∨ Fallback policy tree userId permission resource) := by
  unfold authorize Fallback
  cases answer : resolveEffect policy tree now userId permission resource with
  | deny => simp [resolveEffect_deny.mp answer]
  | allow => simp [resolveEffect_allow.mp answer]
  | absent =>
    simp only [resolveEffect_absent.mp answer,not_false_eq_true,true_and,false_or]
    cases isResourceOwner tree userId resource <;>
      cases hasLegacyUserShareRead policy userId resource <;> simp

theorem authorize_cases : authorize policy tree now userId permission resource = .ok () ∨
    authorize policy tree now userId permission resource = .error refusal := by
  unfold authorize
  split
  · exact .inr rfl
  · exact .inl rfl
  · split
    · exact .inl rfl
    · split
      · exact .inl rfl
      · exact .inr rfl

theorem authorize_refused : authorize policy tree now userId permission resource = .error refusal ↔
    Granted policy tree maxDepth now userId .deny permission resource ∨
      ¬(Granted policy tree maxDepth now userId .allow permission resource ∨ Fallback policy tree userId permission resource) := by
  have answer : authorize policy tree now userId permission resource = .ok () ∨
      authorize policy tree now userId permission resource = .error refusal := authorize_cases
  have other : authorize policy tree now userId permission resource = .error refusal ↔
      ¬authorize policy tree now userId permission resource = .ok () := by
    rcases answer with same | same <;> simp [same]
  rw [other,authorize_ok,not_and_or,not_not]

theorem speaks_weaker {effect : GrantEffect} (implied : Permission.satisfies weaker stronger = true) (speaks : Speaks effect stronger grant) :
    Speaks effect weaker grant := by
  refine ⟨speaks.1,?_⟩
  have matching := speaks.2
  unfold grantMatchesPermission at matching ⊢
  split at matching
  · exact Permission.satisfies_trans implied matching
  · cases matching

end Resolution

end Ownly.Authz
