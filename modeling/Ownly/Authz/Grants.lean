import Ownly.Authz.Resolver
import Ownly.Lib.Schedule

-- authz/grants.rs: who may write and delete rows of permission_grants, and what that
-- leaves of the permissions on the instance.
namespace Ownly.Authz
open Folders (Tree activeFolder activeFile)
open Option KeyMap

structure UpsertGrantRequest where
  subjectType : String
  subjectId : String
  resourceType : String
  resourceId : Option String
  permission : String
  effect : Option String
  expiresAt : Option Int
  deriving DecidableEq, Repr

inductive ResourceType where
  | instanceWide
  | folder
  | file
  deriving DecidableEq, Repr

def ResourceRef.resourceType : ResourceRef → ResourceType
  | .instanceWide => .instanceWide
  | .folder _ => .folder
  | .file _ => .file

def ResourceRef.resourceId : ResourceRef → Option String
  | .instanceWide => none
  | .folder id | .file id => some id

-- `trim().to_lowercase()`, as far as the words compared with go: none of their letters
-- is the lower case of a letter beyond ASCII.
def lowered (value : String) : String := String.ofList ((Text.trim value.toList).map Char.toLower)

def parseSubjectType (value : String) : Except AppError (String → Subject) :=
  match lowered value with
  | "user" => .ok .user
  | "group" => .ok .group
  | _ => .error (.badRequest "subject_type must be 'user' or 'group'")

def parseResourceType (value : String) : Except AppError ResourceType :=
  match lowered value with
  | "instance" => .ok .instanceWide
  | "folder" => .ok .folder
  | "file" => .ok .file
  | _ => .error (.badRequest "resource_type must be 'instance', 'folder', or 'file'")

def parseEffect (value : Option String) : Except AppError GrantEffect :=
  match lowered (value.getD "allow") with
  | "allow" => .ok .allow
  | "deny" => .ok .deny
  | _ => .error (.badRequest "effect must be 'allow' or 'deny'")

def validateSubjectExists (policy : Policy) : Subject → Except AppError Unit
  | .user id => if policy.users.contains id then .ok () else .error .notFound
  | .group id => if policy.groups.contains id then .ok () else .error .notFound

def validateResourceExists (tree : Tree) (resourceType : ResourceType) (resourceId : Option String) : Except AppError Unit :=
  match resourceType,resourceId with
  | .instanceWide,some _ => .error (.badRequest "instance grants must not include resource_id")
  | .instanceWide,none => .ok ()
  | .folder,none => .error (.badRequest "folder grants require resource_id")
  | .folder,some id => if activeFolder tree.folders id then .ok () else .error .notFound
  | .file,none => .error (.badRequest "file grants require resource_id")
  | .file,some id => if activeFile tree.files id then .ok () else .error .notFound

def resourceRef (resourceType : ResourceType) (resourceId : Option String) : Except AppError ResourceRef :=
  match resourceType,resourceId with
  | .instanceWide,_ => .ok .instanceWide
  | .folder,some id => .ok (.folder id)
  | .folder,none => .error (.badRequest "folder grants require resource_id")
  | .file,some id => .ok (.file id)
  | .file,none => .error (.badRequest "file grants require resource_id")

def ensureCanManageGrants (policy : Policy) (tree : Tree) (now : Int) (callerId : String) (resourceType : ResourceType)
    (resourceId : Option String) : Except AppError Unit :=
  if authorizeInstance policy tree now callerId .instancePermissionsManage = .ok () then .ok ()
  else do
    let resource ← resourceRef resourceType resourceId
    authorize policy tree now callerId .contentManageAcl resource

structure GrantTarget where
  subject : Subject
  resourceType : ResourceType
  effect : GrantEffect
  permission : Permission
  deriving DecidableEq, Repr

def parseRequest (body : UpsertGrantRequest) : Except AppError GrantTarget := do
  let subject ← parseSubjectType body.subjectType
  let resourceType ← parseResourceType body.resourceType
  let effect ← parseEffect body.effect
  let permission ← Permission.parse body.permission
  if permission = .instanceAdmin then
    .error (.forbidden "instance.admin cannot be granted via the permissions API — use admin group membership")
  else if resourceType = .instanceWide ∧ body.resourceId.isSome then
    .error (.badRequest "instance grants must not include resource_id")
  else if resourceType ≠ .instanceWide ∧ body.resourceId.getD "" = "" then .error (.badRequest "resource_id is required")
  else .ok ⟨subject body.subjectId,resourceType,effect,permission⟩

-- What `upsert_grant` asks of a request before it asks who sends it.
def checkRequest (policy : Policy) (tree : Tree) (body : UpsertGrantRequest) : Except AppError GrantTarget := do
  let target ← parseRequest body
  validateSubjectExists policy target.subject
  validateResourceExists tree target.resourceType body.resourceId
  .ok target

-- The unique index has no row with a NULL in it twice: rows on the instance never meet.
def conflicting (policy : Policy) (grant : GrantRow) : Option (String × GrantRow) :=
  (policy.grants.entries.find? (fun entry => decide (entry.2.subject = grant.subject ∧ entry.2.resource = grant.resource ∧
    entry.2.permission = grant.permission ∧ grant.resource ≠ .instanceWide))).map (fun entry => (entry.1,entry.2))

def insertGrant (policy : Policy) (grantId : String) (grant : GrantRow) : Except AppError (Policy × String × GrantRow) :=
  match conflicting policy grant with
  | some (id,old) =>
    let row := {old with effect := grant.effect,grantedBy := grant.grantedBy,expiresAt := grant.expiresAt}
    .ok ({policy with grants := policy.grants.set id row},id,row)
  | none =>
    if policy.grants.contains grantId then .error (.database "permission_grants_pkey")
    else .ok ({policy with grants := policy.grants.set grantId grant},grantId,grant)

def upsertGrant (policy : Policy) (tree : Tree) (now : Int) (grantId callerId : String) (body : UpsertGrantRequest) :
    Except AppError (Policy × String × GrantRow) := do
  let target ← checkRequest policy tree body
  ensureCanManageGrants policy tree now callerId target.resourceType body.resourceId
  let resource ← resourceRef target.resourceType body.resourceId
  insertGrant policy grantId ⟨target.subject,resource,target.permission.asStr,target.effect,some callerId,now,body.expiresAt⟩

def revokeGrantById (policy : Policy) (tree : Tree) (now : Int) (callerId grantId : String) : Except AppError Policy :=
  match policy.grants.get grantId with
  | none => .error .notFound
  | some grant => do
    ensureCanManageGrants policy tree now callerId grant.resource.resourceType grant.resource.resourceId
    .ok {policy with grants := policy.grants.remove grantId}

inductive Call where
  | upsertGrant (now : Int) (callerId grantId : String) (body : UpsertGrantRequest)
  | revokeGrantById (now : Int) (callerId grantId : String)
  deriving DecidableEq, Repr

def Call.now : Call → Int
  | .upsertGrant now .. => now
  | .revokeGrantById now .. => now

def Call.callerId : Call → String
  | .upsertGrant _ callerId .. => callerId
  | .revokeGrantById _ callerId _ => callerId

def after {α : Type} (policy : Policy) (write : α → Policy) : Except AppError α → Policy
  | .ok done => write done
  | .error _ => policy

def step (tree : Tree) (policy : Policy) : Call → Option Policy
  | .upsertGrant now callerId grantId body => some (after policy (·.1) (upsertGrant policy tree now grantId callerId body))
  | .revokeGrantById now callerId grantId => some (after policy (fun p : Policy => p) (revokeGrantById policy tree now callerId grantId))

-- The call would write or delete a grant on the instance, if its caller may: the request
-- passes its checks and its new id is unused, or the grant to revoke is there.
def OnInstance (policy : Policy) (tree : Tree) : Call → Prop
  | .upsertGrant _ _ grantId body => (∃ target, checkRequest policy tree body = .ok target ∧ target.resourceType = .instanceWide) ∧
      policy.grants.get grantId = none
  | .revokeGrantById _ _ grantId => ∃ grant, policy.grants.get grantId = some grant ∧ grant.resource = .instanceWide

-- No such call is made by a user with content.manage_acl on the instance.
def AclKeptOff (tree : Tree) (policy : Policy) (call : Call) : Prop :=
  OnInstance policy tree call → authorize policy tree call.now call.callerId .contentManageAcl .instanceWide ≠ .ok ()

def instanceGrant (policy : Policy) (id : String) : Option GrantRow :=
  (policy.grants.get id).filter (fun grant => decide (grant.resource = .instanceWide))

structure NoEscalation (tree : Tree) (start policy : Policy) : Prop where
  rows : ∀ id, instanceGrant policy id = instanceGrant start id
  gains : ∀ now userId, ∀ permission ∈ Permission.allInstance,
    authorizeInstance policy tree now userId permission = .ok () → authorizeInstance start tree now userId permission = .ok ()

structure SameAccounts (start policy : Policy) : Prop where
  users : policy.users = start.users
  groups : policy.groups = start.groups
  members : policy.members = start.members
  shares : policy.shares = start.shares

section Calls
variable {policy start next : Policy} {tree : Tree} {now : Int} {userId callerId grantId : String} {permission : Permission}
  {call : Call} {calls : List Call} {body : UpsertGrantRequest} {target : GrantTarget} {grant : GrantRow} {done : Policy × String × GrantRow}
  {effect : GrantEffect} {n : Nat} {resourceId : Option String} {id : String}

theorem instanceGrant_some : instanceGrant policy grantId = some grant ↔
    policy.grants.get grantId = some grant ∧ grant.resource = .instanceWide := by
  rw [instanceGrant,filter_eq_some_iff,decide_eq_true_eq]

theorem bears_instance {on : ResourceRef} : Bears tree n .instanceWide on ↔ on = .instanceWide := by
  constructor
  · rintro (whole | whole | ⟨folderId,_,first,_,none,_⟩)
    · exact whole
    · exact whole
    · cases none
  · exact .inl

theorem granted_instance : Granted policy tree n now userId effect permission .instanceWide ↔
    ∃ id grant, instanceGrant policy id = some grant ∧ Holds policy now userId grant ∧ Speaks effect permission grant := by
  unfold Granted
  simp only [bears_instance,instanceGrant_some]
  constructor
  · rintro ⟨grant,⟨⟨id,found⟩,holds⟩,on,speaks⟩
    exact ⟨id,grant,⟨found,on⟩,⟨⟨id,found⟩,holds⟩,speaks⟩
  · rintro ⟨id,grant,⟨_,on⟩,holds,speaks⟩
    exact ⟨grant,holds,on,speaks⟩

section
variable (accounts : SameAccounts start policy) (rows : ∀ id, instanceGrant policy id = instanceGrant start id)
include accounts rows

theorem granted_same :
    Granted policy tree n now userId effect permission .instanceWide ↔
      Granted start tree n now userId effect permission .instanceWide := by
  rw [granted_instance,granted_instance]
  refine exists_congr (fun id => exists_congr (fun grant => ?_))
  rw [rows id]
  refine and_congr_right (fun found => and_congr_left (fun _ => ?_))
  have here := (instanceGrant_some.mp ((rows id).trans found)).1
  have there := (instanceGrant_some.mp found).1
  unfold Holds
  rw [accounts.members]
  exact and_congr_left (fun _ => ⟨fun _ => ⟨id,there⟩,fun _ => ⟨id,here⟩⟩)

theorem authorizeInstance_same :
    authorizeInstance policy tree now userId permission = .ok () ↔ authorizeInstance start tree now userId permission = .ok () := by
  have admin : hasLegacyInstanceAdminRole policy userId = hasLegacyInstanceAdminRole start userId := by
    unfold hasLegacyInstanceAdminRole userIsAdminGroupMember
    rw [accounts.users,accounts.groups,accounts.members]
  unfold authorizeInstance
  rw [admin]
  split
  · exact Iff.rfl
  · rw [authorize_ok,authorize_ok,granted_same accounts rows,granted_same accounts rows]
    rfl

theorem noEscalation_of_rows :
    NoEscalation tree start policy :=
  ⟨rows,fun _ _ _ _ => (authorizeInstance_same accounts rows).mp⟩

end

theorem bind_ok {ε α β : Type} {first : Except ε α} {rest : α → Except ε β} {b : β} :
    (first >>= rest) = .ok b ↔ ∃ a, first = .ok a ∧ rest a = .ok b := by
  cases first with
  | error e =>
    constructor
    · intro ended
      cases ended
    · rintro ⟨a,made,_⟩
      cases made
  | ok a =>
    constructor
    · exact fun ended => ⟨a,rfl,ended⟩
    · rintro ⟨a,⟨⟩,ended⟩
      exact ended

theorem resourceRef_whole {resourceType : ResourceType} {resource : ResourceRef}
    (made : resourceRef resourceType resourceId = .ok resource) : resource = .instanceWide ↔ resourceType = .instanceWide := by
  cases resourceType <;> cases resourceId <;> cases made <;> simp

def MayManage (policy : Policy) (tree : Tree) (now : Int) (callerId : String) : Prop :=
  authorizeInstance policy tree now callerId .instancePermissionsManage = .ok () ∨
    authorize policy tree now callerId .contentManageAcl .instanceWide = .ok ()

theorem ensureCanManage_instance :
    ensureCanManageGrants policy tree now callerId .instanceWide resourceId = .ok () ↔ MayManage policy tree now callerId := by
  unfold ensureCanManageGrants MayManage
  split
  · rename_i manager
    simp [manager]
  · rename_i other
    simp only [other,false_or]
    exact Iff.rfl

theorem conflicting_some {old : GrantRow} (found : conflicting policy grant = some (id,old)) :
    policy.grants.get id = some old ∧ old.resource = grant.resource ∧ grant.resource ≠ .instanceWide := by
  obtain ⟨entry,first,same⟩ := map_eq_some_iff.mp found
  cases same
  have holds := List.find?_some first
  rw [decide_eq_true_eq] at holds
  exact ⟨get_eq_some.mpr (List.mem_of_find?_eq_some first),holds.2.1,holds.2.2.2⟩

theorem conflicting_instance (whole : grant.resource = .instanceWide) : conflicting policy grant = none := by
  cases found : conflicting policy grant with
  | none => rfl
  | some pair => exact absurd whole (conflicting_some found).2.2

theorem contains_false : policy.grants.contains id = false ↔ policy.grants.get id = none := by
  rw [KeyMap.contains,isSome_eq_false_iff,isNone_iff_eq_none]

theorem set_elsewhere (before : ∀ old, policy.grants.get id = some old → old.resource ≠ .instanceWide)
    (elsewhere : grant.resource ≠ .instanceWide) (other : String) :
    instanceGrant {policy with grants := policy.grants.set id grant} other = instanceGrant policy other := by
  unfold instanceGrant
  dsimp only
  rw [get_set]
  split
  · subst other
    rw [filter_some,if_neg (by simpa using elsewhere)]
    cases found : policy.grants.get id with
    | none => rfl
    | some old => rw [filter_some,if_neg (by simpa using before old found)]
  · rfl

theorem insertGrant_elsewhere (inserted : insertGrant policy grantId grant = .ok done) (elsewhere : grant.resource ≠ .instanceWide)
    (other : String) : instanceGrant done.1 other = instanceGrant policy other := by
  unfold insertGrant at inserted
  split at inserted
  · rename_i id old found
    cases inserted
    obtain ⟨present,same,_⟩ := conflicting_some found
    refine set_elsewhere ?_ (by rw [same]; exact elsewhere) other
    intro row there
    rw [present] at there
    cases there
    rw [same]
    exact elsewhere
  · split at inserted
    · cases inserted
    · rename_i unused
      cases inserted
      refine set_elsewhere ?_ elsewhere other
      intro row there
      rw [contains_false.mp (Bool.eq_false_iff.mpr unused)] at there
      cases there

theorem insertGrant_instance (whole : grant.resource = .instanceWide) (unused : policy.grants.get grantId = none) :
    insertGrant policy grantId grant = .ok ({policy with grants := policy.grants.set grantId grant},grantId,grant) := by
  unfold insertGrant
  rw [conflicting_instance whole]
  dsimp only
  rw [if_neg (by rw [contains_false.mpr unused]; exact Bool.false_ne_true)]

theorem insertGrant_accounts (inserted : insertGrant policy grantId grant = .ok done) : SameAccounts policy done.1 := by
  unfold insertGrant at inserted
  split at inserted
  · cases inserted
    exact ⟨rfl,rfl,rfl,rfl⟩
  · split at inserted
    · cases inserted
    · cases inserted
      exact ⟨rfl,rfl,rfl,rfl⟩

theorem upsertGrant_ok : upsertGrant policy tree now grantId callerId body = .ok done ↔
    ∃ target resource, checkRequest policy tree body = .ok target ∧
      ensureCanManageGrants policy tree now callerId target.resourceType body.resourceId = .ok () ∧
      resourceRef target.resourceType body.resourceId = .ok resource ∧
      insertGrant policy grantId
        ⟨target.subject,resource,target.permission.asStr,target.effect,some callerId,now,body.expiresAt⟩ = .ok done := by
  unfold upsertGrant
  simp only [bind_ok]
  constructor
  · rintro ⟨target,checked,⟨⟩,managed,resource,made,inserted⟩
    exact ⟨target,resource,checked,managed,made,inserted⟩
  · rintro ⟨target,resource,checked,managed,made,inserted⟩
    exact ⟨target,checked,(),managed,resource,made,inserted⟩

theorem revokeGrantById_ok : revokeGrantById policy tree now callerId grantId = .ok next ↔
    ∃ grant, policy.grants.get grantId = some grant ∧
      ensureCanManageGrants policy tree now callerId grant.resource.resourceType grant.resource.resourceId = .ok () ∧
      next = {policy with grants := policy.grants.remove grantId} := by
  unfold revokeGrantById
  cases found : policy.grants.get grantId with
  | none => simp
  | some grant =>
    simp only [bind_ok,Option.some.injEq,exists_eq_left']
    constructor
    · rintro ⟨⟨⟩,managed,⟨⟩⟩
      exact ⟨managed,rfl⟩
    · rintro ⟨managed,rfl⟩
      exact ⟨(),managed,rfl⟩

theorem step_accounts (fired : step tree policy call = some next) : SameAccounts policy next := by
  cases call with
  | upsertGrant now callerId grantId body =>
    cases fired
    cases made : upsertGrant policy tree now grantId callerId body with
    | error e => exact ⟨rfl,rfl,rfl,rfl⟩
    | ok done =>
      obtain ⟨_,_,_,_,_,inserted⟩ := upsertGrant_ok.mp made
      exact insertGrant_accounts inserted
  | revokeGrantById now callerId grantId =>
    cases fired
    cases made : revokeGrantById policy tree now callerId grantId with
    | error e => exact ⟨rfl,rfl,rfl,rfl⟩
    | ok done =>
      obtain ⟨_,_,_,rfl⟩ := revokeGrantById_ok.mp made
      exact ⟨rfl,rfl,rfl,rfl⟩

theorem upsert_rows : (∀ id, instanceGrant (after policy (·.1) (upsertGrant policy tree now grantId callerId body)) id =
      instanceGrant policy id) ↔
    ¬(OnInstance policy tree (.upsertGrant now callerId grantId body) ∧ MayManage policy tree now callerId) := by
  constructor
  · rintro same ⟨⟨⟨target,checked,whole⟩,unused⟩,may⟩
    have managed : ensureCanManageGrants policy tree now callerId target.resourceType body.resourceId = .ok () := by
      rw [whole]
      exact ensureCanManage_instance.mpr may
    have placed : resourceRef target.resourceType body.resourceId = .ok .instanceWide := by
      rw [whole]
      rfl
    have made := upsertGrant_ok.mpr ⟨target,.instanceWide,checked,managed,placed,insertGrant_instance rfl unused⟩
    rw [made] at same
    have there := same grantId
    unfold after instanceGrant at there
    dsimp only at there
    rw [get_set_self,unused,filter_some,if_pos (by simp)] at there
    cases there
  · intro off id
    cases made : upsertGrant policy tree now grantId callerId body with
    | error e => rfl
    | ok done =>
      obtain ⟨target,resource,checked,managed,placed,inserted⟩ := upsertGrant_ok.mp made
      by_cases whole : resource = .instanceWide
      · have wide := (resourceRef_whole placed).mp whole
        rw [wide] at managed
        cases unused : policy.grants.get grantId with
        | none => exact absurd ⟨⟨⟨target,checked,wide⟩,unused⟩,ensureCanManage_instance.mp managed⟩ off
        | some old =>
          unfold insertGrant at inserted
          rw [conflicting_instance whole] at inserted
          dsimp only at inserted
          rw [if_pos (by rw [KeyMap.contains,unused]; rfl)] at inserted
          cases inserted
      · exact insertGrant_elsewhere inserted whole id

theorem revoke_rows : (∀ id, instanceGrant (after policy (fun p : Policy => p) (revokeGrantById policy tree now callerId grantId)) id =
      instanceGrant policy id) ↔
    ¬(OnInstance policy tree (.revokeGrantById now callerId grantId) ∧ MayManage policy tree now callerId) := by
  constructor
  · rintro same ⟨⟨grant,present,whole⟩,may⟩
    have managed : ensureCanManageGrants policy tree now callerId grant.resource.resourceType grant.resource.resourceId = .ok () := by
      rw [whole]
      exact ensureCanManage_instance.mpr may
    rw [revokeGrantById_ok.mpr ⟨grant,present,managed,rfl⟩] at same
    have there := (same grantId).trans (instanceGrant_some.mpr ⟨present,whole⟩)
    unfold after instanceGrant at there
    dsimp only at there
    rw [get_remove_self] at there
    cases there
  · intro off id
    cases made : revokeGrantById policy tree now callerId grantId with
    | error e => rfl
    | ok done =>
      obtain ⟨grant,present,managed,rfl⟩ := revokeGrantById_ok.mp made
      unfold after instanceGrant
      dsimp only
      by_cases same : id = grantId
      · subst same
        rw [get_remove_self,present,filter_some,if_neg]
        · rfl
        · intro whole
          have wide := of_decide_eq_true whole
          rw [wide] at managed
          exact off ⟨⟨grant,present,wide⟩,ensureCanManage_instance.mp managed⟩
      · rw [get_remove_ne same]

theorem step_rows (fired : step tree policy call = some next) : (∀ id, instanceGrant next id = instanceGrant policy id) ↔
    ¬(OnInstance policy tree call ∧ MayManage policy tree call.now call.callerId) := by
  cases call with
  | upsertGrant now callerId grantId body =>
    cases fired
    exact upsert_rows
  | revokeGrantById now callerId grantId =>
    cases fired
    exact revoke_rows

theorem step_total (tree : Tree) (policy : Policy) (call : Call) : ∃ next, step tree policy call = some next := by
  cases call <;> exact ⟨_,rfl⟩

theorem step_keeps_iff (accounts : SameAccounts start policy) (kept : NoEscalation tree start policy)
    (outside : authorizeInstance start tree call.now call.callerId .instancePermissionsManage ≠ .ok ()) :
    (∀ next, step tree policy call = some next → NoEscalation tree start next) ↔ AclKeptOff tree policy call := by
  have still : authorizeInstance policy tree call.now call.callerId .instancePermissionsManage ≠ .ok () :=
    fun allowed => outside ((authorizeInstance_same accounts kept.rows).mp allowed)
  obtain ⟨next,fired⟩ := step_total tree policy call
  have rows := step_rows fired
  constructor
  · intro keeps on allowed
    have same : ∀ id, instanceGrant next id = instanceGrant policy id :=
      fun id => ((keeps next fired).rows id).trans (kept.rows id).symm
    exact rows.mp same ⟨on,.inr allowed⟩
  · intro off other same
    rw [fired] at same
    cases same
    have unchanged : ∀ id, instanceGrant next id = instanceGrant policy id := by
      refine rows.mpr ?_
      rintro ⟨on,manager | acl⟩
      · exact still manager
      · exact off on acl
    have whole := step_accounts fired
    refine noEscalation_of_rows ?_ (fun id => (unchanged id).trans (kept.rows id))
    exact ⟨whole.users.trans accounts.users,whole.groups.trans accounts.groups,whole.members.trans accounts.members,
      whole.shares.trans accounts.shares⟩

-- In a run of calls of users without instance.permissions.manage, nobody gains a
-- permission on the instance, and its rows stay, exactly where no caller uses
-- content.manage_acl on the instance.
theorem grants_no_escalation (tree : Tree) (start : Policy) (calls : List Call)
    (outside : ∀ call ∈ calls, authorizeInstance start tree call.now call.callerId .instancePermissionsManage ≠ .ok ()) :
    (∀ left right reached, calls = left ++ right → Schedule.run (step tree) start left = some reached →
      NoEscalation tree start reached) ↔ Schedule.Along (step tree) (AclKeptOff tree) start calls := by
  have initially : SameAccounts start start ∧ NoEscalation tree start start :=
    ⟨⟨rfl,rfl,rfl,rfl⟩,⟨fun _ => rfl,fun _ _ _ _ allowed => allowed⟩⟩
  rw [← Schedule.along_reached_iff initially.2]
  refine Schedule.along_congr_among (motive := fun policy => SameAccounts start policy ∧ NoEscalation tree start policy)
    ?_ ?_ initially outside
  · intro policy call held barred
    exact step_keeps_iff held.1 held.2 barred
  · intro policy call next held barred off fired
    have whole := step_accounts fired
    refine ⟨?_,(step_keeps_iff held.1 held.2 barred).mpr off next fired⟩
    exact ⟨whole.users.trans held.1.users,whole.groups.trans held.1.groups,whole.members.trans held.1.members,
      whole.shares.trans held.1.shares⟩

end Calls

section Escalation

def usersOnly : Policy :=
  ⟨(KeyMap.empty.set "ann" "user").set "bob" "user",KeyMap.empty,[],[],KeyMap.empty⟩

def sharedFolder : Tree := ⟨KeyMap.empty.set "docs" ⟨"ann",none,"docs",none⟩,KeyMap.empty⟩

def shareDocs : Call := .upsertGrant 0 "ann" "g1" ⟨"user","bob","folder",some "docs","content.manage_acl",none,none⟩

theorem grants_no_escalation_share : Schedule.Along (step sharedFolder) (AclKeptOff sharedFolder) usersOnly [shareDocs] ∧
    ((∀ left right reached, [shareDocs] = left ++ right → Schedule.run (step sharedFolder) usersOnly left = some reached →
      NoEscalation sharedFolder usersOnly reached) ↔ Schedule.Along (step sharedFolder) (AclKeptOff sharedFolder) usersOnly [shareDocs]) := by
  have outside : ∀ call ∈ [shareDocs],
      authorizeInstance usersOnly sharedFolder call.now call.callerId .instancePermissionsManage ≠ .ok () := by decide +kernel
  have unheld : authorize usersOnly sharedFolder shareDocs.now shareDocs.callerId .contentManageAcl .instanceWide ≠ .ok () := by
    decide +kernel
  exact ⟨⟨fun _ => unheld,fun _ _ => trivial⟩,grants_no_escalation sharedFolder usersOnly [shareDocs] outside⟩

def aclOnInstance : Policy :=
  {usersOnly with grants := KeyMap.empty.set "g1" ⟨.user "bob",.instanceWide,"content.manage_acl",.allow,some "ann",0,none⟩}

def grantUsersManage : Call := .upsertGrant 1 "bob" "g2" ⟨"user","bob","instance",none,"instance.users.manage",none,none⟩

theorem grants_escalate : (∀ call ∈ [grantUsersManage],
      authorizeInstance aclOnInstance sharedFolder call.now call.callerId .instancePermissionsManage ≠ .ok ()) ∧
    authorizeInstance aclOnInstance sharedFolder 1 "bob" .instanceUsersManage ≠ .ok () ∧
    instanceGrant aclOnInstance "g2" = none ∧
    ∃ reached, Schedule.run (step sharedFolder) aclOnInstance [grantUsersManage] = some reached ∧
      authorizeInstance reached sharedFolder 1 "bob" .instanceUsersManage = .ok () ∧ instanceGrant reached "g2" ≠ none := by
  refine ⟨by decide +kernel,by decide +kernel,by decide +kernel,_,rfl,by decide +kernel,by decide +kernel⟩

end Escalation

end Ownly.Authz
