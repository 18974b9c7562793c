import Ownly.Authz.Grants

-- authz/grants.rs: the statements that write permission_grants, and how many rows they
-- leave for one subject, resource and permission.
namespace Ownly.Authz.GrantKeys
open Folders (Tree)
open Option KeyMap

-- The cast to grant_resource_type, and the check that ties a resource_id to it.
def shareResource (resourceType resourceId : String) : Except AppError ResourceRef :=
  match resourceType with
  | "folder" => .ok (.folder resourceId)
  | "file" => .ok (.file resourceId)
  | "instance" => .error (.database "permission_grants_resource_id_check")
  | _ => .error (.database "invalid input value for enum grant_resource_type")

def grantContentForUserShare (policy : Policy) (now : Int) (grantId ownerId subjectUserId resourceType resourceId permission : String) :
    Except AppError Policy := do
  let perm ← Permission.parse permission
  if perm ∉ Permission.contentAssignable then .error (.badRequest "permission must be a content.* grant")
  else
    let resource ← shareResource resourceType resourceId
    let grant : GrantRow := ⟨.user subjectUserId,resource,perm.asStr,.allow,some ownerId,now,none⟩
    match conflicting policy grant with
    -- An expiry that the row has stays.
    | some (id,old) => .ok {policy with grants := policy.grants.set id {old with effect := .allow,grantedBy := some ownerId}}
    | none =>
      if policy.grants.contains grantId then .error (.database "permission_grants_pkey")
      else .ok {policy with grants := policy.grants.set grantId grant}

def sharePermissions : List String :=
  ["content.read","content.write","content.delete","content.share","content.manage_acl"]

def revokeContentReadForUserShare (policy : Policy) (subjectUserId resourceType resourceId : String) : Except AppError Policy :=
  match resourceType with
  | "folder" => .ok (cleared (.folder resourceId))
  | "file" => .ok (cleared (.file resourceId))
  -- No row on the instance has a resource_id.
  | "instance" => .ok policy
  | _ => .error (.database "invalid input value for enum grant_resource_type")
where
  cleared (resource : ResourceRef) : Policy :=
    {policy with grants := policy.grants.retain (fun _ row =>
      !decide (row.subject = .user subjectUserId ∧ row.resource = resource ∧ row.permission ∈ sharePermissions))}

-- What else the statements of one call read; other handlers change it between calls.
structure Context where
  users : KeyMap String String
  groups : KeyMap String String
  members : List (String × String)
  shares : List (String × ResourceRef)
  tree : Tree
  now : Int

abbrev Grants := KeyMap String GrantRow

def Context.policy (context : Context) (grants : Grants) : Policy :=
  ⟨context.users,context.groups,context.members,context.shares,grants⟩

inductive Call where
  | upsertGrant (callerId grantId : String) (body : UpsertGrantRequest)
  | grantContentForUserShare (grantId ownerId subjectUserId resourceType resourceId permission : String)
  | revokeGrantById (callerId grantId : String)
  | revokeContentReadForUserShare (subjectUserId resourceType resourceId : String)

def perform (context : Context) (grants : Grants) : Call → Grants
  | .upsertGrant callerId grantId body =>
    (after (context.policy grants) (·.1)
      (upsertGrant (context.policy grants) context.tree context.now grantId callerId body)).grants
  | .grantContentForUserShare grantId ownerId subjectUserId resourceType resourceId permission =>
    (after (context.policy grants) (fun done : Policy => done) (grantContentForUserShare (context.policy grants) context.now
      grantId ownerId subjectUserId resourceType resourceId permission)).grants
  | .revokeGrantById callerId grantId =>
    (after (context.policy grants) (fun done : Policy => done)
      (revokeGrantById (context.policy grants) context.tree context.now callerId grantId)).grants
  | .revokeContentReadForUserShare subjectUserId resourceType resourceId =>
    (after (context.policy grants) (fun done : Policy => done)
      (revokeContentReadForUserShare (context.policy grants) subjectUserId resourceType resourceId)).grants

def step (grants : Grants) (call : Context × Call) : Option Grants := some (perform call.1 grants call.2)

def SameKey (one other : GrantRow) : Prop :=
  one.subject = other.subject ∧ one.resource = other.resource ∧ one.permission = other.permission

def OnePerKey (grants : Grants) : Prop :=
  ∀ id id' one other, grants.get id = some one → grants.get id' = some other → SameKey one other → id = id'

def Decided (grants : Grants) : Context × Call → Prop
  | (context,.upsertGrant callerId grantId body) =>
    ∀ done target, upsertGrant (context.policy grants) context.tree context.now grantId callerId body = .ok done →
      checkRequest (context.policy grants) context.tree body = .ok target →
      done.1.grants.get done.2.1 = some done.2.2 ∧ done.2.2.effect = target.effect ∧
      (done.2.2.subject = target.subject ∧ done.2.2.resource.resourceType = target.resourceType ∧
        done.2.2.permission = target.permission.asStr ∧ (target.resourceType ≠ .instanceWide →
          done.2.2.resource.resourceId = body.resourceId)) ∧
      ∀ id row, done.1.grants.get id = some row → SameKey row done.2.2 → id = done.2.1
  | _ => True

def NoInstanceTwin (grants : Grants) : Context × Call → Prop
  | (context,.upsertGrant callerId grantId body) =>
    ∀ target, checkRequest (context.policy grants) context.tree body = .ok target → target.resourceType = .instanceWide →
      ensureCanManageGrants (context.policy grants) context.tree context.now callerId .instanceWide body.resourceId = .ok () →
      grants.get grantId = none →
      ¬∃ id row, grants.get id = some row ∧ row.subject = target.subject ∧ row.resource = .instanceWide ∧
        row.permission = target.permission.asStr
  | _ => True

variable {grants : Grants} {grant row old : GrantRow} {id grantId : String} {policy : Policy} {call : Context × Call}
  {context : Context} {done : Policy × String × GrantRow} {callerId : String} {body : UpsertGrantRequest}

theorem SameKey.symm {one other : GrantRow} (same : SameKey one other) : SameKey other one :=
  ⟨same.1.symm,same.2.1.symm,same.2.2.symm⟩

theorem SameKey.trans {one middle other : GrantRow} (first : SameKey one middle) (second : SameKey middle other) :
    SameKey one other :=
  ⟨first.1.trans second.1,first.2.1.trans second.2.1,first.2.2.trans second.2.2⟩

theorem OnePerKey.set (once : OnePerKey grants)
    (mine : ∀ other row, grants.get other = some row → SameKey row grant → other = id) : OnePerKey (grants.set id grant) := by
  intro one two first second here there same
  rw [get_set] at here there
  split at here
  · split at there
    · rename_i left right
      exact left.trans right.symm
    · rename_i left right
      cases here
      exact absurd (mine two second there same.symm) right
  · split at there
    · rename_i left right
      cases there
      exact absurd (mine one first here same) left
    · exact once one two first second here there same

theorem OnePerKey.sub {fewer : Grants} (once : OnePerKey grants) (sub : ∀ id row, fewer.get id = some row → grants.get id = some row) :
    OnePerKey fewer :=
  fun one two first second here there => once one two first second (sub one first here) (sub two second there)

theorem conflicting_key (found : conflicting policy grant = some (id,old)) : policy.grants.get id = some old ∧ SameKey old grant := by
  obtain ⟨entry,first,same⟩ := map_eq_some_iff.mp found
  cases same
  have holds := List.find?_some first
  rw [decide_eq_true_eq] at holds
  exact ⟨get_eq_some.mpr (List.mem_of_find?_eq_some first),holds.1,holds.2.1,holds.2.2.1⟩

theorem conflicting_none (none_ : conflicting policy grant = none) (elsewhere : grant.resource ≠ .instanceWide)
    (present : policy.grants.get id = some row) : ¬SameKey row grant := by
  rintro ⟨subject,resource,permission⟩
  rw [conflicting,map_eq_none_iff,List.find?_eq_none] at none_
  have here := none_ ⟨id,row⟩ (get_eq_some.mp present)
  exact here (decide_eq_true ⟨subject,resource,permission,elsewhere⟩)

theorem insertGrant_cases (inserted : insertGrant policy grantId grant = .ok done) :
    (∃ id old, conflicting policy grant = some (id,old) ∧
      done = ({policy with grants := policy.grants.set id {old with
        effect := grant.effect,grantedBy := grant.grantedBy,expiresAt := grant.expiresAt}},id,
        {old with effect := grant.effect,grantedBy := grant.grantedBy,expiresAt := grant.expiresAt})) ∨
    conflicting policy grant = none ∧ policy.grants.get grantId = none ∧
      done = ({policy with grants := policy.grants.set grantId grant},grantId,grant) := by
  unfold insertGrant at inserted
  split at inserted
  · rename_i id old found
    cases inserted
    exact .inl ⟨id,old,found,rfl⟩
  · rename_i none_
    split at inserted
    · cases inserted
    · rename_i unused
      cases inserted
      exact .inr ⟨none_,contains_false.mp (Bool.eq_false_iff.mpr unused),rfl⟩

theorem insertGrant_row (inserted : insertGrant policy grantId grant = .ok done) :
    done.1.grants.get done.2.1 = some done.2.2 ∧ done.2.2.effect = grant.effect ∧ SameKey done.2.2 grant := by
  rcases insertGrant_cases inserted with ⟨id,old,found,rfl⟩ | ⟨_,_,rfl⟩
  · exact ⟨get_set_self,rfl,(conflicting_key found).2⟩
  · exact ⟨get_set_self,rfl,rfl,rfl,rfl⟩

theorem OnePerKey.rewrite (once : OnePerKey policy.grants) (found : conflicting policy grant = some (id,old))
    (kept : SameKey row old) : OnePerKey (policy.grants.set id row) := by
  refine once.set (fun other there present same => ?_)
  exact once other id there old present (conflicting_key found).1 (same.trans kept)

theorem OnePerKey.insert (once : OnePerKey policy.grants) (none_ : conflicting policy grant = none)
    (twinless : grant.resource = .instanceWide → ¬∃ id row, policy.grants.get id = some row ∧ SameKey row grant) :
    OnePerKey (policy.grants.set grantId grant) := by
  refine once.set (fun other row present same => ?_)
  by_cases whole : grant.resource = .instanceWide
  · exact absurd ⟨other,row,present,same⟩ (twinless whole)
  · exact absurd same (conflicting_none none_ whole present)

theorem insertGrant_once (once : OnePerKey policy.grants)
    (inserted : insertGrant policy grantId grant = .ok done) :
    OnePerKey done.1.grants ↔
      (grant.resource = .instanceWide → ¬∃ id row, policy.grants.get id = some row ∧ SameKey row grant) := by
  rcases insertGrant_cases inserted with ⟨id,old,found,rfl⟩ | ⟨none_,unused,rfl⟩
  · refine ⟨fun _ whole => ?_,fun _ => once.rewrite found ⟨rfl,rfl,rfl⟩⟩
    rw [conflicting_instance whole] at found
    cases found
  · refine ⟨?_,once.insert none_⟩
    rintro after _ ⟨id,row,present,same⟩
    have other : id ≠ grantId := by
      rintro rfl
      rw [unused] at present
      cases present
    exact other (after id grantId row grant ((get_set_ne other).trans present) get_set_self same)

theorem share_once {ownerId subjectUserId resourceType resourceId permission : String} (once : OnePerKey grants) :
    OnePerKey (perform context grants
      (.grantContentForUserShare grantId ownerId subjectUserId resourceType resourceId permission)) := by
  simp only [perform]
  cases made : grantContentForUserShare (context.policy grants) context.now grantId ownerId subjectUserId resourceType
      resourceId permission with
  | error e => exact once
  | ok done =>
    obtain ⟨perm,_,rest⟩ := bind_ok.mp made
    split at rest
    · cases rest
    · obtain ⟨resource,placed,written⟩ := bind_ok.mp rest
      have elsewhere : resource ≠ .instanceWide := by
        unfold shareResource at placed
        split at placed <;> cases placed <;> exact ResourceRef.noConfusion
      dsimp only at written
      split at written
      · rename_i id old found
        cases written
        have still : OnePerKey (context.policy grants).grants := once
        exact still.rewrite found ⟨rfl,rfl,rfl⟩
      · rename_i none_
        split at written
        · cases written
        · cases written
          have still : OnePerKey (context.policy grants).grants := once
          exact still.insert none_ (fun whole => absurd whole elsewhere)

theorem revoke_once (once : OnePerKey grants) :
    OnePerKey (perform context grants (.revokeGrantById callerId grantId)) := by
  simp only [perform]
  cases made : revokeGrantById (context.policy grants) context.tree context.now callerId grantId with
  | error e => exact once
  | ok done =>
    obtain ⟨_,_,_,rfl⟩ := revokeGrantById_ok.mp made
    refine once.sub (fun id row present => ?_)
    by_cases same : id = grantId
    · subst same
      rw [after,get_remove_self] at present
      cases present
    · exact (get_remove_ne same).symm.trans present

theorem revokeShare_once {subjectUserId resourceType resourceId : String} (once : OnePerKey grants) :
    OnePerKey (perform context grants (.revokeContentReadForUserShare subjectUserId resourceType resourceId)) := by
  have cleared : ∀ resource, OnePerKey (revokeContentReadForUserShare.cleared (context.policy grants) subjectUserId resource).grants := by
    intro resource
    refine once.sub (fun id row present => ?_)
    rw [revokeContentReadForUserShare.cleared,get_retain,filter_eq_some_iff] at present
    exact present.1
  simp only [perform,revokeContentReadForUserShare]
  split
  · exact cleared _
  · exact cleared _
  · exact once
  · exact once

theorem resourceRef_parts {resourceType : ResourceType} {resourceId : Option String} {resource : ResourceRef}
    (made : resourceRef resourceType resourceId = .ok resource) :
    resource.resourceType = resourceType ∧ (resourceType ≠ .instanceWide → resource.resourceId = resourceId) := by
  cases resourceType <;> cases resourceId <;> cases made <;> simp [ResourceRef.resourceType,ResourceRef.resourceId]

theorem upsert_once (once : OnePerKey grants) :
    OnePerKey (perform context grants (.upsertGrant callerId grantId body)) ↔
      NoInstanceTwin grants (context,.upsertGrant callerId grantId body) := by
  have still : OnePerKey (context.policy grants).grants := once
  constructor
  · rintro after target checked wide managed unused ⟨id,row,present,subject,whole,permission⟩
    have placed : resourceRef target.resourceType body.resourceId = .ok .instanceWide := by
      rw [wide]
      rfl
    rw [← wide] at managed
    have inserted : insertGrant (context.policy grants) grantId ⟨target.subject,.instanceWide,target.permission.asStr,
        target.effect,some callerId,context.now,body.expiresAt⟩ = .ok _ := insertGrant_instance rfl unused
    simp only [perform,upsertGrant_ok.mpr ⟨target,.instanceWide,checked,managed,placed,inserted⟩] at after
    exact (insertGrant_once still inserted).mp after rfl ⟨id,row,present,subject,whole,permission⟩
  · intro twinless
    simp only [perform]
    cases made : upsertGrant (context.policy grants) context.tree context.now grantId callerId body with
    | error e => exact once
    | ok done =>
      obtain ⟨target,resource,checked,managed,placed,inserted⟩ := upsertGrant_ok.mp made
      refine (insertGrant_once still inserted).mpr ?_
      rintro whole ⟨id,row,present,subject,there,permission⟩
      have wide := (resourceRef_whole placed).mp whole
      rw [wide] at managed
      rcases insertGrant_cases inserted with ⟨_,_,found,_⟩ | ⟨_,unused,_⟩
      · rw [conflicting_instance whole] at found
        cases found
      · exact twinless target checked wide managed unused ⟨id,row,present,subject,there.trans whole,permission⟩

theorem upsert_decided
    (once : OnePerKey (perform context grants (.upsertGrant callerId grantId body))) :
    Decided grants (context,.upsertGrant callerId grantId body) := by
  intro done target made wanted
  simp only [perform,made] at once
  obtain ⟨target',resource,checked,_,placed,inserted⟩ := upsertGrant_ok.mp made
  rw [wanted] at checked
  cases checked
  obtain ⟨stored,effect,same⟩ := insertGrant_row inserted
  obtain ⟨kind,ident⟩ := resourceRef_parts placed
  refine ⟨stored,effect,⟨same.1,by rw [same.2.1]; exact kind,same.2.2,fun elsewhere => by rw [same.2.1]; exact ident elsewhere⟩,?_⟩
  exact fun id row present key => once id done.2.1 row done.2.2 present stored key

theorem step_once {next : Grants} (once : OnePerKey grants) (fired : step grants call = some next) :
    OnePerKey next ↔ NoInstanceTwin grants call := by
  obtain ⟨context,call⟩ := call
  cases fired
  cases call with
  | upsertGrant => exact upsert_once once
  | grantContentForUserShare => exact ⟨fun _ => trivial,fun _ => share_once once⟩
  | revokeGrantById => exact ⟨fun _ => trivial,fun _ => revoke_once once⟩
  | revokeContentReadForUserShare => exact ⟨fun _ => trivial,fun _ => revokeShare_once once⟩

theorem step_decided (once : OnePerKey grants) (twinless : NoInstanceTwin grants call) : Decided grants call := by
  obtain ⟨context,call⟩ := call
  cases call with
  | upsertGrant => exact upsert_decided ((upsert_once once).mpr twinless)
  | grantContentForUserShare | revokeGrantById | revokeContentReadForUserShare => trivial

-- There is one row per key after every call, and each upsert decides its key, exactly
-- where no upsert on the instance finds a row of its own key.
theorem one_decision_per_key (start : Grants) (calls : List (Context × Call)) (once : OnePerKey start) :
    ((∀ left right reached, calls = left ++ right → Schedule.run step start left = some reached → OnePerKey reached) ∧
      Schedule.Along step Decided start calls) ↔ Schedule.Along step NoInstanceTwin start calls := by
  have total : ∃ final, Schedule.run step start calls = some final := by
    clear once
    induction calls generalizing start with
    | nil => exact ⟨start,rfl⟩
    | cons call rest ih => exact ih (perform call.1 start call.2)
  obtain ⟨final,ran⟩ := total
  have exact_ : (∀ left right reached, calls = left ++ right → Schedule.run step start left = some reached → OnePerKey reached) ↔
      Schedule.Along step NoInstanceTwin start calls :=
    Schedule.reached_iff_along (fun _ _ _ (_ : True) once fired => ⟨trivial,step_once once fired⟩) trivial once ran
  rw [exact_]
  refine ⟨And.left,fun twinless => ⟨twinless,?_⟩⟩
  exact Schedule.along_under (fun _ _ once twinless => step_decided once twinless)
    (fun _ _ _ once twinless fired => (step_once once fired).mpr twinless) once twinless

section Twins

def oneAdmin : Context :=
  ⟨(KeyMap.empty.set "ann" "admin").set "bob" "user",KeyMap.empty,[],[],⟨KeyMap.empty.set "docs" ⟨"ann",none,"docs",none⟩,KeyMap.empty⟩,0⟩

def onDocs (grantId effect : String) : Context × Call :=
  (oneAdmin,.upsertGrant "ann" grantId ⟨"user","bob","folder",some "docs","content.read",some effect,none⟩)

def onInstance (grantId effect : String) : Context × Call :=
  (oneAdmin,.upsertGrant "ann" grantId ⟨"user","bob","instance",none,"content.read",some effect,none⟩)

theorem empty_once : OnePerKey KeyMap.empty := by
  intro _ _ _ _ absent
  cases absent

theorem one_decision_per_key_folder : ∃ calls, calls = [onDocs "g1" "deny",
      (oneAdmin,.grantContentForUserShare "g2" "ann" "bob" "folder" "docs" "content.write"),onDocs "g3" "allow",
      (oneAdmin,.revokeContentReadForUserShare "bob" "folder" "docs")] ∧ Schedule.Along step NoInstanceTwin KeyMap.empty calls ∧
    Schedule.Along step Decided KeyMap.empty calls := by
  refine ⟨_,rfl,?_⟩
  have off : ∀ (grants : Grants) (grantId effect : String), NoInstanceTwin grants (onDocs grantId effect) := by
    intro grants grantId effect target checked wide
    obtain ⟨parsed,parse,rest⟩ := bind_ok.mp checked
    obtain ⟨_,_,rest⟩ := bind_ok.mp rest
    obtain ⟨_,valid,rest⟩ := bind_ok.mp rest
    cases rest
    rw [wide] at valid
    cases valid
  have twinless : Schedule.Along step NoInstanceTwin KeyMap.empty [onDocs "g1" "deny",
      (oneAdmin,.grantContentForUserShare "g2" "ann" "bob" "folder" "docs" "content.write"),onDocs "g3" "allow",
      (oneAdmin,.revokeContentReadForUserShare "bob" "folder" "docs")] :=
    ⟨off _ _ _,fun _ _ => ⟨trivial,fun _ _ => ⟨off _ _ _,fun _ _ => ⟨trivial,fun _ _ => trivial⟩⟩⟩⟩
  exact ⟨twinless,((one_decision_per_key KeyMap.empty _ empty_once).mpr twinless).2⟩

def onInstanceRow (effect : GrantEffect) : GrantRow :=
  ⟨.user "bob",.instanceWide,"content.read",effect,some "ann",0,none⟩

theorem instance_twins : (¬∀ (start : Grants) (calls : List (Context × Call)), OnePerKey start →
      (∀ left right reached, calls = left ++ right → Schedule.run step start left = some reached → OnePerKey reached) ∧
        Schedule.Along step Decided start calls) ∧
    ∃ alone both, Schedule.run step KeyMap.empty [onInstance "g2" "allow"] = some alone ∧
      authorize (oneAdmin.policy alone) oneAdmin.tree 1 "bob" .contentRead (.folder "docs") = .ok () ∧
      Schedule.run step KeyMap.empty [onInstance "g1" "deny",onInstance "g2" "allow"] = some both ∧
      authorize (oneAdmin.policy both) oneAdmin.tree 1 "bob" .contentRead (.folder "docs") ≠ .ok () := by
  refine ⟨fun all => ?_,_,_,rfl,by decide +kernel,rfl,by decide +kernel⟩
  obtain ⟨reached,ran,deny,allow⟩ : ∃ reached : Grants,
      Schedule.run step KeyMap.empty [onInstance "g1" "deny",onInstance "g2" "allow"] = some reached ∧
      reached.get "g1" = some (onInstanceRow .deny) ∧ reached.get "g2" = some (onInstanceRow .allow) :=
    ⟨_,rfl,by decide +kernel,by decide +kernel⟩
  have once := (all KeyMap.empty _ empty_once).1 _ [] reached rfl ran
  have same := once "g1" "g2" _ _ deny allow ⟨rfl,rfl,rfl⟩
  exact absurd same (by decide)

end Twins

end Ownly.Authz.GrantKeys
