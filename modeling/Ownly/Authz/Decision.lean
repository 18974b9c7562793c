import Ownly.Authz.Resolver

-- The rule deny, then allow, then owner, then legacy share, and what it makes of
-- permissions that imply one another.
namespace Ownly.Authz
open Folders (Tree FolderRow Forest activeFolder activeParent)

def Owns (tree : Tree) (userId : String) : ResourceRef → Prop
  | .instanceWide => False
  | .folder folderId => ∃ row, tree.folders.get folderId = some row ∧ row.Active ∧ row.userId = userId
  | .file fileId => ∃ row, tree.files.get fileId = some row ∧ row.Active ∧ row.userId = userId

def SharedWith (policy : Policy) (userId : String) (resource : ResourceRef) : Prop :=
  resource ≠ .instanceWide ∧ (userId,resource) ∈ policy.shares

def Refused (granted : GrantEffect → Prop) (policy : Policy) (tree : Tree) (userId : String) (permission : Permission)
    (resource : ResourceRef) : Prop :=
  granted .deny ∨ ¬granted .allow ∧ ¬Owns tree userId resource ∧ ¬(permission = .contentRead ∧ SharedWith policy userId resource)

-- Grants on all folders above count.
def GrantedAnywhere (policy : Policy) (tree : Tree) (now : Int) (userId : String) (effect : GrantEffect)
    (permission : Permission) (resource : ResourceRef) : Prop :=
  ∃ n, Granted policy tree n now userId effect permission resource

def Shallow (tree : Tree) (resource : ResourceRef) : Prop :=
  ∀ n folderId, Within tree n resource folderId → Within tree maxDepth resource folderId

section Rule
variable {policy : Policy} {tree : Tree} {now : Int} {userId : String} {permission weaker stronger : Permission}
  {resource : ResourceRef} {effect : GrantEffect} {n : Nat}

theorem isResourceOwner_iff : isResourceOwner tree userId resource = true ↔ Owns tree userId resource := by
  cases resource with
  | instanceWide => simp [isResourceOwner,Owns]
  | folder folderId => simp [isResourceOwner,Owns,folderOwner,Option.filter_eq_some_iff,and_assoc]
  | file fileId => simp [isResourceOwner,Owns,fileOwnerAndFolder,Option.any_eq_true,Option.filter_eq_some_iff,and_assoc]

theorem legacyShare_iff : hasLegacyUserShareRead policy userId resource = true ↔ SharedWith policy userId resource := by
  cases resource <;> simp [hasLegacyUserShareRead,SharedWith]

theorem fallback_iff : Fallback policy tree userId permission resource ↔
    Owns tree userId resource ∨ permission = .contentRead ∧ SharedWith policy userId resource := by
  unfold Fallback
  rw [isResourceOwner_iff,legacyShare_iff]

theorem refused_iff : authorize policy tree now userId permission resource = .error refusal ↔
    Refused (Granted policy tree maxDepth now userId · permission resource) policy tree userId permission resource := by
  unfold Refused
  rw [authorize_refused,fallback_iff,not_or,not_or]

theorem shallow_granted (shallow : Shallow tree resource) : GrantedAnywhere policy tree now userId effect permission resource ↔
    Granted policy tree maxDepth now userId effect permission resource := by
  constructor
  · rintro ⟨n,grant,holds,bears,speaks⟩
    refine ⟨grant,holds,?_,speaks⟩
    rcases bears with whole | itself | ⟨folderId,on,within⟩
    · exact .inl whole
    · exact .inr (.inl itself)
    · exact .inr (.inr ⟨folderId,on,shallow n folderId within⟩)
  · exact fun granted => ⟨maxDepth,granted⟩

-- What is refused by grants on the nearest folders; where there are no further ones,
-- the rule holds of the whole way up.
theorem authorize_rule (policy : Policy) (tree : Tree) (now : Int) (userId : String) (permission : Permission) (resource : ResourceRef) :
    (authorize policy tree now userId permission resource = .error refusal ↔
      Refused (Granted policy tree maxDepth now userId · permission resource) policy tree userId permission resource) ∧
    (Shallow tree resource → (authorize policy tree now userId permission resource = .error refusal ↔
      Refused (GrantedAnywhere policy tree now userId · permission resource) policy tree userId permission resource)) := by
  refine ⟨refused_iff,?_⟩
  intro shallow
  rw [refused_iff]
  simp only [Refused,shallow_granted shallow]

-- Whoever has the stronger permission has the weaker one, unless a grant denies just that.
theorem authorize_weaker (implied : Permission.satisfies weaker stronger = true)
    (allowed : authorize policy tree now userId stronger resource = .ok ()) :
    authorize policy tree now userId weaker resource = .ok () ↔
      ¬Granted policy tree maxDepth now userId .deny weaker resource := by
  rw [authorize_ok]
  refine and_iff_left_of_imp ?_
  intro _
  rcases (authorize_ok.mp allowed).2 with ⟨grant,holds,bears,speaks⟩ | owner | ⟨reads,shared⟩
  · exact .inl ⟨grant,holds,bears,speaks_weaker implied speaks⟩
  · exact .inr (.inl owner)
  · subst reads
    exact .inr (.inr ⟨Permission.satisfies_by_read.mp implied,shared⟩)

-- Neither more grants that deny nor fewer that allow open anything.
theorem authorize_tightened {grants : KeyMap String GrantRow}
    (denies : ∀ id grant, policy.grants.get id = some grant → grant.effect = .deny → ∃ id, grants.get id = some grant)
    (allows : ∀ id grant, grants.get id = some grant → grant.effect = .allow → ∃ id, policy.grants.get id = some grant)
    (allowed : authorize {policy with grants := grants} tree now userId permission resource = .ok ()) :
    authorize policy tree now userId permission resource = .ok () := by
  obtain ⟨undenied,allowed⟩ := authorize_ok.mp allowed
  refine authorize_ok.mpr ⟨?_,allowed.imp_left ?_⟩
  · rintro ⟨grant,⟨⟨id,found⟩,holds⟩,bears,denied⟩
    exact undenied ⟨grant,⟨denies id grant found denied.1,holds⟩,bears,denied⟩
  · rintro ⟨grant,⟨⟨id,found⟩,holds⟩,bears,speaks⟩
    exact ⟨grant,⟨allows id grant found speaks.1,holds⟩,bears,speaks⟩

end Rule

section Deep

-- One character for each of the folders, "0" for the first.
def folderName (k : Nat) : String := String.singleton (Char.ofNat (k + 48))

def nested (depth : Nat) : KeyMap String FolderRow :=
  (List.range depth).foldr (fun k folders => folders.set (folderName k)
    ⟨"ann",if k + 1 < depth then some (folderName (k + 1)) else none,"sub",none⟩) KeyMap.empty

def readGrant (folderId : String) (effect : GrantEffect) (permission : Permission) : GrantRow :=
  ⟨.user "bob",.folder folderId,permission.asStr,effect,some "ann",0,none⟩

def deepTree : Tree := ⟨nested 65,KeyMap.empty⟩

def deepPolicy : Policy :=
  ⟨KeyMap.empty,KeyMap.empty,[],[],
    (KeyMap.empty.set "g1" (readGrant (folderName 0) .allow .contentRead)).set "g2" (readGrant (folderName 64) .deny .contentRead)⟩

def nameRank (id : String) : Nat := 200 - (id.toList.headD '0').toNat

theorem deep_forest : Forest deepTree.folders := by
  have falls : ∀ entry ∈ deepTree.folders.entries, ∀ above ∈ entry.2.parentId.toList, nameRank above < nameRank entry.1 := by
    decide +kernel
  exact Folders.forest_of_rank falls

theorem authorize_rule_fails_deep : Forest deepTree.folders ∧ (∀ id row, deepTree.folders.get id = some row → row.Active) ∧
    authorize deepPolicy deepTree 0 "bob" .contentRead (.folder "0") = .ok () ∧
    Refused (GrantedAnywhere deepPolicy deepTree 0 "bob" · .contentRead (.folder "0")) deepPolicy deepTree "bob" .contentRead
      (.folder "0") := by
  have active : ∀ entry ∈ deepTree.folders.entries, entry.2.Active := by decide +kernel
  refine ⟨deep_forest,?_,by decide +kernel,.inl ⟨65,readGrant (folderName 64) .deny .contentRead,?_,?_,rfl,by decide +kernel⟩⟩
  · intro id row present
    exact active _ (KeyMap.get_eq_some.mp present)
  · exact ⟨⟨"g2",by decide +kernel⟩,by decide +kernel,.inl rfl⟩
  · exact .inr (.inr ⟨folderName 64,rfl,"0",64,rfl,by decide,by decide +kernel,by decide +kernel⟩)

def oneFolder : Tree := ⟨nested 1,KeyMap.empty⟩

def writersPolicy : Policy :=
  ⟨KeyMap.empty,KeyMap.empty,[],[],KeyMap.empty.set "g1" (readGrant "0" .allow .contentWrite)⟩

theorem authorize_weaker_write : authorize writersPolicy oneFolder 0 "bob" .contentRead (.folder "0") = .ok () ↔
    ¬Granted writersPolicy oneFolder maxDepth 0 "bob" .deny .contentRead (.folder "0") := by
  have implied : Permission.satisfies .contentRead .contentWrite = true := by decide
  exact authorize_weaker implied (by decide +kernel)

def blindPolicy : Policy := {writersPolicy with grants := writersPolicy.grants.set "g2" (readGrant "0" .deny .contentRead)}

theorem authorize_not_closed : Permission.satisfies .contentRead .contentWrite = true ∧
    authorize blindPolicy oneFolder 0 "bob" .contentWrite (.folder "0") = .ok () ∧
    ¬authorize blindPolicy oneFolder 0 "bob" .contentRead (.folder "0") = .ok () := by
  decide +kernel

theorem authorize_tightened_owner : authorize writersPolicy oneFolder 0 "ann" .contentRead (.folder "0") = .ok () := by
  have bare : authorize {writersPolicy with grants := KeyMap.empty} oneFolder 0 "ann" .contentRead (.folder "0") = .ok () := by
    decide +kernel
  refine authorize_tightened (fun id grant found denied => ?_) (fun _ _ found => by cases found) bare
  simp only [writersPolicy,KeyMap.get_set] at found
  split at found <;> cases found
  cases denied

end Deep

end Ownly.Authz
