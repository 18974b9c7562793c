import Ownly.AppError
import Ownly.Lib.Text

-- authz/catalog.rs: the permissions, their names, and which of them imply which.
namespace Ownly.Authz

inductive Permission where
  | instanceAdmin
  | instanceSettingsRead
  | instanceSettingsManage
  | instanceUsersRead
  | instanceUsersManage
  | instanceGroupsRead
  | instanceGroupsManage
  | instancePermissionsManage
  | instanceAuditRead
  | contentRead
  | contentWrite
  | contentDelete
  | contentShare
  | contentManageAcl
  deriving DecidableEq, Repr

namespace Permission

def asStr : Permission → String
  | .instanceAdmin => "instance.admin"
  | .instanceSettingsRead => "instance.settings.read"
  | .instanceSettingsManage => "instance.settings.manage"
  | .instanceUsersRead => "instance.users.read"
  | .instanceUsersManage => "instance.users.manage"
  | .instanceGroupsRead => "instance.groups.read"
  | .instanceGroupsManage => "instance.groups.manage"
  | .instancePermissionsManage => "instance.permissions.manage"
  | .instanceAuditRead => "instance.audit.read"
  | .contentRead => "content.read"
  | .contentWrite => "content.write"
  | .contentDelete => "content.delete"
  | .contentShare => "content.share"
  | .contentManageAcl => "content.manage_acl"

def parse (value : String) : Except AppError Permission :=
  match String.ofList (Text.trim value.toList) with
  | "instance.admin" => .ok .instanceAdmin
  | "instance.settings.read" => .ok .instanceSettingsRead
  | "instance.settings.manage" => .ok .instanceSettingsManage
  | "instance.users.read" => .ok .instanceUsersRead
  | "instance.users.manage" => .ok .instanceUsersManage
  | "instance.groups.read" => .ok .instanceGroupsRead
  | "instance.groups.manage" => .ok .instanceGroupsManage
  | "instance.permissions.manage" => .ok .instancePermissionsManage
  | "instance.audit.read" => .ok .instanceAuditRead
  | "content.read" => .ok .contentRead
  | "content.write" => .ok .contentWrite
  | "content.delete" => .ok .contentDelete
  | "content.share" => .ok .contentShare
  | "content.manage_acl" => .ok .contentManageAcl
  | other => .error (.badRequest ("unknown permission: " ++ other))

def allInstance : List Permission :=
  [.instanceAdmin,.instanceSettingsRead,.instanceSettingsManage,.instanceUsersRead,.instanceUsersManage,
    .instanceGroupsRead,.instanceGroupsManage,.instancePermissionsManage,.instanceAuditRead]

def satisfies (required granted : Permission) : Bool :=
  if required = granted then true
  else match required with
    | .instanceAdmin => granted == .instanceAdmin
    | .instanceSettingsRead => granted ∈ [.instanceAdmin,.instanceSettingsRead,.instanceSettingsManage]
    | .instanceSettingsManage => granted ∈ [.instanceAdmin,.instanceSettingsManage]
    | .instanceUsersRead => granted ∈ [.instanceAdmin,.instanceUsersRead,.instanceUsersManage]
    | .instanceUsersManage => granted ∈ [.instanceAdmin,.instanceUsersManage]
    | .instanceGroupsRead => granted ∈ [.instanceAdmin,.instanceGroupsRead,.instanceGroupsManage]
    | .instanceGroupsManage => granted ∈ [.instanceAdmin,.instanceGroupsManage]
    | .instancePermissionsManage => granted ∈ [.instanceAdmin,.instancePermissionsManage]
    | .instanceAuditRead => granted ∈ [.instanceAdmin,.instanceAuditRead]
    | .contentRead => granted ∈ [.contentWrite,.contentDelete,.contentShare,.contentManageAcl]
    | .contentWrite => granted ∈ [.contentManageAcl]
    | .contentShare => granted ∈ [.contentManageAcl]
    | .contentDelete | .contentManageAcl => false

def contentAssignable : List Permission := [.contentRead,.contentWrite,.contentDelete,.contentShare,.contentManageAcl]

theorem catalog (permission : Permission) : permission ∈ allInstance ++ contentAssignable := by
  cases permission <;> decide

theorem satisfies_trans {weak middle strong : Permission} (lower : satisfies weak middle = true)
    (upper : satisfies middle strong = true) : satisfies weak strong = true := by
  have table : ∀ weak ∈ allInstance ++ contentAssignable, ∀ middle ∈ allInstance ++ contentAssignable,
      ∀ strong ∈ allInstance ++ contentAssignable,
      satisfies weak middle = true → satisfies middle strong = true → satisfies weak strong = true := by decide +kernel
  exact table weak (catalog weak) middle (catalog middle) strong (catalog strong) lower upper

theorem satisfies_by_read {required : Permission} : satisfies required .contentRead = true ↔ required = .contentRead := by
  cases required <;> decide

end Permission

end Ownly.Authz
