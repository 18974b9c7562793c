import Ownly.Lib.KeyMap
import Ownly.Lib.MachineInt

namespace Ownly.Collab

-- A string is the list of its unicode scalars, which is what `chars()` and the
-- spread `[...text]` count.
abbrev Text := List Char

inductive Number where
  | posInt (n : UInt64)
  | negInt (n : Int64)
  | float (bits : UInt64)
  deriving DecidableEq, Repr

inductive Value where
  | null
  | bool (b : Bool)
  | number (n : Number)
  | string (s : Text)
  | array (items : List Value)
  | object (fields : List (String × Value))

abbrev Fields := List (String × Value)

namespace Fields

def get (fields : Fields) (key : String) : Option Value :=
  (fields.find? (fun field => field.1 = key)).map Prod.snd

def remove (fields : Fields) (key : String) : Fields := fields.filter (fun field => field.1 ≠ key)

def set (fields : Fields) (key : String) (value : Value) : Fields := (key,value) :: fields.remove key

@[simp] theorem get_nil (key : String) : get [] key = none := rfl

@[simp] theorem get_set_self (fields : Fields) (key : String) (value : Value) :
    (fields.set key value).get key = some value := by simp [set,get]

theorem get_remove_ne (fields : Fields) (ne : key' ≠ key) : (fields.remove key).get key' = fields.get key' := by
  simp only [get,remove,List.find?_filter]
  congr 2
  funext field
  by_cases same : field.1 = key' <;> simp [same,ne]

@[simp] theorem get_remove_self (fields : Fields) (key : String) : (fields.remove key).get key = none := by
  simp [get,remove]

theorem get_set_ne (fields : Fields) (value : Value) (ne : key' ≠ key) :
    (fields.set key value).get key' = fields.get key' := by
  rw [← get_remove_ne fields ne]
  simp [set,get,ne.symm]

end Fields

namespace Value

def get (value : Value) (key : String) : Option Value :=
  match value with
  | .object fields => Fields.get fields key
  | _ => none

def asU64 : Value → Option UInt64
  | .number (.posInt n) => some n
  | _ => none

def asStr : Value → Option Text
  | .string s => some s
  | _ => none

def asObject : Value → Option Fields
  | .object fields => some fields
  | _ => none

def ofU64 (n : UInt64) : Value := .number (.posInt n)

@[simp] theorem asU64_ofU64 (n : UInt64) : (ofU64 n).asU64 = some n := rfl
@[simp] theorem asU64_null : Value.null.asU64 = none := rfl
@[simp] theorem asStr_string (s : Text) : (Value.string s).asStr = some s := rfl
@[simp] theorem get_object (fields : Fields) (key : String) : (Value.object fields).get key = fields.get key := rfl

end Value

def defaultMaxOps : Nat := 1024
def sessionIdleTtlSecs : Nat := 3600
def participantTtlSecs : Nat := 90

inductive RoomKind where
  | document
  | spreadsheet
  deriving DecidableEq, Repr

-- `op_type` as the two domains tell its strings apart.
inductive OpType where
  | replace | formatCommit | lock | unlock
  | cellEdit | stylePatch | clearContents | comment | hyperlink | merge | unmerge
  | insertRow | deleteRow | insertColumn | deleteColumn
  | sheetAdd | sheetRemove | sheetRename | sheetMove | stateCommit
  | other (name : String)
  deriving DecidableEq, Repr

def OpType.asStr : OpType → String
  | .replace => "replace"
  | .formatCommit => "format_commit"
  | .lock => "lock"
  | .unlock => "unlock"
  | .cellEdit => "cell_edit"
  | .stylePatch => "style_patch"
  | .clearContents => "clear_contents"
  | .comment => "comment"
  | .hyperlink => "hyperlink"
  | .merge => "merge"
  | .unmerge => "unmerge"
  | .insertRow => "insert_row"
  | .deleteRow => "delete_row"
  | .insertColumn => "insert_column"
  | .deleteColumn => "delete_column"
  | .sheetAdd => "sheet_add"
  | .sheetRemove => "sheet_remove"
  | .sheetRename => "sheet_rename"
  | .sheetMove => "sheet_move"
  | .stateCommit => "state_commit"
  | .other name => name

-- Presence is always a JSON object: the defaults build one and heartbeats merge
-- into it, so only its fields are kept.
structure Participant where
  userId : String
  displayName : String
  color : String
  lastSeen : Nat
  presence : Fields

structure OpEnvelope where
  id : String
  seq : Nat
  userId : String
  ts : Nat
  baseSeq : Nat
  opType : OpType
  payload : Value
  clientOpId : Option String

structure DomainSnapshot where
  snapshotSeq : Nat
  data : Fields

abbrev Participants := KeyMap String Participant

-- Counters and clock readings are natural numbers: none of them wraps in 2^64
-- commits or seconds. Positions inside texts keep their machine width.
structure CollabSession where
  id : String
  roomKind : RoomKind
  fileId : String
  createdAt : Nat
  lastActiveAt : Nat
  participants : Participants
  ops : List OpEnvelope
  nextSeq : Nat
  snapshot : DomainSnapshot
  version : Nat

def CollabSession.latestSeq (session : CollabSession) : Nat := session.nextSeq - 1

def CollabSession.opsAfter (session : CollabSession) (afterSeq : Nat) : List OpEnvelope :=
  session.ops.filter (fun op => afterSeq < op.seq)

inductive CollabError where
  | notFound
  | notParticipant
  | locked
  | textMismatch
  | invalidOp (message : String)
  | syncRequired
  | conflict (message : String)
  | storage (message : String)
  deriving DecidableEq, Repr

def colors : List String :=
  ["#2563EB","#DC2626","#059669","#D97706","#7C3AED","#DB2777","#0891B2"]

def participantColor (userId : String) : String :=
  let hash := userId.toUTF8.toList.foldl (fun (acc : UInt64) b => (acc + b.toUInt64) * 31) 0
  colors.getD (hash.toNat % colors.length) ""

end Ownly.Collab
