import Ownly.AppError
import Ownly.Lib.Digits
import Ownly.Lib.KeyMap
import Mathlib.Algebra.Group.Int.Defs
import Mathlib.Algebra.Group.Nat.Defs

-- backend/src/storage/placement.rs: which nodes a blob is planned for, and where the
-- tables say it is.
namespace Ownly.Storage

-- A storage key, split at its slashes.
abbrev Key := List String

abbrev Bytes := List UInt8

def i64Max : Int := 2^63 - 1

-- `size_bytes as i64`
def asI64 (n : Nat) : Int := (n : Int).bmod (2^64)

structure NodeSnapshot where
  id : String
  targetCapacityBytes : Option Int
  usedBytes : Int
  deriving DecidableEq, Repr

structure StripePartPlan where
  nodeId : String
  objectKey : Key
  byteOffset : Int
  byteLength : Int
  deriving DecidableEq, Repr

inductive UploadPlacementPlan where
  | single (nodeId : String) (objectKey : Key)
  | striped (primaryNodeId : String) (parts : List StripePartPlan)
  deriving DecidableEq, Repr

def baseFileStorageKey : Key → Option Key
  | a :: u :: b :: f :: _ => if a = "users" ∧ b = "files" then some [a,u,b,f] else none
  | _ => none

-- `base_file_storage_key(key).unwrap_or_else(|| key.to_string())`
def baseKey (key : Key) : Key := (baseFileStorageKey key).getD key

-- `key != base_key && key.starts_with(base_key + "/")`
def isDerivedStorageKey (key base : Key) : Bool := decide (key ≠ base ∧ base <+: key)

def fileIdFromStorageKey : Key → Option String
  | a :: _ :: b :: f :: _ => if a = "users" ∧ b = "files" then some f else none
  | _ => none

def remainingBytes (node : NodeSnapshot) : Int :=
  match node.targetCapacityBytes with
  | some cap => if 0 < cap then max (cap - node.usedBytes) 0 else i64Max
  | none => i64Max

def capped (node : NodeSnapshot) : Bool := node.targetCapacityBytes.any (fun cap => decide (0 < cap))

def saturatingAdd (a b : Int) : Int := max (-2^63) (min (a + b) i64Max)

-- One turn of the loop of aggregate_network_remaining_bytes.
def addRemaining (sum : Int × Bool) (node : NodeSnapshot) : Int × Bool :=
  if capped node then (if remainingBytes node < i64Max then saturatingAdd sum.1 (remainingBytes node) else sum.1,true) else sum

def aggregateNetworkRemainingBytes (nodes : List NodeSnapshot) : Option Int :=
  if nodes = [] then none
  else
    let (total,anyCapped) := nodes.foldl addRemaining (0,false)
    if anyCapped then some total else none

def partKey (key : Key) (index : Nat) : Key := key ++ ["parts",String.ofList (Digits.padded 4 index)]

-- The second loop of plan_upload, and the bytes it has found no room for.
def stripe (key : Key) (index : Nat) (offset remaining : Int) : List NodeSnapshot → List StripePartPlan × Int
  | [] => ([],remaining)
  | node :: rest =>
    if remaining ≤ 0 then ([],remaining)
    else if remainingBytes node ≤ 0 then stripe key index offset remaining rest
    else
      let take := min (remainingBytes node) remaining
      let (parts,left) := stripe key (index + 1) (offset + take) (remaining - take) rest
      (⟨node.id,partKey key index,offset,take⟩ :: parts,left)

def planUpload (nodes : List NodeSnapshot) (key : Key) (sizeBytes : Nat) : Except AppError UploadPlacementPlan :=
  if nodes = [] then .error (.storage "no storage nodes are registered for placement")
  else if asI64 sizeBytes = 0 then .error (.badRequest "empty upload")
  else match nodes.find? (fun node => decide (asI64 sizeBytes ≤ remainingBytes node)) with
    | some node => .ok (.single node.id key)
    | none =>
      let (parts,left) := stripe key 0 0 (asI64 sizeBytes) nodes
      if 0 < left then .error (.storage "no storage node has sufficient aggregate capacity for this upload")
      else match parts with
        | [] => .error (.storage "could not assign a storage node for upload")
        | part :: _ => .ok (.striped part.nodeId parts)

def nodePrimary : String := "node-primary"

structure StripePartRow where
  storageNodeId : String
  objectKey : Key
  byteOffset : Int
  byteLength : Int
  deriving DecidableEq, Repr

-- `files.storage_node_id` by file id, `file_storage_parts` by key and in the order of
-- part_index, `storage_blob_placements` by key.
structure Tables where
  files : KeyMap String (Option String)
  parts : KeyMap Key (List StripePartRow)
  placements : KeyMap Key String

def loadStripeParts (tables : Tables) (key : Key) : List StripePartRow := (tables.parts.get key).getD []

def StripePartPlan.row (part : StripePartPlan) : StripePartRow :=
  ⟨part.nodeId,part.objectKey,part.byteOffset,part.byteLength⟩

-- Rows from part_index 0 on, each `ON CONFLICT DO UPDATE`: those past the new ones stay.
def upsertParts (parts : List StripePartPlan) (rows : List StripePartRow) : List StripePartRow :=
  parts.map StripePartPlan.row ++ rows.drop parts.length

def persistPlacement (tables : Tables) (key : Key) : UploadPlacementPlan → Tables
  | .single nodeId _ => {tables with placements := tables.placements.set key nodeId}
  | .striped primaryNodeId parts => {tables with
      placements := tables.placements.set key primaryNodeId
      parts := tables.parts.set key (upsertParts parts (loadStripeParts tables key))}

-- The node that the files row names.
def fileNode (tables : Tables) (key : Key) : Option String :=
  (fileIdFromStorageKey (baseKey key)).bind (fun fileId => (tables.files.get fileId).join)

def resolveNodeForKey (tables : Tables) (key : Key) : Option String :=
  fileNode tables key
    <|> (loadStripeParts tables (baseKey key)).head?.map StripePartRow.storageNodeId
    <|> tables.placements.get (baseKey key)

end Ownly.Storage
