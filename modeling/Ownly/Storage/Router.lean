import Ownly.Storage.Placement

-- backend/src/storage/router.rs: PUT, GET, HEAD and DELETE through the placement tables.
namespace Ownly.Storage

structure Object where
  contentType : String
  bytes : Bytes
  deriving DecidableEq, Repr

structure Store where
  tables : Tables
  objects : KeyMap (String × Key) Object

-- The nodes while one call runs: the probed snapshots, the enabled rows of the registry,
-- and which nodes answer.
structure Network where
  snapshots : List NodeSnapshot
  registered : String → Bool
  up : String → Bool

inductive Failure where
  | plan (error : AppError)
  | unregistered (nodeId : String)
  | down (nodeId : String)
  | missing (nodeId : String) (key : Key)
  deriving DecidableEq, Repr

def clientForNodeId (net : Network) (nodeId : String) : Except Failure Unit :=
  if nodeId = nodePrimary ∨ net.registered nodeId = true then .ok () else .error (.unregistered nodeId)

def clientPut (net : Network) (nodeId : String) (key : Key) (object : Object) (store : Store) : Store × Except Failure Unit :=
  if net.up nodeId then ({store with objects := store.objects.set (nodeId,key) object},.ok ())
  else (store,.error (.down nodeId))

def clientGet (net : Network) (nodeId : String) (key : Key) (store : Store) : Except Failure Object :=
  if net.up nodeId then
    match store.objects.get (nodeId,key) with
    | some object => .ok object
    | none => .error (.missing nodeId key)
  else .error (.down nodeId)

def clientExists (net : Network) (nodeId : String) (key : Key) (store : Store) : Except Failure Bool :=
  if net.up nodeId then .ok (store.objects.contains (nodeId,key)) else .error (.down nodeId)

def clientDelete (net : Network) (nodeId : String) (key : Key) (store : Store) : Store × Except Failure Unit :=
  if net.up nodeId then ({store with objects := store.objects.remove (nodeId,key)},.ok ())
  else (store,.error (.down nodeId))

-- `?` after a call that has written.
def chain (first : Store × Except Failure Unit) (next : Store → Store × Except Failure Unit) : Store × Except Failure Unit :=
  match first with
  | (store,.ok ()) => next store
  | (store,.error e) => (store,.error e)

def nodePut (net : Network) (nodeId : String) (key : Key) (object : Object) (store : Store) : Store × Except Failure Unit :=
  chain (store,clientForNodeId net nodeId) (clientPut net nodeId key object)

def nodeDelete (net : Network) (nodeId : String) (key : Key) (store : Store) : Store × Except Failure Unit :=
  chain (store,clientForNodeId net nodeId) (clientDelete net nodeId key)

-- resolve_client: the node of a key, or the primary one.
def home (tables : Tables) (key : Key) : String := (resolveNodeForKey tables key).getD nodePrimary

def persist (key : Key) (plan : UploadPlacementPlan) (store : Store) : Store × Except Failure Unit :=
  ({store with tables := persistPlacement store.tables key plan},.ok ())

def isDerivedSidecarKey (key : Key) : Bool := isDerivedStorageKey key (baseKey key)

def putParts (net : Network) (contentType : String) (data : Bytes) : Nat → List StripePartPlan → Store → Store × Except Failure Unit
  | _,[],store => (store,.ok ())
  | offset,part :: rest,store =>
    chain (nodePut net part.nodeId part.objectKey ⟨contentType,(data.drop offset).take part.byteLength.toNat⟩ store)
      (putParts net contentType data (offset + part.byteLength.toNat) rest)

-- `retrying on node-primary`
def orPrimary (net : Network) (nodeId : String) (key : Key) (object : Object) :
    Store × Except Failure Unit → Store × Except Failure Unit
  | (store,.ok ()) => (store,.ok ())
  | (store,.error e) => if nodeId ≠ nodePrimary then clientPut net nodePrimary key object store else (store,.error e)

def putReserved (net : Network) (nodeId : String) (key : Key) (object : Object) (store : Store) : Store × Except Failure Unit :=
  chain (store,clientForNodeId net nodeId)
    (fun store => orPrimary net nodeId key object (clientPut net nodeId key object store))

def putPlanned (net : Network) (key : Key) (object : Object) (store : Store) : Store × Except Failure Unit :=
  if net.snapshots = [] then clientPut net nodePrimary key object store
  else match planUpload net.snapshots (baseKey key) object.bytes.length with
    | .error e => (store,.error (.plan e))
    | .ok (.single nodeId objectKey) =>
      chain (nodePut net nodeId key object store) (persist (baseKey key) (.single nodeId objectKey))
    | .ok (.striped primary parts) =>
      chain (putParts net object.contentType object.bytes 0 parts store) (persist (baseKey key) (.striped primary parts))

def putRouted (net : Network) (key : Key) (object : Object) (store : Store) : Store × Except Failure Unit :=
  if isDerivedSidecarKey key then
    match resolveNodeForKey store.tables key with
    | some nodeId => putReserved net nodeId key object store
    | none => putPlanned net key object store
  else putPlanned net key object store

-- The stream has the length it is announced with. A striped plan is put by put_routed,
-- which looks at the snapshots again.
def putStreamPlanned (net : Network) (again : List NodeSnapshot) (key : Key) (object : Object) (store : Store) :
    Store × Except Failure Unit :=
  if net.snapshots = [] then clientPut net nodePrimary key object store
  else match planUpload net.snapshots (baseKey key) object.bytes.length with
    | .error e => (store,.error (.plan e))
    | .ok (.single nodeId objectKey) =>
      chain (nodePut net nodeId key object store) (persist (baseKey key) (.single nodeId objectKey))
    | .ok (.striped primary parts) =>
      chain (putRouted {net with snapshots := again} key object store) (persist (baseKey key) (.striped primary parts))

def putStream (net : Network) (again : List NodeSnapshot) (key : Key) (object : Object) (store : Store) :
    Store × Except Failure Unit :=
  if isDerivedSidecarKey key then
    match resolveNodeForKey store.tables key with
    | some nodeId => nodePut net nodeId key object store
    | none => putStreamPlanned net again key object store
  else putStreamPlanned net again key object store

def nodeGet (net : Network) (nodeId : String) (key : Key) (store : Store) : Except Failure Object :=
  match clientForNodeId net nodeId with
  | .ok () => clientGet net nodeId key store
  | .error e => .error e

def octetStream : String := "application/octet-stream"

-- The parts one after the other, under the first content type that says anything.
def getParts (net : Network) (store : Store) : Object → List StripePartRow → Except Failure Object
  | read,[] => .ok read
  | read,part :: rest =>
    match nodeGet net part.storageNodeId part.objectKey store with
    | .error e => .error e
    | .ok object => getParts net store
        ⟨if read.contentType = octetStream then object.contentType else read.contentType,read.bytes ++ object.bytes⟩ rest

def stripePartsForKey (store : Store) (key : Key) : List StripePartRow := loadStripeParts store.tables (baseKey key)

def getStream (net : Network) (key : Key) (store : Store) : Except Failure Object :=
  if isDerivedSidecarKey key ∨ stripePartsForKey store key = [] then nodeGet net (home store.tables key) key store
  else getParts net store ⟨octetStream,[]⟩ (stripePartsForKey store key)

def nodeExists (net : Network) (nodeId : String) (key : Key) (store : Store) : Except Failure Bool :=
  match clientForNodeId net nodeId with
  | .ok () => clientExists net nodeId key store
  | .error e => .error e

def existsParts (net : Network) (store : Store) : List StripePartRow → Except Failure Bool
  | [] => .ok true
  | part :: rest =>
    match nodeExists net part.storageNodeId part.objectKey store with
    | .ok true => existsParts net store rest
    | answer => answer

def keyExists (net : Network) (key : Key) (store : Store) : Except Failure Bool :=
  if isDerivedSidecarKey key ∨ stripePartsForKey store key = [] then nodeExists net (home store.tables key) key store
  else existsParts net store (stripePartsForKey store key)

def deleteParts (net : Network) : List StripePartRow → Store → Store × Except Failure Unit
  | [],store => (store,.ok ())
  | part :: rest,store => chain (nodeDelete net part.storageNodeId part.objectKey store) (deleteParts net rest)

def forgetPlacement (key : Key) (store : Store) : Store × Except Failure Unit :=
  ({store with tables := {store.tables with
      parts := store.tables.parts.remove key
      placements := store.tables.placements.remove key}},.ok ())

def delete (net : Network) (key : Key) (store : Store) : Store × Except Failure Unit :=
  if isDerivedSidecarKey key ∨ stripePartsForKey store key = [] then nodeDelete net (home store.tables key) key store
  else chain (deleteParts net (stripePartsForKey store key) store) (forgetPlacement (baseKey key))

end Ownly.Storage
