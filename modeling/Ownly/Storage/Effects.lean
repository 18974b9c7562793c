import Ownly.Storage.Router

-- What each call of the router does to the tables and the objects of one file, and to
-- nothing else.
namespace Ownly.Storage
open List KeyMap

-- users/<u>/files/<id>
def canonical : Key → Bool
  | [a,_,b,_] => decide (a = "users" ∧ b = "files")
  | _ => false

def Piece (key objectKey : Key) : Prop := objectKey = key ∨ ∃ index, objectKey = partKey (baseKey key) index

def everyNode : Network := ⟨[],fun _ => true,fun _ => true⟩

def answers (net : Network) (nodeId : String) : Prop :=
  (nodeId = nodePrimary ∨ net.registered nodeId = true) ∧ net.up nodeId = true

-- The plan a PUT makes; none where no snapshot is there and the primary node takes it.
def planFor (snapshots : List NodeSnapshot) (key : Key) (object : Object) : Except AppError (Option UploadPlacementPlan) :=
  if snapshots = [] then .ok none else (planUpload snapshots key object.bytes.length).map some

def places (store : Store) (key : Key) : List (String × Key) :=
  if loadStripeParts store.tables key = [] then [(home store.tables key,key)]
  else (loadStripeParts store.tables key).map (fun row => (row.storageNodeId,row.objectKey))

section keys
variable {key other objectKey : Key} {i j : Nat}

theorem canonical_exact : canonical key = true ↔ ∃ u f, key = ["users",u,"files",f] := by
  constructor
  · intro holds
    unfold canonical at holds
    split at holds
    · obtain ⟨rfl,rfl⟩ := of_decide_eq_true holds
      exact ⟨_,_,rfl⟩
    · cases holds
  · rintro ⟨u,f,rfl⟩
    rfl

theorem baseKey_canonical (holds : canonical key = true) : baseKey key = key := by
  obtain ⟨u,f,rfl⟩ := canonical_exact.mp holds
  rfl

theorem canonical_underived (holds : canonical key = true) : isDerivedSidecarKey key = false := by
  rw [isDerivedSidecarKey,baseKey_canonical holds]
  exact decide_eq_false (fun both => both.1 rfl)

theorem partKey_inj (same : partKey key i = partKey key j) : i = j := by
  have tail := append_cancel_left same
  obtain ⟨_,rest⟩ := List.cons.inj tail
  obtain ⟨digits,_⟩ := List.cons.inj rest
  exact Digits.padded_inj (String.ofList_injective digits)

theorem piece_apart (holds : canonical key = true) (holds' : canonical other = true) (piece : Piece key objectKey)
    (piece' : Piece other objectKey) : key = other := by
  obtain ⟨u,f,rfl⟩ := canonical_exact.mp holds
  obtain ⟨w,g,rfl⟩ := canonical_exact.mp holds'
  rcases piece with rfl | ⟨i,rfl⟩
  · rcases piece' with same | ⟨j,same⟩
    · exact same
    · cases same
  · rcases piece' with same | ⟨j,same⟩
    · cases same
    · have heads : List.take 4 (partKey (baseKey ["users",u,"files",f]) i) =
          List.take 4 (partKey (baseKey ["users",w,"files",g]) j) := congrArg (List.take 4) same
      exact heads

end keys

section calls
variable {net : Network} {nodeId : String} {key other objectKey : Key} {object : Object} {store after : Store} {tables : Tables}
  {ct : String} {data : Bytes} {plans : List StripePartPlan} {rows : List StripePartRow} {chunks : List Bytes} {primary : String}
  {first : Store × Except Failure Unit} {snapshots : List NodeSnapshot} {next : Store → Store × Except Failure Unit}
  {plan : UploadPlacementPlan} {again : List NodeSnapshot} {index : Nat} {size : Nat} {index offset : Nat} {read : Object}
  {offset : Nat}

theorem chain_ok
    (ran : chain first next = (after,.ok ())) : ∃ middle, first = (middle,.ok ()) ∧ next middle = (after,.ok ()) := by
  obtain ⟨store,answer⟩ := first
  cases answer with
  | ok done => exact ⟨store,rfl,ran⟩
  | error e => cases ran

structure Touches (key : Key) (store after : Store) : Prop where
  files : after.tables.files = store.tables.files
  parts : ∀ other, other ≠ baseKey key → after.tables.parts.get other = store.tables.parts.get other
  placements : ∀ other, other ≠ baseKey key → after.tables.placements.get other = store.tables.placements.get other
  objects : ∀ nodeId objectKey, ¬Piece key objectKey → after.objects.get (nodeId,objectKey) = store.objects.get (nodeId,objectKey)

theorem Touches.refl (key : Key) (store : Store) : Touches key store store :=
  ⟨rfl,fun _ _ => rfl,fun _ _ => rfl,fun _ _ _ => rfl⟩

theorem Touches.trans (first : Touches key store middle) (second : Touches key middle after) : Touches key store after :=
  ⟨second.files.trans first.files,fun other ne => (second.parts other ne).trans (first.parts other ne),
   fun other ne => (second.placements other ne).trans (first.placements other ne),
   fun nodeId objectKey apart => (second.objects nodeId objectKey apart).trans (first.objects nodeId objectKey apart)⟩

theorem chain_touches
    (now : Touches key store first.1) (then_ : ∀ middle, Touches key middle (next middle).1) :
    Touches key store (chain first next).1 := by
  obtain ⟨middle,answer⟩ := first
  cases answer with
  | ok done => exact now.trans (then_ middle)
  | error e => exact now

section
variable (piece : Piece key objectKey)
include piece

theorem write_touches (objects : KeyMap (String × Key) Object)
    (rest : ∀ place, place ≠ (nodeId,objectKey) → objects.get place = store.objects.get place) :
    Touches key store {store with objects := objects} := by
  refine ⟨rfl,fun _ _ => rfl,fun _ _ => rfl,?_⟩
  intro node place apart
  apply rest
  intro same
  cases same
  exact apart piece

theorem clientPut_touches : Touches key store (clientPut net nodeId objectKey object store).1 := by
  unfold clientPut
  split
  · exact write_touches piece _ (fun place ne => get_set_ne ne)
  · exact .refl key store

theorem clientDelete_touches : Touches key store (clientDelete net nodeId objectKey store).1 := by
  unfold clientDelete
  split
  · exact write_touches piece _ (fun place ne => get_remove_ne ne)
  · exact .refl key store

theorem nodePut_touches : Touches key store (nodePut net nodeId objectKey object store).1 :=
  chain_touches (.refl key store) (fun _ => clientPut_touches piece)

theorem nodeDelete_touches : Touches key store (nodeDelete net nodeId objectKey store).1 :=
  chain_touches (.refl key store) (fun _ => clientDelete_touches piece)

end

theorem persist_touches (plan : UploadPlacementPlan) : Touches key store (persist (baseKey key) plan store).1 := by
  cases plan with
  | single nodeId objectKey =>
    exact ⟨rfl,fun _ _ => rfl,fun _ ne => get_set_ne ne,fun _ _ _ => rfl⟩
  | striped primary parts =>
    exact ⟨rfl,fun _ ne => get_set_ne ne,fun _ ne => get_set_ne ne,fun _ _ _ => rfl⟩

theorem forgetPlacement_touches : Touches key store (forgetPlacement (baseKey key) store).1 :=
  ⟨rfl,fun _ ne => get_remove_ne ne,fun _ ne => get_remove_ne ne,fun _ _ _ => rfl⟩

theorem putParts_touches (pieces : ∀ part ∈ plans, Piece key part.objectKey) :
    Touches key store (putParts net ct data offset plans store).1 := by
  induction plans generalizing offset store with
  | nil => exact .refl key store
  | cons part rest ih =>
    exact chain_touches (nodePut_touches (pieces part mem_cons_self))
      (fun _ => ih (fun other member => pieces other (mem_cons_of_mem _ member)))

theorem deleteParts_touches (pieces : ∀ row ∈ rows, Piece key row.objectKey) :
    Touches key store (deleteParts net rows store).1 := by
  induction rows generalizing store with
  | nil => exact .refl key store
  | cons row rest ih =>
    exact chain_touches (nodeDelete_touches (pieces row mem_cons_self))
      (fun _ => ih (fun other member => pieces other (mem_cons_of_mem _ member)))

def Numbered (key : Key) : Nat → List StripePartPlan → Prop
  | _,[] => True
  | index,part :: rest => part.objectKey = partKey key index ∧ 0 < part.byteLength ∧ Numbered key (index + 1) rest

theorem numbered_index (numbered : Numbered key index plans) (part : StripePartPlan) (member : part ∈ plans) :
    ∃ j, index ≤ j ∧ part.objectKey = partKey key j := by
  induction plans generalizing index with
  | nil => cases member
  | cons first rest ih =>
    rcases mem_cons.mp member with rfl | later
    · exact ⟨index,Nat.le_refl _,numbered.1⟩
    · obtain ⟨j,above,same⟩ := ih numbered.2.2 later
      exact ⟨j,Nat.le_of_succ_le above,same⟩

theorem numbered_pieces (numbered : Numbered (baseKey key) index plans) (part : StripePartPlan) (member : part ∈ plans) :
    Piece key part.objectKey := by
  obtain ⟨j,_,same⟩ := numbered_index numbered part member
  exact .inr ⟨j,same⟩

def totalLength : List StripePartPlan → Int
  | [] => 0
  | part :: rest => part.byteLength + totalLength rest

theorem stripe_exact (key : Key) (index : Nat) (offset remaining : Int) (nodes : List NodeSnapshot) :
    Numbered key index (stripe key index offset remaining nodes).1 ∧
    totalLength (stripe key index offset remaining nodes).1 + (stripe key index offset remaining nodes).2 = remaining ∧
    (0 ≤ remaining → 0 ≤ (stripe key index offset remaining nodes).2) := by
  induction nodes generalizing index offset remaining with
  | nil => exact ⟨trivial,Int.zero_add remaining,fun nonneg => nonneg⟩
  | cons node rest ih =>
    unfold stripe
    split
    · exact ⟨trivial,Int.zero_add remaining,fun nonneg => nonneg⟩
    · split
      · exact ih index offset remaining
      · rename_i more free
        obtain ⟨numbered,sum,nonneg⟩ := ih (index + 1) (offset + min (remainingBytes node) remaining)
          (remaining - min (remainingBytes node) remaining)
        dsimp only
        have taken : 0 < min (remainingBytes node) remaining := by omega
        refine ⟨⟨rfl,taken,numbered⟩,?_,fun _ => nonneg (by omega)⟩
        rw [totalLength]
        dsimp only at sum ⊢
        omega

theorem remainingBytes_nonneg (node : NodeSnapshot) : 0 ≤ remainingBytes node := by
  unfold remainingBytes
  split
  · split
    · omega
    · decide
  · decide

theorem planUpload_striped {nodes : List NodeSnapshot}
    (planned : planUpload nodes key size = .ok (.striped primary plans)) :
    plans ≠ [] ∧ Numbered key 0 plans ∧ 0 < asI64 size ∧ totalLength plans = asI64 size := by
  unfold planUpload at planned
  split at planned
  · cases planned
  · rename_i some_node
    split at planned
    · cases planned
    · split at planned
      · cases planned
      · rename_i full
        obtain ⟨numbered,sum,nonneg⟩ := stripe_exact key 0 0 (asI64 size) nodes
        generalize stripe key 0 0 (asI64 size) nodes = striped at numbered sum nonneg planned
        obtain ⟨parts,unplaced⟩ := striped
        dsimp only at planned numbered sum nonneg
        split at planned
        · cases planned
        · split at planned
          · cases planned
          · rename_i enough _ part rest
            cases planned
            obtain ⟨node,more,rfl⟩ := exists_cons_of_ne_nil some_node
            have small : ¬asI64 size ≤ remainingBytes node :=
              fun fits => find?_eq_none.mp full node mem_cons_self (decide_eq_true fits)
            have free := remainingBytes_nonneg node
            have positive : 0 < asI64 size := by omega
            have left := Int.le_antisymm (Int.not_lt.mp enough) (nonneg (Int.le_of_lt positive))
            rw [left,Int.add_zero] at sum
            exact ⟨cons_ne_nil _ _,numbered,positive,sum⟩

theorem asI64_exact {n : Nat} (unsigned : n < 2^64) (positive : 0 < asI64 n) : asI64 n = n := by
  have wrapped : asI64 n = if (n : Int) % 18446744073709551616 < 9223372036854775808 then (n : Int) % 18446744073709551616
      else (n : Int) % 18446744073709551616 - 18446744073709551616 := Int.bmod_def _ _
  have unsigned : n < 18446744073709551616 := unsigned
  rw [wrapped] at positive ⊢
  split at positive
  · omega
  · omega

def cut (data : Bytes) : Nat → List StripePartPlan → List Bytes
  | _,[] => []
  | offset,part :: rest =>
    (data.drop offset).take part.byteLength.toNat :: cut data (offset + part.byteLength.toNat) rest

-- The places of the rows hold these bytes.
def Filed (store : Store) (ct : String) : List StripePartRow → List Bytes → Prop :=
  List.Forall₂ (fun row chunk => store.objects.get (row.storageNodeId,row.objectKey) = some ⟨ct,chunk⟩)

theorem cut_flatten (numbered : Numbered key index plans)
    (whole : (offset : Int) + totalLength plans = data.length) :
    (cut data offset plans).flatten = data.drop offset := by
  induction plans generalizing index offset with
  | nil =>
    have past : data.length ≤ offset := by
      rw [totalLength] at whole
      omega
    rw [drop_eq_nil_of_le past]
    rfl
  | cons part rest ih =>
    have positive := numbered.2.1
    rw [totalLength] at whole
    rw [cut,flatten_cons,ih numbered.2.2 (by omega),← drop_drop]
    exact take_append_drop _ _

theorem nodePut_ok (put : nodePut net nodeId key object store = (after,.ok ())) :
    answers net nodeId ∧ after = {store with objects := store.objects.set (nodeId,key) object} := by
  obtain ⟨middle,known,sent⟩ := chain_ok put
  obtain ⟨rfl,known⟩ := Prod.mk.inj known
  unfold clientForNodeId at known
  split at known
  · rename_i registered
    unfold clientPut at sent
    split at sent
    · rename_i up
      cases sent
      exact ⟨⟨registered,up⟩,rfl⟩
    · cases sent
  · cases known

theorem putParts_ok (numbered : Numbered key index plans)
    (put : putParts net ct data offset plans store = (after,.ok ())) :
    (∀ part ∈ plans, answers net part.nodeId) ∧ after.tables = store.tables ∧
    (∀ nodeId objectKey, (∀ j, index ≤ j → objectKey ≠ partKey key j) →
      after.objects.get (nodeId,objectKey) = store.objects.get (nodeId,objectKey)) ∧
    Filed after ct (plans.map StripePartPlan.row) (cut data offset plans) := by
  induction plans generalizing index offset store with
  | nil =>
    cases put
    exact ⟨fun _ member => (nomatch member),rfl,fun _ _ _ => rfl,.nil⟩
  | cons part rest ih =>
    obtain ⟨middle,first,later⟩ := chain_ok put
    obtain ⟨named,_,numbered⟩ := numbered
    obtain ⟨answering,rfl⟩ := nodePut_ok first
    obtain ⟨others,tables,rest_same,filed⟩ := ih numbered later
    refine ⟨?_,tables,?_,.cons ?_ filed⟩
    · intro other member
      rcases mem_cons.mp member with rfl | later
      · exact answering
      · exact others other later
    · intro node place apart
      rw [rest_same node place (fun j above => apart j (Nat.le_of_succ_le above))]
      apply get_set_ne
      intro same
      cases same
      exact apart index (Nat.le_refl _) named
    · have kept := rest_same part.nodeId part.objectKey (by
        intro j above same
        rw [named] at same
        have equal := partKey_inj same
        omega)
      exact kept.trans get_set_self

theorem every_answers (nodeId : String) : clientForNodeId everyNode nodeId = .ok () := if_pos (.inr rfl)

theorem nodeGet_every (present : store.objects.get (nodeId,key) = some object) :
    nodeGet everyNode nodeId key store = .ok object := by
  rw [nodeGet,every_answers]
  simp only [clientGet,everyNode,present]
  rfl

theorem getParts_every (filed : Filed store ct rows chunks)
    (typed : read.contentType = octetStream ∨ read.contentType = ct) :
    getParts everyNode store read rows =
      .ok ⟨if rows = [] then read.contentType else ct,read.bytes ++ chunks.flatten⟩ := by
  induction filed generalizing read with
  | nil => rw [flatten_nil,append_nil]; rfl
  | @cons row chunk rows chunks here _ ih =>
    have kind : (if read.contentType = octetStream then ct else read.contentType) = ct := by
      split
      · rfl
      · exact typed.resolve_left (by assumption)
    rw [getParts,nodeGet_every here,if_neg (cons_ne_nil _ _)]
    dsimp only
    rw [kind,ih (.inr rfl),flatten_cons,append_assoc]
    split
    · rfl
    · rfl

theorem getStream_single (holds : canonical key = true) (single : loadStripeParts store.tables key = [])
    (present : store.objects.get (home store.tables key,key) = some object) : getStream everyNode key store = .ok object := by
  have none : stripePartsForKey store key = [] := by rw [stripePartsForKey,baseKey_canonical holds,single]
  rw [getStream,if_pos (.inr none)]
  exact nodeGet_every present

theorem getStream_striped (holds : canonical key = true) (striped : loadStripeParts store.tables key ≠ [])
    (filed : Filed store object.contentType (loadStripeParts store.tables key) chunks)
    (whole : chunks.flatten = object.bytes) : getStream everyNode key store = .ok object := by
  have some : stripePartsForKey store key = loadStripeParts store.tables key := by
    rw [stripePartsForKey,baseKey_canonical holds]
  have underived := canonical_underived holds
  rw [getStream,some,if_neg (by rw [underived]; rintro (no | none); exacts [Bool.false_ne_true no,striped none]),
    getParts_every filed (.inl rfl),if_neg striped,whole]
  rfl

theorem filed_congr {rows' : List StripePartRow} (filed : Filed store ct rows chunks)
    (same : rows'.map (fun row => (row.storageNodeId,row.objectKey)) = rows.map (fun row => (row.storageNodeId,row.objectKey))) :
    Filed store ct rows' chunks := by
  induction filed generalizing rows' with
  | nil =>
    rw [map_nil,map_eq_nil_iff] at same
    rw [same]
    exact .nil
  | cons here _ ih =>
    cases rows' with
    | nil => cases same
    | cons row' rest' =>
      obtain ⟨head,tail⟩ := List.cons.inj same
      obtain ⟨node,place⟩ := Prod.mk.inj head
      exact .cons (by rw [node,place]; exact here) (ih tail)

theorem upsertParts_all (covered : rows.length ≤ plans.length) : upsertParts plans rows = plans.map StripePartPlan.row := by
  rw [upsertParts,drop_eq_nil_of_le covered,append_nil]

theorem persist_parts :
    loadStripeParts (persistPlacement tables key (.striped primary plans)) key = upsertParts plans (loadStripeParts tables key) := by
  unfold loadStripeParts persistPlacement
  rw [get_set_self]
  rfl

theorem planFor_some
    (planned : planFor snapshots key object = .ok (some plan)) :
    snapshots ≠ [] ∧ planUpload snapshots key object.bytes.length = .ok plan := by
  unfold planFor at planned
  split at planned
  · cases planned
  · rename_i some_node
    refine ⟨some_node,?_⟩
    cases upload : planUpload snapshots key object.bytes.length with
    | error e => rw [upload] at planned; cases planned
    | ok other =>
      rw [upload] at planned
      rw [Option.some.inj (Except.ok.inj planned)]

theorem putStriped_ok (holds : canonical key = true)
    (planned : planFor net.snapshots key object = .ok (some (.striped primary plans)))
    (ran : putPlanned net key object store = (after,.ok ())) :
    ∃ middle, putParts net object.contentType object.bytes 0 plans store = (middle,.ok ()) ∧
      after = {middle with tables := persistPlacement middle.tables key (.striped primary plans)} := by
  obtain ⟨some_node,upload⟩ := planFor_some planned
  rw [putPlanned,if_neg some_node,baseKey_canonical holds,upload] at ran
  obtain ⟨middle,put,persisted⟩ := chain_ok ran
  exact ⟨middle,put,(Prod.mk.inj persisted).1.symm⟩

theorem planFor_striped (sized : object.bytes.length < 2^64)
    (planned : planFor snapshots key object = .ok (some (.striped primary plans))) :
    plans ≠ [] ∧ Numbered key 0 plans ∧ totalLength plans = object.bytes.length := by
  obtain ⟨nonempty,numbered,positive,length⟩ := planUpload_striped (planFor_some planned).2
  exact ⟨nonempty,numbered,length.trans (asI64_exact sized positive)⟩

theorem putPlanned_striped (net : Network) (holds : canonical key = true) (sized : object.bytes.length < 2^64)
    (planned : planFor net.snapshots key object = .ok (some (.striped primary plans)))
    (covered : (loadStripeParts store.tables key).length ≤ plans.length)
    (ran : putPlanned net key object store = (after,.ok ())) :
    loadStripeParts after.tables key = plans.map StripePartPlan.row ∧
    ∃ chunks, Filed after object.contentType (plans.map StripePartPlan.row) chunks ∧ chunks.flatten = object.bytes := by
  obtain ⟨_,numbered,length⟩ := planFor_striped sized planned
  obtain ⟨middle,put,rfl⟩ := putStriped_ok holds planned ran
  obtain ⟨_,tables,_,filed⟩ := putParts_ok numbered put
  refine ⟨?_,_,filed,?_⟩
  · rw [persist_parts,tables,upsertParts_all covered]
  · exact cut_flatten numbered (by rw [length]; exact Int.zero_add _)

theorem putPlanned_answers (net : Network) (holds : canonical key = true) (sized : object.bytes.length < 2^64)
    (planned : planFor net.snapshots key object = .ok (some (.striped primary plans)))
    (ran : putPlanned net key object store = (after,.ok ())) (part : StripePartPlan) (member : part ∈ plans) :
    answers net part.nodeId := by
  obtain ⟨_,numbered,_⟩ := planFor_striped sized planned
  obtain ⟨middle,put,_⟩ := putStriped_ok holds planned ran
  exact (putParts_ok numbered put).1 part member

theorem rows_nonempty (nonempty : plans ≠ []) : plans.map StripePartPlan.row ≠ [] :=
  fun none => nonempty (map_eq_nil_iff.mp none)

section
variable (holds : canonical key = true) (single : loadStripeParts store.tables key = [])
include holds single

theorem single_reads {placed : Key}
    (named : fileNode store.tables key = none ∨ fileNode store.tables key = some nodeId)
    (ran : chain (nodePut net nodeId key object store) (persist key (.single nodeId placed)) = (after,.ok ())) :
    getStream everyNode key after = .ok object := by
  obtain ⟨middle,put,persisted⟩ := chain_ok ran
  obtain ⟨_,rfl⟩ := nodePut_ok put
  obtain ⟨rfl,_⟩ := Prod.mk.inj persisted
  refine getStream_single holds single ?_
  have there : home (persistPlacement store.tables key (.single nodeId placed)) key = nodeId := by
    unfold home resolveNodeForKey
    have same : fileNode (persistPlacement store.tables key (.single nodeId placed)) key = fileNode store.tables key := rfl
    have none : loadStripeParts (persistPlacement store.tables key (.single nodeId placed)) key = [] := single
    have placement : (persistPlacement store.tables key (.single nodeId placed)).placements.get key = some nodeId :=
      get_set_self
    rw [same,baseKey_canonical holds,none,placement]
    rcases named with unnamed | named
    · rw [unnamed]; rfl
    · rw [named]; rfl
  dsimp only
  rw [there]
  exact get_set_self

theorem primary_reads
    (there : home store.tables key = nodePrimary) (ran : clientPut net nodePrimary key object store = (after,.ok ())) :
    getStream everyNode key after = .ok object := by
  unfold clientPut at ran
  split at ran
  · cases ran
    refine getStream_single holds single ?_
    dsimp only
    rw [there]
    exact get_set_self
  · cases ran

end

theorem clientPut_up (ran : clientPut net nodeId key object store = (after,.ok ())) : net.up nodeId = true := by
  unfold clientPut at ran
  split at ran
  · assumption
  · cases ran

theorem rows_places {plans' : List StripePartPlan} (numbered : Numbered key index plans)
    (numbered' : Numbered key index plans') (nodes : plans'.map StripePartPlan.nodeId = plans.map StripePartPlan.nodeId) :
    (plans.map StripePartPlan.row).map (fun row => (row.storageNodeId,row.objectKey)) =
      (plans'.map StripePartPlan.row).map (fun row => (row.storageNodeId,row.objectKey)) := by
  induction plans generalizing plans' index with
  | nil =>
    rw [map_nil,map_eq_nil_iff] at nodes
    rw [nodes]
  | cons part rest ih =>
    cases plans' with
    | nil => cases nodes
    | cons part' rest' =>
      obtain ⟨node,nodes⟩ := List.cons.inj nodes
      have first : (part.row.storageNodeId,part.row.objectKey) = (part'.row.storageNodeId,part'.row.objectKey) :=
        Prod.ext node.symm (numbered.1.trans numbered'.1.symm)
      simp only [map_cons,first,ih numbered.2.2 numbered'.2.2 nodes]

theorem nodeDelete_ok (ran : nodeDelete net nodeId key store = (after,.ok ())) :
    after = {store with objects := store.objects.remove (nodeId,key)} := by
  obtain ⟨middle,known,sent⟩ := chain_ok ran
  obtain ⟨rfl,_⟩ := Prod.mk.inj known
  unfold clientDelete at sent
  split at sent
  · cases sent; rfl
  · cases sent

theorem deleteParts_ok (ran : deleteParts net rows store = (after,.ok ())) (place : String × Key) :
    after.objects.get place =
      if place ∈ rows.map (fun row => (row.storageNodeId,row.objectKey)) then none else store.objects.get place := by
  induction rows generalizing store with
  | nil =>
    cases ran
    exact (if_neg (fun member => (nomatch member))).symm
  | cons row rest ih =>
    obtain ⟨middle,first,later⟩ := chain_ok ran
    rw [ih later,nodeDelete_ok first,map_cons]
    by_cases here : place = (row.storageNodeId,row.objectKey)
    · rw [if_pos (show place ∈ _ :: _ from mem_cons.mpr (.inl here)),here]
      split
      · rfl
      · exact get_remove_self
    · by_cases there : place ∈ rest.map (fun row => (row.storageNodeId,row.objectKey))
      · rw [if_pos there,if_pos (mem_cons_of_mem _ there)]
      · rw [if_neg there,if_neg (fun member => (mem_cons.mp member).elim here there)]
        exact get_remove_ne here

theorem delete_empties (holds : canonical key = true)
    (fits : ∀ nodeId objectKey, Piece key objectKey → (store.objects.get (nodeId,objectKey)).isSome = true →
      (nodeId,objectKey) ∈ places store key)
    (ran : delete net key store = (after,.ok ())) (nodeId : String) (objectKey : Key) (piece : Piece key objectKey) :
    after.objects.get (nodeId,objectKey) = none := by
  have looked : (places store key = [(home store.tables key,key)] ∧ ∃ store', after = store' ∧
      store'.objects = store.objects.remove (home store.tables key,key)) ∨
      (places store key = (loadStripeParts store.tables key).map (fun row => (row.storageNodeId,row.objectKey)) ∧
        ∃ middle, deleteParts net (loadStripeParts store.tables key) store = (middle,.ok ()) ∧
          after.objects = middle.objects) := by
    rw [delete,canonical_underived holds,stripePartsForKey,baseKey_canonical holds] at ran
    unfold places
    by_cases single : loadStripeParts store.tables key = []
    · rw [if_pos (.inr single)] at ran
      rw [if_pos single]
      exact .inl ⟨rfl,after,rfl,by rw [nodeDelete_ok ran]⟩
    · rw [if_neg (by rintro (no | empty); exacts [Bool.false_ne_true no,single empty])] at ran
      rw [if_neg single]
      obtain ⟨middle,parts,forgotten⟩ := chain_ok ran
      exact .inr ⟨rfl,middle,parts,by rw [← (Prod.mk.inj forgotten).1]⟩
  rcases looked with ⟨one,store',rfl,removed⟩ | ⟨striped,middle,parts,same⟩
  · rw [removed]
    by_cases here : (nodeId,objectKey) = (home store.tables key,key)
    · rw [here]
      exact get_remove_self
    · rw [get_remove_ne here]
      cases present : store.objects.get (nodeId,objectKey) with
      | none => rfl
      | some object =>
        have member := fits nodeId objectKey piece (by rw [present]; rfl)
        rw [one] at member
        exact absurd (mem_singleton.mp member) here
  · rw [same,deleteParts_ok parts]
    split
    · rfl
    · rename_i elsewhere
      cases present : store.objects.get (nodeId,objectKey) with
      | none => rfl
      | some object =>
        have member := fits nodeId objectKey piece (by rw [present]; rfl)
        rw [striped] at member
        exact absurd member elsewhere

def Filing (tables : Tables) : Prop := ∀ key, canonical key = true → ∀ row ∈ loadStripeParts tables key, Piece key row.objectKey

theorem exists_gone (holds : canonical key = true) (filing : Filing store.tables)
    (none : ∀ nodeId objectKey, Piece key objectKey → store.objects.get (nodeId,objectKey) = none) :
    keyExists everyNode key store = .ok false := by
  have absent : ∀ nodeId objectKey, Piece key objectKey → nodeExists everyNode nodeId objectKey store = .ok false := by
    intro nodeId objectKey piece
    rw [nodeExists,every_answers]
    simp only [clientExists,everyNode,KeyMap.contains,none nodeId objectKey piece]
    rfl
  rw [keyExists,canonical_underived holds,stripePartsForKey,baseKey_canonical holds]
  cases rows : loadStripeParts store.tables key with
  | nil =>
    rw [if_pos (.inr rfl)]
    exact absent _ _ (.inl rfl)
  | cons row rest =>
    rw [if_neg (by rintro (no | empty); exacts [Bool.false_ne_true no,cons_ne_nil _ _ empty]),existsParts,
      absent _ _ (filing key holds row (by rw [rows]; exact mem_cons_self))]

section
variable (touches : Touches key store after)
include touches

theorem fileNode_touches (other : Key) :
    fileNode after.tables other = fileNode store.tables other := by
  unfold fileNode
  rw [touches.files]

theorem rows_touches (ne : other ≠ baseKey key) :
    loadStripeParts after.tables other = loadStripeParts store.tables other := by
  unfold loadStripeParts
  rw [touches.parts other ne]

theorem home_touches (ne : baseKey other ≠ baseKey key) :
    home after.tables other = home store.tables other := by
  unfold home resolveNodeForKey
  rw [fileNode_touches touches,rows_touches touches ne,touches.placements _ ne]

end

theorem getParts_congr
    (same : ∀ row ∈ rows, after.objects.get (row.storageNodeId,row.objectKey) = store.objects.get (row.storageNodeId,row.objectKey)) :
    getParts net after read rows = getParts net store read rows := by
  induction rows generalizing read with
  | nil => rfl
  | cons row rest ih =>
    have here : nodeGet net row.storageNodeId row.objectKey after = nodeGet net row.storageNodeId row.objectKey store := by
      unfold nodeGet clientGet
      rw [same row mem_cons_self]
    unfold getParts
    rw [here]
    cases nodeGet net row.storageNodeId row.objectKey store with
    | error e => rfl
    | ok object => exact ih (fun other member => same other (mem_cons_of_mem _ member))

theorem getStream_touches (touches : Touches key store after) (holds : canonical key = true) (ne : other ≠ key)
    (holds' : canonical other = true) (filing : Filing store.tables) :
    getStream net other after = getStream net other store := by
  have apart : ∀ {nodeId objectKey}, Piece other objectKey →
      after.objects.get (nodeId,objectKey) = store.objects.get (nodeId,objectKey) :=
    fun piece => touches.objects _ _ (fun piece' => ne (piece_apart holds' holds piece piece'))
  have bases : baseKey other ≠ baseKey key := by rwa [baseKey_canonical holds,baseKey_canonical holds']
  unfold getStream stripePartsForKey
  rw [rows_touches touches bases,home_touches touches bases]
  split
  · unfold nodeGet clientGet
    rw [apart (.inl rfl)]
  · exact getParts_congr (fun row member => apart (filing other holds' row (by rwa [baseKey_canonical holds'] at member)))

theorem filing_touches (touches : Touches key store after) (filing : Filing store.tables)
    (own : ∀ row ∈ loadStripeParts after.tables (baseKey key), Piece (baseKey key) row.objectKey) : Filing after.tables := by
  intro other holds row member
  by_cases same : other = baseKey key
  · subst same
    exact own row member
  · rw [rows_touches touches same] at member
    exact filing other holds row member

theorem persist_filing (filing : Filing tables)
    (numbered : ∀ primary plans, plan = .striped primary plans → Numbered key 0 plans) :
    Filing (persistPlacement tables key plan) := by
  intro other holds row member
  cases plan with
  | single nodeId placed => exact filing other holds row member
  | striped primary plans =>
    by_cases same : other = key
    · subst same
      rw [persist_parts,upsertParts] at member
      rcases mem_append.mp member with new | old
      · obtain ⟨part,listed,rfl⟩ := mem_map.mp new
        exact numbered_pieces (by rw [baseKey_canonical holds]; exact numbered primary plans rfl) part listed
      · exact filing other holds row (mem_of_mem_drop old)
    · unfold loadStripeParts persistPlacement at member
      dsimp only at member
      rw [get_set_ne same] at member
      exact filing other holds row member

theorem chain_keeps {P : Store → Prop}
    (now : P first.1) (later : ∀ middle, P middle → P (next middle).1) : P (chain first next).1 := by
  obtain ⟨middle,answer⟩ := first
  cases answer with
  | ok done => exact later middle now
  | error e => exact now

theorem clientPut_tables : (clientPut net nodeId key object store).1.tables = store.tables := by
  unfold clientPut
  split
  · rfl
  · rfl

theorem clientDelete_tables : (clientDelete net nodeId key store).1.tables = store.tables := by
  unfold clientDelete
  split
  · rfl
  · rfl

theorem nodePut_tables : (nodePut net nodeId key object store).1.tables = store.tables :=
  chain_keeps (P := fun s => s.tables = store.tables) rfl (fun _ same => clientPut_tables.trans same)

theorem nodeDelete_tables : (nodeDelete net nodeId key store).1.tables = store.tables :=
  chain_keeps (P := fun s => s.tables = store.tables) rfl (fun _ same => clientDelete_tables.trans same)

theorem putParts_tables : (putParts net ct data offset plans store).1.tables = store.tables := by
  induction plans generalizing offset store with
  | nil => rfl
  | cons part rest ih =>
    exact chain_keeps (P := fun s => s.tables = store.tables) nodePut_tables (fun _ same => ih.trans same)

theorem deleteParts_tables : (deleteParts net rows store).1.tables = store.tables := by
  induction rows generalizing store with
  | nil => rfl
  | cons row rest ih =>
    exact chain_keeps (P := fun s => s.tables = store.tables) nodeDelete_tables (fun _ same => ih.trans same)

theorem planUpload_numbered
    (upload : planUpload snapshots key size = .ok (.striped primary plans)) : Numbered key 0 plans :=
  (planUpload_striped upload).2.1

theorem persist_keeps
    (upload : planUpload snapshots key size = .ok plan) (filing : Filing store.tables) :
    Filing (persist key plan store).1.tables :=
  persist_filing filing (fun primary plans same => planUpload_numbered (by rw [upload,same]))

theorem putPlanned_keeps (filing : Filing store.tables) :
    Touches key store (putPlanned net key object store).1 ∧ Filing (putPlanned net key object store).1.tables := by
  unfold putPlanned
  split
  · exact ⟨clientPut_touches (.inl rfl),by rw [clientPut_tables]; exact filing⟩
  · split
    · exact ⟨.refl key store,filing⟩
    · rename_i upload
      refine ⟨chain_touches (nodePut_touches (.inl rfl)) (fun _ => persist_touches _),?_⟩
      exact chain_keeps (P := fun s => Filing s.tables) (by rw [nodePut_tables]; exact filing)
        (fun _ kept => persist_keeps upload kept)
    · rename_i upload
      refine ⟨chain_touches (putParts_touches (numbered_pieces (planUpload_numbered upload))) (fun _ => persist_touches _),?_⟩
      exact chain_keeps (P := fun s => Filing s.tables) (by rw [putParts_tables]; exact filing)
        (fun _ kept => persist_keeps upload kept)

theorem orPrimary_keeps (touches : Touches key store first.1)
    (tables : first.1.tables = store.tables) :
    Touches key store (orPrimary net nodeId key object first).1 ∧
    (orPrimary net nodeId key object first).1.tables = store.tables := by
  obtain ⟨middle,answer⟩ := first
  cases answer with
  | ok done => exact ⟨touches,tables⟩
  | error e =>
    simp only [orPrimary]
    split
    · exact ⟨touches.trans (clientPut_touches (.inl rfl)),clientPut_tables.trans tables⟩
    · exact ⟨touches,tables⟩

theorem putReserved_keeps (filing : Filing store.tables) :
    Touches key store (putReserved net nodeId key object store).1 ∧ Filing (putReserved net nodeId key object store).1.tables := by
  have sent : ∀ middle, Touches key middle (orPrimary net nodeId key object (clientPut net nodeId key object middle)).1 ∧
      (orPrimary net nodeId key object (clientPut net nodeId key object middle)).1.tables = middle.tables :=
    fun middle => orPrimary_keeps (clientPut_touches (.inl rfl)) clientPut_tables
  refine ⟨chain_touches (.refl key store) (fun middle => (sent middle).1),?_⟩
  exact chain_keeps (P := fun s => Filing s.tables) filing (fun middle kept => by rw [(sent middle).2]; exact kept)

theorem putRouted_keeps (net : Network) (key : Key) (object : Object) (filing : Filing store.tables) :
    Touches key store (putRouted net key object store).1 ∧ Filing (putRouted net key object store).1.tables := by
  unfold putRouted
  split
  · split
    · exact putReserved_keeps filing
    · exact putPlanned_keeps filing
  · exact putPlanned_keeps filing

theorem putRouted_planned (holds : canonical key = true) : putRouted net key object store = putPlanned net key object store := by
  rw [putRouted,canonical_underived holds]
  rfl

theorem putStream_planned (holds : canonical key = true) :
    putStream net again key object store = putStreamPlanned net again key object store := by
  rw [putStream,canonical_underived holds]
  rfl

theorem putStreamPlanned_keeps (filing : Filing store.tables) :
    Touches key store (putStreamPlanned net again key object store).1 ∧
    Filing (putStreamPlanned net again key object store).1.tables := by
  unfold putStreamPlanned
  split
  · exact ⟨clientPut_touches (.inl rfl),by rw [clientPut_tables]; exact filing⟩
  · split
    · exact ⟨.refl key store,filing⟩
    · rename_i upload
      refine ⟨chain_touches (nodePut_touches (.inl rfl)) (fun _ => persist_touches _),?_⟩
      exact chain_keeps (P := fun s => Filing s.tables) (by rw [nodePut_tables]; exact filing)
        (fun _ kept => persist_keeps upload kept)
    · rename_i upload
      obtain ⟨touches,kept⟩ := putRouted_keeps {net with snapshots := again} key object filing
      exact ⟨chain_touches touches (fun _ => persist_touches _),
        chain_keeps (P := fun s => Filing s.tables) kept (fun _ kept => persist_keeps upload kept)⟩

theorem putStream_keeps (filing : Filing store.tables) :
    Touches key store (putStream net again key object store).1 ∧ Filing (putStream net again key object store).1.tables := by
  unfold putStream
  split
  · split
    · exact ⟨nodePut_touches (.inl rfl),by rw [nodePut_tables]; exact filing⟩
    · exact putStreamPlanned_keeps filing
  · exact putStreamPlanned_keeps filing

theorem delete_keeps (holds : canonical key = true ∨ isDerivedSidecarKey key = true) (filing : Filing store.tables) :
    Touches key store (delete net key store).1 ∧ Filing (delete net key store).1.tables := by
  unfold delete
  split
  · exact ⟨nodeDelete_touches (.inl rfl),by rw [nodeDelete_tables]; exact filing⟩
  · rename_i striped
    have holds := holds.resolve_right (fun derived => striped (.inl derived))
    have own : ∀ row ∈ stripePartsForKey store key, Piece key row.objectKey := by
      rw [stripePartsForKey,baseKey_canonical holds]
      exact filing key holds
    refine ⟨chain_touches (deleteParts_touches own) (fun _ => forgetPlacement_touches),?_⟩
    refine chain_keeps (P := fun s => Filing s.tables) (by rw [deleteParts_tables]; exact filing) ?_
    intro middle kept
    refine filing_touches forgetPlacement_touches kept ?_
    intro row member
    unfold loadStripeParts forgetPlacement at member
    dsimp only at member
    rw [get_remove_self] at member
    cases member

end calls

end Ownly.Storage
