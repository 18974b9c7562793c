import Ownly.Storage.ReadYourWrites

-- Derived keys: thumbnails, waveforms and segments below the key of a file. They are put
-- on the node the file resolves to, and the reader resolves the file again.
namespace Ownly.Storage.Sidecars
open Option KeyMap

-- users/<u>/files/<id>/…, apart from the parts of the file itself
def sidecar : Key → Bool
  | a :: _ :: b :: _ :: name :: _ => decide (a = "users" ∧ b = "files" ∧ name ≠ "parts")
  | _ => false

structure System where
  store : Store
  written : KeyMap Key (Option String × Object)

-- The node that takes the object of a derived key along a plan; along a striped one its
-- bytes go to the parts of the file.
def target : Option UploadPlacementPlan → Option String
  | none => some nodePrimary
  | some (.single nodeId _) => some nodeId
  | some (.striped _ _) => none

def plannedNode (snapshots : List NodeSnapshot) (key : Key) (object : Object) : Option String :=
  match planFor snapshots (baseKey key) object with
  | .ok plan => target plan
  | .error _ => none

-- Where a PUT of a derived key that goes through has put it.
def putNode (net : Network) (key : Key) (store : Store) : Call → Option String
  | .putRouted object => match resolveNodeForKey store.tables key with
    | some nodeId => if net.up nodeId then some nodeId else some nodePrimary
    | none => plannedNode net.snapshots key object
  | .putStream again object => match resolveNodeForKey store.tables key with
    | some nodeId => some nodeId
    | none => match planFor net.snapshots (baseKey key) object with
      | .ok (some (.striped _ _)) => plannedNode again key object
      | .ok plan => target plan
      | .error _ => none
  | .delete => none

def note (key : Key) (nodeId : Option String) (written : KeyMap Key (Option String × Object)) :
    Call → KeyMap Key (Option String × Object)
  | .putRouted object => written.set key (nodeId,object)
  | .putStream _ object => written.set key (nodeId,object)
  | .delete => written.remove key

def step (sys : System) : Event → Option System
  | .call net key call =>
    if (canonical key = true ∨ sidecar key = true) ∧ call.Sized then
      let written := if sidecar key = true then
          match (call.perform net key sys.store).2 with
          | .ok () => note key (putNode net key sys.store call) sys.written call
          | .error _ => sys.written.remove key
        else sys.written
      some ⟨(call.perform net key sys.store).1,written⟩
    else none
  | .row fileId row => some {sys with store := {sys.store with tables := setRow fileId row sys.store.tables}}

def empty : System := ⟨⟨⟨KeyMap.empty,KeyMap.empty,KeyMap.empty⟩,KeyMap.empty⟩,KeyMap.empty⟩

-- A derived key resolves to the node it was put to, and with that node there GET, HEAD
-- and DELETE meet the object that was put.
def Resolved (sys : System) : Prop := ∀ key nodeId object, sys.written.get key = some (nodeId,object) →
  nodeId = some (home sys.store.tables key) ∧
  ∀ net, answers net (home sys.store.tables key) →
    getStream net key sys.store = .ok object ∧ keyExists net key sys.store = .ok true ∧
    delete net key sys.store = ({sys.store with objects := sys.store.objects.remove (home sys.store.tables key,key)},.ok ())

def Held (sys : System) (base : Key) : Prop := ∃ key entry, sys.written.get key = some entry ∧ baseKey key = base

def Alone (sys : System) (key : Key) : Prop :=
  ∀ other entry, sys.written.get other = some entry → baseKey other = baseKey key → other = key

-- The nodes of the plan take the PUT.
def Reaches (net : Network) : Option UploadPlacementPlan → Prop
  | none => net.up nodePrimary = true
  | some (.single nodeId _) => answers net nodeId
  | some (.striped _ parts) => ∀ part ∈ parts, answers net part.nodeId

-- A placement along the plan leaves the file on the node it resolves to.
def Keeps (tables : Tables) (key : Key) : Option UploadPlacementPlan → Prop
  | none => True
  | some (.single nodeId _) => fileNode tables key ≠ none ∨ loadStripeParts tables key ≠ [] ∨ home tables key = nodeId
  | some (.striped primary _) => fileNode tables key ≠ none ∨ home tables key = primary

-- A derived key is put before its file is placed: the plan names one node, and the other
-- derived keys of the file are on that node as well.
def Settles (sys : System) (key : Key) (nodeId : String) (plan : Option UploadPlacementPlan) : Prop :=
  target plan = some nodeId ∧ (nodeId = nodePrimary ∨ Alone sys key)

def SideFits (sys : System) (net : Network) (key : Key) : Call → Prop
  | .putRouted object => match resolveNodeForKey sys.store.tables key with
    | some nodeId => net.registered nodeId = true → net.up nodePrimary = true → nodeId = nodePrimary ∨ net.up nodeId = true
    | none => ∀ plan, planFor net.snapshots (baseKey key) object = .ok plan → Reaches net plan →
      ∃ nodeId, Settles sys key nodeId plan
  | .putStream again object => resolveNodeForKey sys.store.tables key = none →
    ∀ plan, planFor net.snapshots (baseKey key) object = .ok plan →
      match plan with
      | some (.striped primary _) => ∀ second, planFor again (baseKey key) object = .ok second → Reaches net second →
        Settles sys key primary second
      | plan => Reaches net plan → ∃ nodeId, Settles sys key nodeId plan
  | .delete => True

def FileFits (sys : System) (net : Network) (key : Key) : Call → Prop
  | .putRouted object => ∀ plan, planFor net.snapshots key object = .ok plan → Reaches net plan → Keeps sys.store.tables key plan
  | .putStream again object => ∀ plan, planFor net.snapshots key object = .ok plan →
    match plan with
    | some (.striped _ _) => ∀ second, planFor again key object = .ok second → Reaches net second → Keeps sys.store.tables key plan
    | plan => Reaches net plan → Keeps sys.store.tables key plan
  | .delete => (∀ row ∈ loadStripeParts sys.store.tables key, answers net row.storageNodeId) →
    fileNode sys.store.tables key ≠ none ∨ loadStripeParts sys.store.tables key = [] ∨ home sys.store.tables key = nodePrimary

-- No PUT of a derived key is turned over to the primary node or striped, and a file with
-- derived keys in the store stays where it resolves to.
def Fits (sys : System) : Event → Prop
  | .call net key call => if sidecar key = true then SideFits sys net key call else Held sys key → FileFits sys net key call
  | .row fileId row => ∀ key entry, sys.written.get key = some entry →
    home (setRow fileId row sys.store.tables) key = home sys.store.tables key

section keys
variable {key other : Key} {tables : Tables}

theorem sidecar_exact (holds : sidecar key = true) :
    ∃ u f name rest, key = "users" :: u :: "files" :: f :: name :: rest ∧ name ≠ "parts" := by
  unfold sidecar at holds
  split at holds
  · obtain ⟨rfl,rfl,apart⟩ := of_decide_eq_true holds
    exact ⟨_,_,_,_,rfl,apart⟩
  · cases holds

theorem sidecar_derived (holds : sidecar key = true) : isDerivedSidecarKey key = true := by
  obtain ⟨u,f,name,rest,rfl,_⟩ := sidecar_exact holds
  refine decide_eq_true ⟨?_,⟨name :: rest,rfl⟩⟩
  intro same
  cases same

theorem base_canonical (holds : canonical key = true ∨ sidecar key = true) : canonical (baseKey key) = true := by
  rcases holds with holds | holds
  · rwa [baseKey_canonical holds]
  · obtain ⟨u,f,name,rest,rfl,_⟩ := sidecar_exact holds
    rfl

theorem sidecar_apart (holds : canonical key = true ∨ sidecar key = true) (derived : sidecar other = true)
    (piece : Piece key other) : other = key := by
  rcases piece with same | ⟨i,same⟩
  · exact same
  · obtain ⟨u,f,base⟩ := canonical_exact.mp (base_canonical holds)
    obtain ⟨u',f',name,rest,rfl,apart⟩ := sidecar_exact derived
    rw [base] at same
    cases same
    exact absurd rfl apart

theorem canonical_unsided (holds : canonical key = true) : sidecar key = false := by
  obtain ⟨u,f,rfl⟩ := canonical_exact.mp holds
  rfl

theorem home_base (holds : canonical key = true ∨ sidecar key = true) : home tables (baseKey key) = home tables key := by
  unfold home resolveNodeForKey fileNode
  rw [baseKey_canonical (base_canonical holds)]

end keys

variable {again : List NodeSnapshot}

section placements
variable {net : Network} {key : Key} {object : Object} {store after : Store} {tables : Tables} {plan : Option UploadPlacementPlan}
  {plans : List StripePartPlan} {primary nodeId : String}

def persistPlan (tables : Tables) (key : Key) : Option UploadPlacementPlan → Tables
  | none => tables
  | some plan => persistPlacement tables key plan

theorem home_single (holds : canonical key = true) {placed : Key} : home (persistPlacement tables key (.single nodeId placed)) key =
    (fileNode tables key <|> (loadStripeParts tables key).head?.map StripePartRow.storageNodeId).getD nodeId := by
  have same : fileNode (persistPlacement tables key (.single nodeId placed)) key = fileNode tables key := rfl
  have rows : loadStripeParts (persistPlacement tables key (.single nodeId placed)) key = loadStripeParts tables key := rfl
  have placement : (persistPlacement tables key (.single nodeId placed)).placements.get key = some nodeId := get_set_self
  unfold home resolveNodeForKey
  rw [baseKey_canonical holds,same,rows,placement]
  cases fileNode tables key with
  | some named => rfl
  | none =>
    cases (loadStripeParts tables key).head? with
    | some row => rfl
    | none => rfl

theorem home_striped (holds : canonical key = true) (first : plans.head?.map StripePartPlan.nodeId = some primary) :
    home (persistPlacement tables key (.striped primary plans)) key = (fileNode tables key).getD primary := by
  have same : fileNode (persistPlacement tables key (.striped primary plans)) key = fileNode tables key := rfl
  unfold home resolveNodeForKey
  rw [baseKey_canonical holds,same,persist_parts]
  cases plans with
  | nil => cases first
  | cons part rest =>
    cases first
    cases fileNode tables key with
    | some named => rfl
    | none => rfl

theorem planUpload_primary {nodes : List NodeSnapshot} {size : Nat} (planned : planUpload nodes key size = .ok (.striped primary plans)) :
    plans.head?.map StripePartPlan.nodeId = some primary := by
  unfold planUpload at planned
  split at planned
  · cases planned
  · split at planned
    · cases planned
    · split at planned
      · cases planned
      · generalize stripe key 0 0 (asI64 size) nodes = striped at planned
        obtain ⟨parts,unplaced⟩ := striped
        dsimp only at planned
        split at planned
        · cases planned
        · split at planned
          · cases planned
          · cases planned
            rfl

theorem resolved_none (unplaced : resolveNodeForKey tables key = none) :
    fileNode tables key = none ∧ loadStripeParts tables (baseKey key) = [] ∧ home tables key = nodePrimary := by
  have home : home tables key = nodePrimary := by rw [Storage.home,unplaced]; rfl
  unfold resolveNodeForKey at unplaced
  cases named : fileNode tables key with
  | some node => rw [named] at unplaced; cases unplaced
  | none =>
    rw [named] at unplaced
    cases rows : loadStripeParts tables (baseKey key) with
    | nil => exact ⟨rfl,rfl,home⟩
    | cons row rest => rw [rows] at unplaced; cases unplaced

theorem chain_failing {first : Store × Except Failure Unit} {next : Store → Store × Except Failure Unit}
    (now : ∀ e, first.2 = .error e → first.1.tables = tables)
    (later : ∀ middle, first = (middle,.ok ()) → ∀ e, (next middle).2 = .error e → (next middle).1.tables = tables)
    (e : Failure) (failed : (chain first next).2 = .error e) : (chain first next).1.tables = tables := by
  obtain ⟨middle,answer⟩ := first
  cases answer with
  | ok done => exact later middle rfl e failed
  | error other => exact now other rfl

theorem putPlanned_ok (ran : putPlanned net key object store = (after,.ok ())) :
    ∃ plan, planFor net.snapshots (baseKey key) object = .ok plan ∧ Reaches net plan ∧
      after.tables = persistPlan store.tables (baseKey key) plan ∧
      ∀ nodeId, target plan = some nodeId → after.objects = store.objects.set (nodeId,key) object := by
  unfold putPlanned at ran
  split at ran
  · rename_i none
    refine ⟨Option.none,if_pos none,clientPut_up ran,?_⟩
    have sent := ran
    unfold clientPut at sent
    rw [if_pos (clientPut_up ran)] at sent
    cases sent
    refine ⟨rfl,?_⟩
    intro nodeId same
    cases same
    rfl
  · rename_i some_node
    split at ran
    · cases ran
    · rename_i nodeId placed upload
      obtain ⟨middle,put,persisted⟩ := chain_ok ran
      obtain ⟨answering,rfl⟩ := nodePut_ok put
      cases persisted
      refine ⟨some (.single nodeId placed),by rw [planFor,if_neg some_node,upload]; rfl,answering,rfl,?_⟩
      intro other same
      cases same
      rfl
    · rename_i primary plans upload
      obtain ⟨middle,put,persisted⟩ := chain_ok ran
      obtain ⟨answering,tables,_⟩ := putParts_ok (planUpload_numbered upload) put
      cases persisted
      refine ⟨some (.striped primary plans),by rw [planFor,if_neg some_node,upload]; rfl,answering,?_,fun _ same => by cases same⟩
      rw [persistPlan,← tables]

theorem putPlanned_failed (e : Failure) (failed : (putPlanned net key object store).2 = .error e) :
    (putPlanned net key object store).1.tables = store.tables := by
  unfold putPlanned at failed ⊢
  split
  · exact clientPut_tables
  · rename_i some_node
    rw [if_neg some_node] at failed
    split
    · rfl
    · rename_i upload
      rw [upload] at failed
      exact chain_failing (fun _ _ => nodePut_tables) (fun _ _ _ wrong => by cases wrong) e failed
    · rename_i upload
      rw [upload] at failed
      exact chain_failing (fun _ _ => putParts_tables) (fun _ _ _ wrong => by cases wrong) e failed

theorem putReserved_tables : (putReserved net nodeId key object store).1.tables = store.tables := by
  refine chain_keeps (P := fun s => s.tables = store.tables) rfl ?_
  intro middle same
  have touches : Touches key middle (clientPut net nodeId key object middle).1 := clientPut_touches (.inl rfl)
  exact (orPrimary_keeps touches clientPut_tables).2.trans same

theorem putRouted_failed (e : Failure) (failed : (putRouted net key object store).2 = .error e) :
    (putRouted net key object store).1.tables = store.tables := by
  unfold putRouted at failed ⊢
  split
  · rename_i derived
    rw [if_pos derived] at failed
    split
    · exact putReserved_tables
    · rename_i unplaced
      rw [unplaced] at failed
      exact putPlanned_failed e failed
  · rename_i underived
    rw [if_neg underived] at failed
    exact putPlanned_failed e failed

theorem putStreamPlanned_failed (e : Failure)
    (failed : (putStreamPlanned net again key object store).2 = .error e) :
    (putStreamPlanned net again key object store).1.tables = store.tables := by
  unfold putStreamPlanned at failed ⊢
  split
  · exact clientPut_tables
  · rename_i some_node
    rw [if_neg some_node] at failed
    split
    · rfl
    · rename_i upload
      rw [upload] at failed
      exact chain_failing (fun _ _ => nodePut_tables) (fun _ _ _ wrong => by cases wrong) e failed
    · rename_i upload
      rw [upload] at failed
      exact chain_failing putRouted_failed (fun _ _ _ wrong => by cases wrong) e failed

theorem perform_failed (call : Call) (e : Failure) (failed : (call.perform net key store).2 = .error e) :
    (call.perform net key store).1.tables = store.tables := by
  cases call with
  | putRouted object => exact putRouted_failed e failed
  | putStream again object =>
    simp only [Call.perform,putStream] at failed ⊢
    split
    · rename_i derived
      rw [if_pos derived] at failed
      split
      · exact nodePut_tables
      · rename_i unplaced
        rw [unplaced] at failed
        exact putStreamPlanned_failed e failed
    · rename_i underived
      rw [if_neg underived] at failed
      exact putStreamPlanned_failed e failed
  | delete =>
    simp only [Call.perform,delete] at failed ⊢
    split
    · exact nodeDelete_tables
    · rename_i striped
      rw [if_neg striped] at failed
      exact chain_failing (fun _ _ => deleteParts_tables) (fun _ _ _ wrong => by cases wrong) e failed

theorem putStreamPlanned_striped
    (planned : planFor net.snapshots (baseKey key) object = .ok (some (.striped primary plans))) :
    putStreamPlanned net again key object store =
      chain (putRouted {net with snapshots := again} key object store) (persist (baseKey key) (.striped primary plans)) := by
  obtain ⟨some_node,upload⟩ := planFor_some planned
  rw [putStreamPlanned,if_neg some_node,upload]

theorem putStreamPlanned_single
    (unstriped : ∀ primary plans, planFor net.snapshots (baseKey key) object ≠ .ok (some (.striped primary plans))) :
    putStreamPlanned net again key object store = putPlanned net key object store := by
  unfold putStreamPlanned putPlanned
  split
  · rfl
  · rename_i some_node
    split
    · rfl
    · rfl
    · rename_i primary plans upload
      have planned : planFor net.snapshots (baseKey key) object = .ok (some (.striped primary plans)) := by
        rw [planFor,if_neg some_node,upload]
        rfl
      exact absurd planned (unstriped primary plans)

theorem home_keeps (holds : canonical key = true) (planned : planFor net.snapshots key object = .ok plan)
    (keeps : Keeps tables key plan) : home (persistPlan tables key plan) key = home tables key := by
  cases plan with
  | none => rfl
  | some plan =>
    rw [persistPlan]
    have now : home tables key = (fileNode tables key <|> (loadStripeParts tables key).head?.map StripePartRow.storageNodeId
        <|> tables.placements.get key).getD nodePrimary := by
      rw [home,resolveNodeForKey,baseKey_canonical holds]
    cases plan with
    | single nodeId placed =>
      rw [home_single holds]
      rcases keeps with named | striped | same
      · obtain ⟨node,named⟩ := ne_none_iff_exists'.mp named
        rw [now,named]
        rfl
      · obtain ⟨row,rest,rows⟩ := List.exists_cons_of_ne_nil striped
        rw [now,rows]
        cases fileNode tables key with
        | some node => rfl
        | none => rfl
      · rw [← same,now]
        cases fileNode tables key with
        | some node => rfl
        | none =>
          cases (loadStripeParts tables key).head? with
          | some row => rfl
          | none => rfl
    | striped primary plans =>
      rw [home_striped holds (planUpload_primary (planFor_some planned).2)]
      rcases keeps with named | same
      · obtain ⟨node,named⟩ := ne_none_iff_exists'.mp named
        rw [now,named]
        rfl
      · rw [← same,now]
        cases fileNode tables key with
        | some node => rfl
        | none => rfl

theorem home_settled (holds : sidecar key = true) (unplaced : resolveNodeForKey tables key = none)
    (takes : target plan = some nodeId) : home (persistPlan tables (baseKey key) plan) key = nodeId := by
  have base := base_canonical (.inr holds)
  obtain ⟨unnamed,unstriped,primary⟩ := resolved_none unplaced
  have unnamed' : fileNode tables (baseKey key) = none := by
    rw [← unnamed,fileNode,baseKey_canonical base]
    rfl
  cases plan with
  | none =>
    cases takes
    exact primary
  | some plan =>
    cases plan with
    | single node placed =>
      cases takes
      rw [persistPlan,← home_base (.inr holds),home_single base,unnamed',unstriped]
      rfl
    | striped primary plans => cases takes

theorem deleteParts_answers {rows : List StripePartRow} (ran : deleteParts net rows store = (after,.ok ())) :
    ∀ row ∈ rows, answers net row.storageNodeId := by
  induction rows generalizing store with
  | nil => exact fun _ member => nomatch member
  | cons row rest ih =>
    obtain ⟨middle,first,later⟩ := chain_ok ran
    intro other member
    rcases List.mem_cons.mp member with rfl | member
    · obtain ⟨middle,known,sent⟩ := chain_ok first
      obtain ⟨_,known⟩ := Prod.mk.inj known
      unfold clientForNodeId at known
      split at known
      · rename_i registered
        refine ⟨registered,?_⟩
        unfold clientDelete at sent
        split at sent
        · assumption
        · cases sent
      · cases known
    · exact ih later other member

theorem putReserved_ok (ran : putReserved net nodeId key object store = (after,.ok ()))
    (fits : net.registered nodeId = true → net.up nodePrimary = true → nodeId = nodePrimary ∨ net.up nodeId = true) :
    net.up nodeId = true ∧ after = {store with objects := store.objects.set (nodeId,key) object} := by
  obtain ⟨middle,known,sent⟩ := chain_ok ran
  obtain ⟨rfl,known⟩ := Prod.mk.inj known
  unfold clientPut at sent
  by_cases up : net.up nodeId = true
  · rw [if_pos up] at sent
    cases sent
    exact ⟨up,rfl⟩
  · rw [if_neg up,orPrimary] at sent
    split at sent
    · rename_i other
      have registered : net.registered nodeId = true := by
        unfold clientForNodeId at known
        split at known
        · rename_i allowed
          exact allowed.resolve_left other
        · cases known
      exact absurd (fits registered (clientPut_up sent)) (fun both => both.elim other up)
    · cases sent

end placements

section steps
variable {sys next : System} {net : Network} {key other : Key} {object : Object} {after : Store} {call : Call}
  {nodeId : Option String} {written : KeyMap Key (Option String × Object)}

-- What a PUT of a derived key leaves behind: its object on the node it resolves to, which
-- is the one it resolved to before unless no other key is there.
structure Put (sys : System) (key : Key) (object : Object) (nodeId : Option String) (after : Store) : Prop where
  node : nodeId = some (home after.tables key)
  stored : after.objects.get (home after.tables key,key) = some object
  stays : home after.tables key = home sys.store.tables key ∨ Alone sys key

theorem settled_put {plan : Option UploadPlacementPlan} {nodeId : String}
    (unplaced : resolveNodeForKey sys.store.tables key = none) (settles : Settles sys key nodeId plan)
    (there : home after.tables key = nodeId) (stored : after.objects.get (nodeId,key) = some object) :
    Put sys key object (target plan) after := by
  obtain ⟨takes,alone⟩ := settles
  subst there
  refine ⟨takes,stored,?_⟩
  rcases alone with primary | alone
  · exact .inl (primary.trans (resolved_none unplaced).2.2.symm)
  · exact .inr alone

theorem planned_put (holds : sidecar key = true) (unplaced : resolveNodeForKey sys.store.tables key = none)
    (fits : ∀ plan, planFor net.snapshots (baseKey key) object = .ok plan → Reaches net plan → ∃ nodeId, Settles sys key nodeId plan)
    (ran : putPlanned net key object sys.store = (after,.ok ())) :
    Put sys key object (plannedNode net.snapshots key object) after := by
  obtain ⟨plan,planned,reaches,tables,objects⟩ := putPlanned_ok ran
  obtain ⟨nodeId,settles⟩ := fits plan planned reaches
  have put : Put sys key object (target plan) after := by
    refine settled_put unplaced settles ?_ ?_
    · rw [tables]
      exact home_settled holds unplaced settles.1
    · rw [objects nodeId settles.1]
      exact get_set_self
  rwa [plannedNode,planned]

theorem routed_put (holds : sidecar key = true) (fits : SideFits sys net key (.putRouted object))
    (ran : putRouted net key object sys.store = (after,.ok ())) :
    Put sys key object (putNode net key sys.store (.putRouted object)) after := by
  rw [putRouted,if_pos (sidecar_derived holds)] at ran
  unfold SideFits at fits
  unfold putNode
  cases resolved : resolveNodeForKey sys.store.tables key with
  | none =>
    rw [resolved] at ran fits
    exact planned_put holds resolved fits ran
  | some nodeId =>
    rw [resolved] at ran fits
    obtain ⟨up,rfl⟩ := putReserved_ok ran fits
    have there : home sys.store.tables key = nodeId := by rw [home,resolved]; rfl
    refine ⟨?_,?_,.inl rfl⟩
    · dsimp only
      rw [there,if_pos up]
    · dsimp only
      rw [there]
      exact get_set_self

theorem streamed_put (holds : sidecar key = true) (fits : SideFits sys net key (.putStream again object))
    (ran : putStream net again key object sys.store = (after,.ok ())) :
    Put sys key object (putNode net key sys.store (.putStream again object)) after := by
  rw [putStream,if_pos (sidecar_derived holds)] at ran
  unfold putNode
  cases resolved : resolveNodeForKey sys.store.tables key with
  | some nodeId =>
    rw [resolved] at ran
    obtain ⟨_,rfl⟩ := nodePut_ok ran
    have there : home sys.store.tables key = nodeId := by rw [home,resolved]; rfl
    refine ⟨congrArg some there.symm,?_,.inl rfl⟩
    dsimp only
    rw [there]
    exact get_set_self
  | none =>
    rw [resolved] at ran
    have fits := fits resolved
    by_cases striped : ∃ primary plans, planFor net.snapshots (baseKey key) object = .ok (some (.striped primary plans))
    · obtain ⟨primary,plans,planned⟩ := striped
      rw [putStreamPlanned_striped planned] at ran
      obtain ⟨middle,put,persisted⟩ := chain_ok ran
      cases persisted
      rw [putRouted,if_pos (sidecar_derived holds),resolved] at put
      obtain ⟨second,looked,reaches,tables,objects⟩ := putPlanned_ok put
      have settles := fits _ planned second looked reaches
      have base := base_canonical (.inr holds)
      have unnamed : fileNode middle.tables (baseKey key) = none := by
        have same : fileNode middle.tables (baseKey key) = fileNode sys.store.tables key := by
          rw [tables,fileNode,fileNode,baseKey_canonical base]
          cases second with
          | none => rfl
          | some plan => cases plan with
            | single nodeId placed => rfl
            | striped primary plans => rfl
        rw [same]
        exact (resolved_none resolved).1
      have put : Put sys key object (target second)
          {middle with tables := persistPlacement middle.tables (baseKey key) (.striped primary plans)} := by
        refine settled_put resolved settles ?_ ?_
        · rw [← home_base (.inr holds),home_striped base (planUpload_primary (planFor_some planned).2),unnamed]
          rfl
        · dsimp only
          rw [objects primary settles.1]
          exact get_set_self
      dsimp only
      rw [planned,plannedNode]
      dsimp only
      rwa [looked]
    · have unstriped : ∀ primary plans, planFor net.snapshots (baseKey key) object ≠ .ok (some (.striped primary plans)) :=
        fun primary plans planned => striped ⟨primary,plans,planned⟩
      rw [putStreamPlanned_single unstriped] at ran
      have single : ∀ plan, planFor net.snapshots (baseKey key) object = .ok plan → Reaches net plan →
          ∃ nodeId, Settles sys key nodeId plan := by
        intro plan planned reaches
        have here := fits plan planned
        split at here
        · exact absurd planned (unstriped _ _)
        · exact here reaches
      have put := planned_put holds resolved single ran
      dsimp only
      unfold plannedNode at put
      split
      · rename_i planned
        exact absurd planned (unstriped _ _)
      · rename_i planned
        rwa [planned] at put
      · rename_i planned
        rwa [planned] at put

theorem file_stays (holds : canonical key = true) (fits : FileFits sys net key call)
    (ran : call.perform net key sys.store = (after,.ok ())) : home after.tables key = home sys.store.tables key := by
  have self := baseKey_canonical holds
  cases call with
  | putRouted object =>
    rw [Call.perform,putRouted_planned holds] at ran
    obtain ⟨plan,planned,reaches,tables,_⟩ := putPlanned_ok ran
    rw [self] at planned tables
    rw [tables]
    exact home_keeps holds planned (fits plan planned reaches)
  | putStream again object =>
    rw [Call.perform,putStream_planned holds] at ran
    by_cases striped : ∃ primary plans, planFor net.snapshots (baseKey key) object = .ok (some (.striped primary plans))
    · obtain ⟨primary,plans,planned⟩ := striped
      rw [putStreamPlanned_striped planned] at ran
      obtain ⟨middle,put,persisted⟩ := chain_ok ran
      cases persisted
      rw [self] at planned
      rw [putRouted_planned holds] at put
      obtain ⟨second,looked,reaches,tables,_⟩ := putPlanned_ok put
      rw [self] at looked
      have keeps := fits _ planned second looked reaches
      have same : fileNode middle.tables key = fileNode sys.store.tables key := by
        rw [tables]
        cases second with
        | none => rfl
        | some plan => cases plan with
          | single nodeId placed => rfl
          | striped primary plans => rfl
      have kept : home (persistPlan sys.store.tables key _) key = home sys.store.tables key := home_keeps holds planned keeps
      rw [persistPlan,home_striped holds (planUpload_primary (planFor_some planned).2)] at kept
      dsimp only
      rw [self,home_striped holds (planUpload_primary (planFor_some planned).2),same]
      exact kept
    · have unstriped : ∀ primary plans, planFor net.snapshots (baseKey key) object ≠ .ok (some (.striped primary plans)) :=
        fun primary plans planned => striped ⟨primary,plans,planned⟩
      rw [putStreamPlanned_single unstriped] at ran
      obtain ⟨plan,planned,reaches,tables,_⟩ := putPlanned_ok ran
      rw [tables,self]
      rw [self] at planned unstriped
      refine home_keeps holds planned ?_
      have here := fits plan planned
      split at here
      · exact absurd planned (unstriped _ _)
      · exact here reaches
  | delete =>
    rw [Call.perform,delete,canonical_underived holds,stripePartsForKey,self] at ran
    split at ran
    · rw [nodeDelete_ok ran]
    · rename_i striped
      obtain ⟨middle,deleted,forgotten⟩ := chain_ok ran
      cases forgotten
      have tables : middle.tables = sys.store.tables := by
        have kept : (deleteParts net (loadStripeParts sys.store.tables key) sys.store).1.tables = sys.store.tables := deleteParts_tables
        rwa [deleted] at kept
      have now := fits (deleteParts_answers deleted)
      have files : fileNode {middle.tables with
          parts := middle.tables.parts.remove key, placements := middle.tables.placements.remove key} key =
          fileNode sys.store.tables key := by rw [← tables]; rfl
      have rows : loadStripeParts {middle.tables with
          parts := middle.tables.parts.remove key, placements := middle.tables.placements.remove key} key = [] := by
        rw [loadStripeParts,get_remove_self]
        rfl
      have placed : KeyMap.get (middle.tables.placements.remove key) key = none := get_remove_self
      dsimp only
      unfold home resolveNodeForKey at now ⊢
      rw [self] at now ⊢
      rw [files,rows,placed]
      cases named : fileNode sys.store.tables key with
      | some nodeId => rfl
      | none =>
        rw [named] at now
        rcases now with absent | single | same
        · exact absurd rfl absent
        · exact absurd (.inr single) striped
        · exact same.symm

structure Sound (sys : System) : Prop where
  filing : Filing sys.store.tables
  held : ∀ key nodeId object, sys.written.get key = some (nodeId,object) →
    sidecar key = true ∧ nodeId = some (home sys.store.tables key) ∧
    sys.store.objects.get (home sys.store.tables key,key) = some object

theorem Sound.resolved (sound : Sound sys) : Resolved sys := by
  intro key nodeId object found
  obtain ⟨holds,node,stored⟩ := sound.held key nodeId object found
  refine ⟨node,?_⟩
  intro net answering
  have known : clientForNodeId net (home sys.store.tables key) = .ok () := if_pos answering.1
  refine ⟨?_,?_,?_⟩
  · rw [getStream,if_pos (.inl (sidecar_derived holds)),nodeGet,known]
    simp only [clientGet,answering.2,if_true,stored]
  · rw [keyExists,if_pos (.inl (sidecar_derived holds)),nodeExists,known]
    simp only [clientExists,answering.2,if_true,KeyMap.contains,stored,isSome_some]
  · rw [delete,if_pos (.inl (sidecar_derived holds)),nodeDelete,known,chain]
    simp only [clientDelete,answering.2,if_true]

theorem call_fits (fits : Fits sys (.call net key call)) :
    (sidecar key = true → SideFits sys net key call) ∧ (sidecar key = false → Held sys key → FileFits sys net key call) := by
  simp only [Fits] at fits
  split at fits
  · rename_i side
    exact ⟨fun _ => fits,fun file => absurd (side.symm.trans file) (by decide)⟩
  · rename_i file
    exact ⟨fun side => absurd side file,fun _ => fits⟩

theorem side_put (holds : sidecar key = true) (fits : SideFits sys net key call)
    (ran : call.perform net key sys.store = (after,.ok ())) (puts : call.promise = .holds object) :
    Put sys key object (putNode net key sys.store call) after := by
  cases call with
  | putRouted other =>
    cases puts
    exact routed_put holds fits ran
  | putStream again other =>
    cases puts
    exact streamed_put holds fits ran
  | delete => cases puts

section
variable (sound : Sound sys) (holds : canonical key = true ∨ sidecar key = true) (fits : Fits sys (.call net key call))
include sound holds fits

theorem home_stays
    {entry : Option String × Object} (found : sys.written.get other = some entry) (ne : other ≠ key) :
    home (call.perform net key sys.store).1.tables other = home sys.store.tables other := by
  have derived := (sound.held other entry.1 entry.2 found).1
  have touches := (perform_keeps net call (holds.imp_right sidecar_derived) sound.filing).1
  by_cases same : baseKey other = baseKey key
  · have moved : home (call.perform net key sys.store).1.tables key = home sys.store.tables key := by
      cases ran : call.perform net key sys.store with
      | mk after answer =>
        cases answer with
        | error e =>
          have kept := perform_failed call e (by rw [ran])
          rw [ran] at kept
          rw [kept]
        | ok done =>
          rcases holds with file | side
          · refine file_stays file ((call_fits fits).2 (canonical_unsided file) ⟨other,entry,found,?_⟩) ran
            rw [same,baseKey_canonical file]
          · cases call with
            | delete =>
              rw [Call.perform,delete,if_pos (.inl (sidecar_derived side))] at ran
              rw [nodeDelete_ok ran]
            | putRouted object =>
              exact (side_put side ((call_fits fits).1 side) ran rfl).stays.resolve_right
                (fun alone => ne (alone other entry found same))
            | putStream again object =>
              exact (side_put side ((call_fits fits).1 side) ran rfl).stays.resolve_right
                (fun alone => ne (alone other entry found same))
    have based : ∀ tables, home tables other = home tables key := by
      intro tables
      rw [← home_base (.inr derived),same,home_base holds]
    rw [based,based,moved]
  · exact home_touches touches same

theorem others_stay
    (found : sys.written.get other = some (nodeId,object)) (ne : other ≠ key) :
    sidecar other = true ∧ nodeId = some (home (call.perform net key sys.store).1.tables other) ∧
    (call.perform net key sys.store).1.objects.get (home (call.perform net key sys.store).1.tables other,other) = some object := by
  obtain ⟨derived,node,stored⟩ := sound.held other nodeId object found
  have touches := (perform_keeps net call (holds.imp_right sidecar_derived) sound.filing).1
  rw [home_stays sound holds fits found ne,touches.objects _ _ (fun piece => ne (sidecar_apart holds derived piece))]
  exact ⟨derived,node,stored⟩

end

theorem note_cases {note' : Option String × Object}
    (found : (note key nodeId written call).get key = some note') : call.promise = .holds note'.2 ∧ note'.1 = nodeId := by
  unfold note at found
  cases call with
  | delete =>
    rw [get_remove_self] at found
    cases found
  | putRouted written =>
    rw [get_set_self] at found
    cases found
    exact ⟨rfl,rfl⟩
  | putStream again written =>
    rw [get_set_self] at found
    cases found
    exact ⟨rfl,rfl⟩

theorem own_held (sound : Sound sys) (fits : Fits sys (.call net key call))
    (found : (if sidecar key = true then
        match (call.perform net key sys.store).2 with
        | .ok () => note key (putNode net key sys.store call) sys.written call
        | .error _ => sys.written.remove key
      else sys.written).get key = some (nodeId,object)) :
    sidecar key = true ∧ nodeId = some (home (call.perform net key sys.store).1.tables key) ∧
    (call.perform net key sys.store).1.objects.get (home (call.perform net key sys.store).1.tables key,key) = some object := by
  by_cases side : sidecar key = true
  · rw [if_pos side] at found
    cases ran : call.perform net key sys.store with
    | mk after answer =>
      rw [ran] at found
      cases answer with
      | error e =>
        dsimp only at found
        rw [get_remove_self] at found
        cases found
      | ok done =>
        obtain ⟨puts,here⟩ := note_cases found
        have put : Put sys key object (putNode net key sys.store call) after := side_put side ((call_fits fits).1 side) ran puts
        exact ⟨side,here.trans put.node,put.stored⟩
  · rw [if_neg side] at found
    exact absurd (sound.held key nodeId object found).1 side

theorem note_ne (ne : other ≠ key) :
    (note key nodeId written call).get other = written.get other := by
  unfold note
  cases call with
  | delete => exact get_remove_ne ne
  | putRouted written => exact get_set_ne ne
  | putStream again written => exact get_set_ne ne

theorem call_sound (sound : Sound sys) (holds : canonical key = true ∨ sidecar key = true) (fits : Fits sys (.call net key call)) :
    Sound ⟨(call.perform net key sys.store).1,if sidecar key = true then
        match (call.perform net key sys.store).2 with
        | .ok () => note key (putNode net key sys.store call) sys.written call
        | .error _ => sys.written.remove key
      else sys.written⟩ := by
  refine ⟨(perform_keeps net call (holds.imp_right sidecar_derived) sound.filing).2,?_⟩
  intro other nodeId object found
  by_cases same : other = key
  · subst same
    exact own_held sound fits found
  · refine others_stay sound holds fits ?_ same
    dsimp only at found
    split at found
    · split at found
      · rwa [note_ne same] at found
      · rwa [get_remove_ne same] at found
    · exact found

theorem row_sound {fileId : String} {row : Option (Option String)} (sound : Sound sys) (fits : Fits sys (.row fileId row)) :
    Sound {sys with store := {sys.store with tables := setRow fileId row sys.store.tables}} := by
  refine ⟨?_,?_⟩
  · intro key holds part member
    refine sound.filing key holds part ?_
    cases row with
    | none => exact member
    | some nodeId => exact member
  · intro key nodeId object found
    obtain ⟨derived,node,stored⟩ := sound.held key nodeId object found
    dsimp only
    rw [fits key (nodeId,object) found]
    exact ⟨derived,node,stored⟩

theorem step_sound {e : Event} (sound : Sound sys) (fits : Fits sys e) (fired : step sys e = some next) : Sound next := by
  cases e with
  | call net key call =>
    dsimp only [step] at fired
    split at fired
    · rename_i allowed
      cases fired
      exact call_sound sound allowed.1 fits
    · cases fired
  | row fileId row =>
    cases fired
    exact row_sound sound fits

theorem empty_sound : Sound empty := ⟨fun _ _ _ member => (nomatch member),fun _ _ _ found => (nomatch found)⟩

end steps

theorem sidecars_resolved {events : List Event} {sys : System} (ran : Schedule.run step empty events = some sys)
    (fits : Schedule.Along step Fits empty events) : Resolved sys :=
  (Schedule.run_along (fun _ _ _ sound fits fired => step_sound sound fits fired) empty_sound fits ran).resolved

def thumbnail : Key := ["users","u","files","f","thumbnail.webp"]

def picture : Object := ⟨"image/webp",[7]⟩

def besideRun : List Event :=
  [.call (twoNodes 9) reports (.putRouted ⟨"text/plain",[1,2,3]⟩),.call (twoNodes 2) thumbnail (.putRouted picture)]

theorem sidecars_resolved_beside : ∃ sys, Schedule.run step empty besideRun = some sys ∧
    sys.written.get thumbnail = some (some "a",picture) ∧ Resolved sys := by
  refine ⟨_,rfl,by decide +kernel,sidecars_resolved (show Schedule.run step empty besideRun = some _ from rfl) ⟨?_,?_⟩⟩
  · rintro ⟨other,entry,found,_⟩
    cases found
  · intro next fired
    cases fired
    refine ⟨?_,fun _ _ => trivial⟩
    exact fun _ _ => .inr rfl

def overtakenRun : List Event :=
  [.call (twoNodes 9) thumbnail (.putRouted picture),.call ⟨[⟨"b",none,0⟩],fun _ => true,fun _ => true⟩ reports (.putRouted ⟨"text/plain",[1]⟩)]

theorem thumbnail_lost : ¬∀ events sys, Schedule.run step empty events = some sys → Resolved sys := by
  intro all
  obtain ⟨sys,ran,shown⟩ := map_eq_some_iff.mp (by decide +kernel :
    (Schedule.run step empty overtakenRun).map (fun sys => (sys.written.get thumbnail,home sys.store.tables thumbnail)) =
      some (some (some "a",picture),"b"))
  obtain ⟨written,there⟩ := Prod.mk.inj shown
  have node := (all overtakenRun sys ran thumbnail _ picture written).1
  rw [there] at node
  exact absurd node (by decide)

end Ownly.Storage.Sidecars
