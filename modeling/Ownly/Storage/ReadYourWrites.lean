import Ownly.Lib.Schedule
import Ownly.Storage.Effects

-- Calls on the blobs of files, one after the other, while the nodes come, go and fill
-- up: what is read back of a key, and what is left of it.
namespace Ownly.Storage
open KeyMap

inductive Call where
  | putRouted (object : Object)
  | putStream (again : List NodeSnapshot) (object : Object)
  | delete

def Call.perform (net : Network) (key : Key) : Call → Store → Store × Except Failure Unit
  | .putRouted object => Storage.putRouted net key object
  | .putStream again object => Storage.putStream net again key object
  | .delete => Storage.delete net key

-- What the last call on a key has promised; none where that call has failed.
inductive Content where
  | holds (object : Object)
  | gone
  deriving DecidableEq, Repr

def Call.promise : Call → Content
  | .putRouted object => .holds object
  | .putStream _ object => .holds object
  | .delete => .gone

structure System where
  store : Store
  last : KeyMap Key Content

-- `row` is what becomes of a files row in the meantime: inserted, linked, deleted.
inductive Event where
  | call (net : Network) (key : Key) (call : Call)
  | row (fileId : String) (row : Option (Option String))

def setRow (fileId : String) (row : Option (Option String)) (tables : Tables) : Tables :=
  match row with
  | some nodeId => {tables with files := tables.files.set fileId nodeId}
  | none => {tables with files := tables.files.remove fileId}

-- The bytes of a PUT are counted in a u64.
def Call.Sized : Call → Prop
  | .putRouted object => object.bytes.length < 2^64
  | .putStream _ object => object.bytes.length < 2^64
  | .delete => True

instance (call : Call) : Decidable call.Sized := by
  unfold Call.Sized
  split
  · infer_instance
  · infer_instance
  · infer_instance

def step (sys : System) : Event → Option System
  | .call net key call =>
    if canonical key = true ∧ call.Sized then
      match call.perform net key sys.store with
      | (store,.ok ()) => some ⟨store,sys.last.set key call.promise⟩
      | (store,.error _) => some ⟨store,sys.last.remove key⟩
    else none
  | .row fileId row => some {sys with store := {sys.store with tables := setRow fileId row sys.store.tables}}

def empty : System := ⟨⟨⟨KeyMap.empty,KeyMap.empty,KeyMap.empty⟩,KeyMap.empty⟩,KeyMap.empty⟩

-- With every node there, a key reads as it was last put, and nothing is left of a
-- deleted one.
def Faithful (sys : System) : Prop := ∀ key content, sys.last.get key = some content →
  match content with
  | .holds object => getStream everyNode key sys.store = .ok object
  | .gone => keyExists everyNode key sys.store = .ok false ∧
    ∀ nodeId objectKey, Piece key objectKey → sys.store.objects.get (nodeId,objectKey) = none

-- The tables will send the reader where the plan puts the bytes.
def Lands (net : Network) (tables : Tables) (key : Key) : Option UploadPlacementPlan → Prop
  | none => answers net nodePrimary → loadStripeParts tables key = [] ∧ home tables key = nodePrimary
  | some (.single nodeId _) => answers net nodeId →
    loadStripeParts tables key = [] ∧ (fileNode tables key = none ∨ fileNode tables key = some nodeId)
  | some (.striped _ parts) => (∀ part ∈ parts, answers net part.nodeId) →
    (loadStripeParts tables key).length ≤ parts.length

-- A PUT lands; a second plan of a streamed PUT takes the same nodes; DELETE finds no
-- piece of the key but where the reader looks; and a files row is not changed under a
-- blob that is found through it.
def Fits (sys : System) : Event → Prop
  | .call net key (.putRouted object) => ∀ plan, planFor net.snapshots key object = .ok plan → Lands net sys.store.tables key plan
  | .call net key (.putStream again object) => ∀ plan, planFor net.snapshots key object = .ok plan →
    match plan with
    | some (.striped _ parts) => ∀ second, planFor again key object = .ok second →
      Lands net sys.store.tables key second ∧
        ∃ primary parts', second = some (.striped primary parts') ∧
          parts'.map StripePartPlan.nodeId = parts.map StripePartPlan.nodeId
    | plan => Lands net sys.store.tables key plan
  | .call _ key .delete => ∀ nodeId objectKey, Piece key objectKey →
    (sys.store.objects.get (nodeId,objectKey)).isSome = true → (nodeId,objectKey) ∈ places sys.store key
  | .row fileId row => ∀ key object, sys.last.get key = some (.holds object) →
    loadStripeParts sys.store.tables key = [] →
    home (setRow fileId row sys.store.tables) key = home sys.store.tables key

section calls
variable {net : Network} {nodeId : String} {key other objectKey : Key} {object : Object} {store after : Store} {tables : Tables}
  {ct : String} {data : Bytes} {plans : List StripePartPlan} {rows : List StripePartRow} {chunks : List Bytes}

theorem putPlanned_reads (holds : canonical key = true) (sized : object.bytes.length < 2^64)
    (lands : ∀ plan, planFor net.snapshots key object = .ok plan → Lands net store.tables key plan)
    (ran : putPlanned net key object store = (after,.ok ())) : getStream everyNode key after = .ok object := by
  by_cases none : net.snapshots = []
  · have planned : planFor net.snapshots key object = .ok Option.none := if_pos none
    rw [putPlanned,if_pos none] at ran
    obtain ⟨single,there⟩ := lands _ planned ⟨.inl rfl,clientPut_up ran⟩
    exact primary_reads holds single there ran
  · have whole := ran
    rw [putPlanned,if_neg none,baseKey_canonical holds] at ran
    cases upload : planUpload net.snapshots key object.bytes.length with
    | error e => rw [upload] at ran; cases ran
    | ok plan =>
      have planned : planFor net.snapshots key object = .ok (some plan) := by
        rw [planFor,if_neg none,upload]
        rfl
      rw [upload] at ran
      cases plan with
      | single nodeId placed =>
        obtain ⟨middle,put,_⟩ := chain_ok ran
        obtain ⟨single,named⟩ := lands _ planned (nodePut_ok put).1
        exact single_reads holds single named ran
      | striped primary plans =>
        have covered := lands _ planned (putPlanned_answers net holds sized planned whole)
        obtain ⟨rows,chunks,filed,same⟩ := putPlanned_striped net holds sized planned covered whole
        have nonempty := rows_nonempty (planFor_striped sized planned).1
        exact getStream_striped holds (by rw [rows]; exact nonempty) (by rw [rows]; exact filed) same

theorem putStream_reads {again : List NodeSnapshot} (holds : canonical key = true) (sized : object.bytes.length < 2^64)
    (fits : ∀ plan, planFor net.snapshots key object = .ok plan →
      match plan with
      | some (.striped _ parts) => ∀ second, planFor again key object = .ok second → Lands net store.tables key second ∧
        ∃ primary parts', second = some (.striped primary parts') ∧
          parts'.map StripePartPlan.nodeId = parts.map StripePartPlan.nodeId
      | plan => Lands net store.tables key plan)
    (ran : putStreamPlanned net again key object store = (after,.ok ())) : getStream everyNode key after = .ok object := by
  by_cases none : net.snapshots = []
  · have planned : planFor net.snapshots key object = .ok Option.none := if_pos none
    rw [putStreamPlanned,if_pos none] at ran
    obtain ⟨single,there⟩ := fits _ planned ⟨.inl rfl,clientPut_up ran⟩
    exact primary_reads holds single there ran
  · rw [putStreamPlanned,if_neg none,baseKey_canonical holds] at ran
    cases upload : planUpload net.snapshots key object.bytes.length with
    | error e => rw [upload] at ran; cases ran
    | ok plan =>
      have planned : planFor net.snapshots key object = .ok (some plan) := by
        rw [planFor,if_neg none,upload]
        rfl
      rw [upload] at ran
      cases plan with
      | single nodeId placed =>
        obtain ⟨middle,put,_⟩ := chain_ok ran
        obtain ⟨single,named⟩ := fits _ planned (nodePut_ok put).1
        exact single_reads holds single named ran
      | striped primary plans =>
        obtain ⟨middle,put,persisted⟩ := chain_ok ran
        obtain ⟨rfl,_⟩ := Prod.mk.inj persisted
        rw [putRouted,canonical_underived holds,if_neg Bool.false_ne_true] at put
        -- the second plan was carried out, so there is one
        obtain ⟨second,looked⟩ : ∃ second, planFor again key object = .ok second := by
          unfold planFor
          split
          · exact ⟨_,rfl⟩
          · rename_i some_node
            cases again_upload : planUpload again key object.bytes.length with
            | ok plan => exact ⟨_,rfl⟩
            | error e =>
              rw [putPlanned,if_neg some_node,baseKey_canonical holds] at put
              dsimp only at put
              rw [again_upload] at put
              cases put
        obtain ⟨lands,primary',plans',rfl,nodes⟩ := fits _ planned second looked
        obtain ⟨nonempty,numbered,_⟩ := planFor_striped sized planned
        have numbered' := (planFor_striped sized looked).2.1
        have covered := lands (putPlanned_answers {net with snapshots := again} holds sized looked put)
        obtain ⟨rows,chunks,filed,same⟩ := putPlanned_striped {net with snapshots := again} holds sized looked covered put
        have equal : plans'.length = plans.length := by
          have lengths := congrArg List.length nodes
          rwa [List.length_map,List.length_map] at lengths
        have last : loadStripeParts (persistPlacement middle.tables key (.striped primary plans)) key =
            plans.map StripePartPlan.row := by
          rw [persist_parts,rows,upsertParts_all (by rw [List.length_map,equal])]
        refine getStream_striped holds ?_ ?_ same
        · rw [last]
          exact rows_nonempty nonempty
        · rw [last]
          exact filed_congr filed (rows_places numbered numbered' nodes)

theorem perform_keeps (net : Network) (call : Call) (holds : canonical key = true ∨ isDerivedSidecarKey key = true)
    (filing : Filing store.tables) :
    Touches key store (call.perform net key store).1 ∧ Filing (call.perform net key store).1.tables := by
  cases call with
  | putRouted object => exact putRouted_keeps net key object filing
  | putStream again object => exact putStream_keeps filing
  | delete => exact delete_keeps holds filing

end calls

def Content.Kept (store : Store) (key : Key) : Content → Prop
  | .holds object => getStream everyNode key store = .ok object
  | .gone => ∀ nodeId objectKey, Piece key objectKey → store.objects.get (nodeId,objectKey) = none

structure Sound (sys : System) : Prop where
  filing : Filing sys.store.tables
  kept : ∀ key content, sys.last.get key = some content → canonical key = true ∧ content.Kept sys.store key

theorem Sound.faithful {sys : System} (sound : Sound sys) : Faithful sys := by
  intro key content found
  obtain ⟨holds,kept⟩ := sound.kept key content found
  cases content with
  | holds object => exact kept
  | gone => exact ⟨exists_gone holds sound.filing kept,kept⟩

theorem promise_kept {sys : System} {net : Network} {key : Key} {call : Call} {store : Store} (holds : canonical key = true)
    (sized : call.Sized) (fits : Fits sys (.call net key call)) (ran : call.perform net key sys.store = (store,.ok ())) :
    call.promise.Kept store key := by
  cases call with
  | putRouted object =>
    rw [Call.perform,putRouted_planned holds] at ran
    exact putPlanned_reads holds sized fits ran
  | putStream again object =>
    rw [Call.perform,putStream_planned holds] at ran
    exact putStream_reads holds sized fits ran
  | delete => exact delete_empties holds fits ran

theorem Content.Kept.apart {content : Content} {key other : Key} {store after : Store} (kept : content.Kept store other)
    (touches : Touches key store after) (holds : canonical key = true) (ne : other ≠ key) (holds' : canonical other = true)
    (filing : Filing store.tables) : content.Kept after other := by
  cases content with
  | holds object => exact (getStream_touches touches holds ne holds' filing).trans kept
  | gone =>
    intro nodeId objectKey piece
    rw [touches.objects nodeId objectKey (fun piece' => ne (piece_apart holds' holds piece piece'))]
    exact kept nodeId objectKey piece

section steps
variable {sys next : System} {net : Network} {key : Key} {call : Call} {store : Store} {fileId : String} {row : Option (Option String)}

theorem answered_sound (sound : Sound sys) (holds : canonical key = true) (sized : call.Sized) (fits : Fits sys (.call net key call))
    (ran : call.perform net key sys.store = (store,.ok ())) : Sound ⟨store,sys.last.set key call.promise⟩ := by
  obtain ⟨touches,filing⟩ := perform_keeps net call (.inl holds) sound.filing
  rw [ran] at touches filing
  refine ⟨filing,?_⟩
  intro other content found
  by_cases same : other = key
  · subst same
    rw [get_set_self] at found
    cases found
    exact ⟨holds,promise_kept holds sized fits ran⟩
  · rw [get_set_ne same] at found
    obtain ⟨holds',kept⟩ := sound.kept other content found
    exact ⟨holds',kept.apart touches holds same holds' sound.filing⟩

theorem failed_sound {error : Failure} (sound : Sound sys) (holds : canonical key = true)
    (ran : call.perform net key sys.store = (store,.error error)) : Sound ⟨store,sys.last.remove key⟩ := by
  obtain ⟨touches,filing⟩ := perform_keeps net call (.inl holds) sound.filing
  rw [ran] at touches filing
  refine ⟨filing,?_⟩
  intro other content found
  by_cases same : other = key
  · subst same
    rw [get_remove_self] at found
    cases found
  · rw [get_remove_ne same] at found
    obtain ⟨holds',kept⟩ := sound.kept other content found
    exact ⟨holds',kept.apart touches holds same holds' sound.filing⟩

theorem row_sound (sound : Sound sys) (fits : Fits sys (.row fileId row)) :
    Sound {sys with store := {sys.store with tables := setRow fileId row sys.store.tables}} := by
  have rows : ∀ key, loadStripeParts (setRow fileId row sys.store.tables) key = loadStripeParts sys.store.tables key := by
    intro key
    cases row with
    | none => rfl
    | some nodeId => rfl
  refine ⟨?_,?_⟩
  · intro key holds part member
    rw [rows] at member
    exact sound.filing key holds part member
  · intro key content found
    obtain ⟨holds,kept⟩ := sound.kept key content found
    refine ⟨holds,?_⟩
    cases content with
    | gone => exact kept
    | holds object =>
      change getStream everyNode key _ = .ok object
      rw [← (show getStream everyNode key sys.store = .ok object from kept)]
      unfold getStream stripePartsForKey
      rw [baseKey_canonical holds]
      dsimp only
      rw [rows]
      by_cases single : loadStripeParts sys.store.tables key = []
      · rw [if_pos (.inr single),if_pos (.inr single),fits key object found single]
        rfl
      · rw [if_neg (by rw [canonical_underived holds]; rintro (no | none); exacts [Bool.false_ne_true no,single none]),
          if_neg (by rw [canonical_underived holds]; rintro (no | none); exacts [Bool.false_ne_true no,single none])]
        exact getParts_congr (fun _ _ => rfl)

theorem step_sound {e : Event} (sound : Sound sys) (fits : Fits sys e) (fired : step sys e = some next) : Sound next := by
  cases e with
  | call net key call =>
    simp only [step] at fired
    split at fired
    · rename_i allowed
      split at fired
      · rename_i store ran
        cases fired
        exact answered_sound sound allowed.1 allowed.2 fits ran
      · rename_i store error ran
        cases fired
        exact failed_sound sound allowed.1 ran
    · cases fired
  | row fileId row =>
    cases fired
    exact row_sound sound fits

end steps


theorem empty_sound : Sound empty :=
  ⟨fun _ _ _ member => (nomatch member),fun _ _ found => (nomatch found)⟩

theorem read_your_writes {events : List Event} {sys : System} (ran : Schedule.run step empty events = some sys)
    (fits : Schedule.Along step Fits empty events) : Faithful sys :=
  (Schedule.run_along (fun _ _ _ sound fits fired => step_sound sound fits fired) empty_sound fits ran).faithful

def reports : Key := ["users","u","files","f"]

def twoNodes (capacity : Int) : Network := ⟨[⟨"a",some capacity,0⟩,⟨"b",some 2,0⟩],fun _ => true,fun _ => true⟩

def linkedRun : List Event :=
  [.call (twoNodes 9) reports (.putRouted ⟨"text/plain",[1,2,3]⟩),.row "f" (some (some "a"))]

theorem read_your_writes_linked : ∃ sys, Schedule.run step empty linkedRun = some sys ∧
    sys.last.contains reports = true ∧ Faithful sys := by
  have planned : planFor (twoNodes 9).snapshots reports ⟨"text/plain",[1,2,3]⟩ = .ok (some (.single "a" reports)) := by
    decide +kernel
  refine ⟨_,rfl,by decide,read_your_writes (show Schedule.run step empty linkedRun = some _ from rfl) ⟨?_,?_⟩⟩
  · intro plan same
    rw [planned] at same
    cases same
    exact fun _ => ⟨rfl,.inl rfl⟩
  · intro next fired
    cases fired
    refine ⟨?_,fun _ _ => trivial⟩
    intro key object found _
    by_cases here : key = reports
    · subst here
      decide
    · change (KeyMap.set KeyMap.empty reports _).get key = _ at found
      rw [get_set_ne here] at found
      cases found

def regrownRun : List Event :=
  [.call (twoNodes 2) reports (.putRouted ⟨"text/plain",[1,2,3]⟩),.call (twoNodes 9) reports (.putRouted ⟨"text/plain",[9]⟩)]

theorem stale_stripes : ¬∀ events sys, Schedule.run step empty events = some sys → Faithful sys := by
  intro all
  obtain ⟨sys,ran,shown⟩ := Option.map_eq_some_iff.mp (by decide +kernel :
    (Schedule.run step empty regrownRun).map (fun sys => (sys.last.get reports,getStream everyNode reports sys.store)) =
      some (some (.holds ⟨"text/plain",[9]⟩),.ok ⟨"text/plain",[1,2,3]⟩))
  obtain ⟨last,read⟩ := Prod.mk.inj shown
  have faithful := all regrownRun sys ran reports _ last
  rw [show getStream everyNode reports sys.store = .ok ⟨"text/plain",[9]⟩ from faithful] at read
  exact absurd read (by decide)

end Ownly.Storage
