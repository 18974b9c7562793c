import Mathlib.Data.List.Nodup
import Mathlib.Logic.Function.Basic
import Ownly.Lib.Schedule

-- frontend/src/lib/upload-pipeline.ts: the slots of the stages behind an upload, the rows
-- that wait for one, and the promises that their callers await.
namespace Ownly.Tray.Pipeline
open List Function

inductive PipelinePostStage where
  | processing
  | encrypting
  | storing
deriving DecidableEq, Repr

def pipelineStageLimit : Nat := 2

def postStages : List PipelinePostStage := [.processing,.encrypting,.storing]

-- A promise that `waitForStageSlot` made and nothing has resolved yet.
structure Waiter where
  promise : Nat
  itemId : String
  stage : PipelinePostStage
deriving DecidableEq, Repr

-- `stageSlots`, `stageWaitQueues` and `stageWaitResolvers`. A resolver is the number of
-- its promise.
structure Stages where
  slots : PipelinePostStage → List String := fun _ => []
  queues : PipelinePostStage → List String := fun _ => []
  resolvers : String → PipelinePostStage → Option Nat := fun _ _ => none
  pending : List Waiter := []
  created : Nat := 0

def addSlot (stage : PipelinePostStage) (itemId : String) (s : Stages) : Stages :=
  let slots := s.slots stage
  { s with slots := Function.update s.slots stage (if itemId ∈ slots then slots else slots ++ [itemId]) }

def tryOccupyStage (stage : PipelinePostStage) (itemId : String) (s : Stages) : Option Stages :=
  if itemId ∈ s.slots stage then some s
  else if pipelineStageLimit ≤ (s.slots stage).length then none
  else some (addSlot stage itemId s)

def resolveStageWaiter (itemId : String) (stage : PipelinePostStage) (s : Stages) : Stages :=
  match s.resolvers itemId stage with
  | none => s
  | some promise =>
    { s with
      resolvers := Function.update s.resolvers itemId (Function.update (s.resolvers itemId) stage none)
      pending := s.pending.filter (fun waiter => decide (waiter ≠ ⟨promise,itemId,stage⟩)) }

def setQueue (stage : PipelinePostStage) (queue : List String) (s : Stages) : Stages :=
  { s with queues := Function.update s.queues stage queue }

def drainQueue (stage : PipelinePostStage) : List String → Stages → Stages
  | [],s => setQueue stage [] s
  | nextId :: rest,s =>
    if (s.slots stage).length < pipelineStageLimit then
      -- `if (!nextId) break`: an empty id is shifted out and not seen again.
      if nextId = "" then setQueue stage rest s
      else drainQueue stage rest (resolveStageWaiter nextId stage (addSlot stage nextId s))
    else setQueue stage (nextId :: rest) s

def drainStageWaitQueue (stage : PipelinePostStage) (s : Stages) : Stages := drainQueue stage (s.queues stage) s

def dropQueued (itemId : String) (stage : PipelinePostStage) (s : Stages) : Stages :=
  setQueue stage ((s.queues stage).filter (fun id => decide (id ≠ itemId))) s

def removeSlot (itemId : String) (stage : PipelinePostStage) (s : Stages) : Stages :=
  { s with slots := Function.update s.slots stage ((s.slots stage).filter (fun id => decide (id ≠ itemId))) }

def releaseStageSlot (itemId : String) (stage : PipelinePostStage) (s : Stages) : Stages :=
  if itemId ∈ s.slots stage then drainStageWaitQueue stage (dropQueued itemId stage (removeSlot itemId stage s)) else s

def enqueue (itemId : String) (stage : PipelinePostStage) (s : Stages) : Stages :=
  let queue := s.queues stage
  setQueue stage (if itemId ∈ queue then queue else queue ++ [itemId])
    { s with
      resolvers := Function.update s.resolvers itemId (Function.update (s.resolvers itemId) stage (some s.created))
      pending := s.pending ++ [⟨s.created,itemId,stage⟩]
      created := s.created + 1 }

def waitForStageSlot (itemId : String) (stage : PipelinePostStage) (s : Stages) : Stages :=
  match tryOccupyStage stage itemId s with
  | some occupied => occupied
  | none => drainStageWaitQueue stage (enqueue itemId stage s)

def leaveOthers (itemId : String) (stage : PipelinePostStage) (s : Stages) : Stages :=
  (postStages.filter (fun other => decide (other ≠ stage))).foldl (fun s other => releaseStageSlot itemId other s) s

def acquirePipelineStage (itemId : String) (stage : PipelinePostStage) (s : Stages) : Stages :=
  waitForStageSlot itemId stage (leaveOthers itemId stage s)

def forgetResolvers (itemId : String) (s : Stages) : Stages :=
  { s with resolvers := Function.update s.resolvers itemId (fun _ => none) }

def releaseAllPipelineStages (itemId : String) (s : Stages) : Stages :=
  let released := postStages.foldl (fun s stage => dropQueued itemId stage (releaseStageSlot itemId stage s)) s
  postStages.foldl (fun s stage => drainStageWaitQueue stage s) (forgetResolvers itemId released)

inductive Event where
  | acquire (itemId : String) (stage : PipelinePostStage)
  | releaseAll (itemId : String)
deriving DecidableEq, Repr

def step (s : Stages) : Event → Option Stages
  | .acquire itemId stage => some (acquirePipelineStage itemId stage s)
  | .releaseAll itemId => some (releaseAllPipelineStages itemId s)

def start : Stages := {}

structure Exclusive (s : Stages) : Prop where
  limit : ∀ stage, (s.slots stage).length ≤ pipelineStageLimit
  single : ∀ itemId stage other, itemId ∈ s.slots stage → itemId ∈ s.slots other → stage = other
  idle : ∀ stage, (s.slots stage).length < pipelineStageLimit → s.queues stage = []
  heard : ∀ waiter ∈ s.pending, s.resolvers waiter.itemId waiter.stage = some waiter.promise ∧
    waiter.itemId ∈ s.queues waiter.stage

-- What else holds while the stages are exclusive.
structure Sound (s : Stages) : Prop extends Exclusive s where
  slotsOnce : ∀ stage, (s.slots stage).Nodup
  queuesOnce : ∀ stage, (s.queues stage).Nodup
  apart : ∀ itemId stage, itemId ∈ s.slots stage → itemId ∉ s.queues stage
  waiting : ∀ itemId stage, itemId ∈ s.queues stage → ∃ waiter ∈ s.pending, waiter.itemId = itemId ∧ waiter.stage = stage
  numbered : ∀ waiter ∈ s.pending, waiter.promise < s.created

-- Where the item leaves a slot, the first row that waits for it is in no other stage.
def Admits (s : Stages) (itemId : String) (stage : PipelinePostStage) : Prop :=
  itemId ∈ s.slots stage → ∀ nextId ∈ (s.queues stage).head?, nextId ≠ "" ∧ ∀ other, nextId ∉ s.slots other

-- The item is not waiting already, and its slot goes to a row that can take it.
def Timely (s : Stages) : Event → Prop
  | .acquire itemId stage => (∀ waiter ∈ s.pending, ¬(waiter.itemId = itemId ∧ waiter.stage = stage)) ∧
      ∀ other, other ≠ stage → Admits s itemId other
  | .releaseAll itemId => (∀ waiter ∈ s.pending, waiter.itemId ≠ itemId) ∧ ∀ stage, Admits s itemId stage

variable {s next : Stages} {itemId nextId x : String} {stage other : PipelinePostStage} {queue rest : List String} {waiter : Waiter}
  {stages : List PipelinePostStage}

@[simp] theorem setQueue_slots : (setQueue stage queue s).slots = s.slots := rfl
@[simp] theorem setQueue_resolvers : (setQueue stage queue s).resolvers = s.resolvers := rfl
@[simp] theorem setQueue_pending : (setQueue stage queue s).pending = s.pending := rfl
@[simp] theorem setQueue_created : (setQueue stage queue s).created = s.created := rfl
@[simp] theorem setQueue_queue : (setQueue stage queue s).queues stage = queue := update_self ..
theorem setQueue_other (ne : other ≠ stage) : (setQueue stage queue s).queues other = s.queues other :=
  update_of_ne ne _ _
theorem setQueue_same : setQueue stage (s.queues stage) s = s := by
  rw [setQueue,update_eq_self]

@[simp] theorem addSlot_queues : (addSlot stage itemId s).queues = s.queues := rfl
theorem addSlot_new (new : itemId ∉ s.slots stage) : (addSlot stage itemId s).slots stage = s.slots stage ++ [itemId] := by
  rw [addSlot]
  dsimp only
  rw [update_self,if_neg new]
theorem addSlot_other (ne : other ≠ stage) : (addSlot stage itemId s).slots other = s.slots other :=
  update_of_ne ne _ _
theorem addSlot_grows (member : x ∈ s.slots other) : x ∈ (addSlot stage itemId s).slots other := by
  by_cases same : other = stage
  · subst same
    rw [addSlot]
    dsimp only
    rw [update_self]
    split
    · exact member
    · exact mem_append_left _ member
  · rw [addSlot_other same]
    exact member

@[simp] theorem resolveStageWaiter_slots : (resolveStageWaiter itemId stage s).slots = s.slots := by
  unfold resolveStageWaiter
  split <;> rfl
@[simp] theorem resolveStageWaiter_queues : (resolveStageWaiter itemId stage s).queues = s.queues := by
  unfold resolveStageWaiter
  split <;> rfl
@[simp] theorem resolveStageWaiter_created : (resolveStageWaiter itemId stage s).created = s.created := by
  unfold resolveStageWaiter
  split <;> rfl
theorem resolveStageWaiter_resolvers (other_ : ¬(x = itemId ∧ other = stage)) :
    (resolveStageWaiter itemId stage s).resolvers x other = s.resolvers x other := by
  unfold resolveStageWaiter
  split
  · rfl
  · dsimp only
    by_cases same : x = itemId
    · subst same
      rw [update_self,update_of_ne (fun eq => other_ ⟨rfl,eq⟩)]
    · rw [update_of_ne same]
theorem resolveStageWaiter_pending (other_ : ¬(waiter.itemId = itemId ∧ waiter.stage = stage)) :
    waiter ∈ (resolveStageWaiter itemId stage s).pending ↔ waiter ∈ s.pending := by
  unfold resolveStageWaiter
  split
  · exact Iff.rfl
  · dsimp only
    rw [mem_filter,decide_eq_true_eq,and_iff_left]
    rintro rfl
    exact other_ ⟨rfl,rfl⟩
theorem resolveStageWaiter_sub (member : waiter ∈ (resolveStageWaiter itemId stage s).pending) : waiter ∈ s.pending := by
  unfold resolveStageWaiter at member
  split at member
  · exact member
  · exact (mem_filter.mp member).1
theorem resolveStageWaiter_done (heard : s.resolvers waiter.itemId waiter.stage = some waiter.promise) :
    waiter ∉ (resolveStageWaiter waiter.itemId waiter.stage s).pending := by
  unfold resolveStageWaiter
  rw [heard]
  intro member
  exact of_decide_eq_true (mem_filter.mp member).2 rfl

structure Drained (stage : PipelinePostStage) (queue : List String) (s after : Stages) : Prop where
  slots : ∀ other x, x ∈ s.slots other → x ∈ after.slots other
  left : after.queues stage <:+ queue
  slotsElse : ∀ other, other ≠ stage → after.slots other = s.slots other
  queuesElse : ∀ other, other ≠ stage → after.queues other = s.queues other
  pending : ∀ waiter ∈ s.pending, ¬(waiter.itemId ∈ queue ∧ waiter.stage = stage) → waiter ∈ after.pending
  fewer : ∀ waiter ∈ after.pending, waiter ∈ s.pending

theorem setQueue_drained (suffix : rest <:+ queue) : Drained stage queue s (setQueue stage rest s) where
  slots := fun _ _ member => member
  left := by rw [setQueue_queue]; exact suffix
  slotsElse := fun _ _ => rfl
  queuesElse := fun _ ne => setQueue_other ne
  pending := fun _ member _ => member
  fewer := fun _ member => member

theorem drainQueue_drained (stage : PipelinePostStage) (queue : List String) (s : Stages) :
    Drained stage queue s (drainQueue stage queue s) := by
  induction queue generalizing s with
  | nil => exact setQueue_drained (suffix_refl _)
  | cons nextId rest ih =>
    rw [drainQueue]
    split
    · split
      · exact setQueue_drained (suffix_cons _ _)
      · have later := ih (resolveStageWaiter nextId stage (addSlot stage nextId s))
        exact {
          slots := fun other x member => later.slots other x (by rw [resolveStageWaiter_slots]; exact addSlot_grows member)
          left := later.left.trans (suffix_cons _ _)
          slotsElse := fun other ne => by
            rw [later.slotsElse other ne,resolveStageWaiter_slots,addSlot_other ne]
          queuesElse := fun other ne => by
            rw [later.queuesElse other ne,resolveStageWaiter_queues,addSlot_queues]
          pending := by
            intro waiter member outside
            refine later.pending waiter ?_ (fun both => outside ⟨mem_cons_of_mem _ both.1,both.2⟩)
            rw [resolveStageWaiter_pending]
            · exact member
            · rintro ⟨named,at_⟩
              exact outside ⟨named ▸ mem_cons_self,at_⟩
          fewer := fun waiter member => by
            have before := resolveStageWaiter_sub (later.fewer waiter member)
            exact before }
    · exact setQueue_drained (suffix_refl _)

theorem drainStage_drained (stage : PipelinePostStage) (s : Stages) :
    Drained stage (s.queues stage) s (drainStageWaitQueue stage s) := drainQueue_drained stage _ s

theorem drain_full (full : pipelineStageLimit ≤ (s.slots stage).length) : drainQueue stage queue s = setQueue stage queue s := by
  cases queue with
  | nil => rfl
  | cons nextId rest => rw [drainQueue,if_neg (Nat.not_lt.mpr full)]

theorem drain_idle (exclusive : Exclusive s) : drainStageWaitQueue stage s = s := by
  unfold drainStageWaitQueue
  by_cases room : (s.slots stage).length < pipelineStageLimit
  · have same := exclusive.idle stage room
    rw [same,drainQueue,← same,setQueue_same]
  · rw [drain_full (Nat.not_lt.mp room),setQueue_same]

theorem dropQueued_same (absent : itemId ∉ s.queues stage) : dropQueued itemId stage s = s := by
  have same : (s.queues stage).filter (fun id => decide (id ≠ itemId)) = s.queues stage := by
    rw [filter_eq_self]
    exact fun id member => decide_eq_true (fun eq => absent (eq ▸ member))
  rw [dropQueued,same,setQueue_same]

theorem release_absent (absent : itemId ∉ s.slots stage) : releaseStageSlot itemId stage s = s := if_neg absent

theorem release_else (ne : other ≠ stage) : (releaseStageSlot itemId stage s).slots other = s.slots other ∧
    (releaseStageSlot itemId stage s).queues other = s.queues other := by
  unfold releaseStageSlot
  split
  · have drained := drainStage_drained stage (dropQueued itemId stage (removeSlot itemId stage s))
    refine ⟨(drained.slotsElse other ne).trans ?_,(drained.queuesElse other ne).trans ?_⟩
    · exact update_of_ne ne _ _
    · exact setQueue_other ne
  · exact ⟨rfl,rfl⟩

theorem mem_removeSlot : x ∈ (removeSlot itemId stage s).slots other ↔ x ∈ s.slots other ∧ (other = stage → x ≠ itemId) := by
  by_cases same : other = stage
  · subst same
    rw [removeSlot]
    dsimp only
    rw [update_self,mem_filter,decide_eq_true_eq]
    exact and_congr_right (fun _ => ⟨fun ne _ => ne,fun ne => ne rfl⟩)
  · rw [removeSlot]
    dsimp only
    rw [update_of_ne same]
    exact ⟨fun member => ⟨member,fun eq => absurd eq same⟩,And.left⟩

theorem removeSlot_length (once : (s.slots stage).Nodup) (member : itemId ∈ s.slots stage) :
    ((removeSlot itemId stage s).slots stage).length + 1 = (s.slots stage).length := by
  have erased : (removeSlot itemId stage s).slots stage = (s.slots stage).erase itemId := by
    rw [removeSlot,once.erase_eq_filter]
    dsimp only
    rw [update_self]
    apply filter_congr
    intro id _
    simp only [bne,decide_not]
    rfl
  rw [erased,length_erase_of_mem member]
  have : 0 < (s.slots stage).length := length_pos_of_mem member
  omega

theorem release_last (member : itemId ∈ s.slots stage) (empty : s.queues stage = []) :
    releaseStageSlot itemId stage s = removeSlot itemId stage s := by
  have still : (removeSlot itemId stage s).queues stage = [] := empty
  rw [releaseStageSlot,if_pos member,dropQueued_same (by rw [still]; exact not_mem_nil),drainStageWaitQueue,still,
    drainQueue,← still,setQueue_same]

def handOver (itemId nextId : String) (rest : List String) (stage : PipelinePostStage) (s : Stages) : Stages :=
  setQueue stage rest (resolveStageWaiter nextId stage (addSlot stage nextId (removeSlot itemId stage s)))

theorem release_first (sound : Sound s) (member : itemId ∈ s.slots stage) (first : s.queues stage = nextId :: rest) :
    releaseStageSlot itemId stage s =
      if nextId = "" then setQueue stage rest (removeSlot itemId stage s) else handOver itemId nextId rest stage s := by
  have still : (removeSlot itemId stage s).queues stage = nextId :: rest := first
  have absent : itemId ∉ (removeSlot itemId stage s).queues stage := sound.apart itemId stage member
  have full : (s.slots stage).length = pipelineStageLimit := by
    rcases Nat.lt_or_ge (s.slots stage).length pipelineStageLimit with less | full
    · rw [sound.idle stage less] at first
      cases first
    · exact Nat.le_antisymm (sound.limit stage) full
  have shorter := removeSlot_length (sound.slotsOnce stage) member
  have new : nextId ∉ (removeSlot itemId stage s).slots stage := by
    intro occupied
    exact sound.apart nextId stage (mem_removeSlot.mp occupied).1 (first ▸ mem_cons_self)
  rw [releaseStageSlot,if_pos member,dropQueued_same absent,drainStageWaitQueue,still,drainQueue,if_pos (by omega)]
  split
  · rfl
  · rw [handOver,drain_full]
    rw [resolveStageWaiter_slots,addSlot_new new,length_append,length_singleton]
    omega

theorem remove_sound (sound : Sound s) (empty : s.queues stage = []) : Sound (removeSlot itemId stage s) where
  limit := by
    intro other
    by_cases same : other = stage
    · subst same
      rw [removeSlot]
      dsimp only
      rw [update_self]
      exact Nat.le_trans (length_filter_le _ _) (sound.limit other)
    · rw [removeSlot]
      dsimp only
      rw [update_of_ne same]
      exact sound.limit other
  single := fun x one two first second => sound.single x one two (mem_removeSlot.mp first).1 (mem_removeSlot.mp second).1
  idle := by
    intro other room
    by_cases same : other = stage
    · subst same
      exact empty
    · rw [removeSlot] at room
      dsimp only at room
      rw [update_of_ne same] at room
      exact sound.idle other room
  heard := sound.heard
  slotsOnce := by
    intro other
    rw [removeSlot]
    dsimp only
    by_cases same : other = stage
    · subst same
      rw [update_self]
      exact (sound.slotsOnce other).filter _
    · rw [update_of_ne same]
      exact sound.slotsOnce other
  queuesOnce := sound.queuesOnce
  apart := fun x other member => sound.apart x other (mem_removeSlot.mp member).1
  waiting := sound.waiting
  numbered := sound.numbered

theorem handOver_else (ne : other ≠ stage) : (handOver itemId nextId rest stage s).slots other = s.slots other ∧
    (handOver itemId nextId rest stage s).queues other = s.queues other := by
  constructor
  · rw [handOver,setQueue_slots,resolveStageWaiter_slots,addSlot_other ne]
    exact update_of_ne ne _ _
  · rw [handOver,setQueue_other ne,resolveStageWaiter_queues]
    rfl

theorem handOver_sound (sound : Sound s) (member : itemId ∈ s.slots stage) (first : s.queues stage = nextId :: rest)
    (free : ∀ other, nextId ∉ s.slots other) : Sound (handOver itemId nextId rest stage s) := by
  have new : nextId ∉ (removeSlot itemId stage s).slots stage := fun occupied => free stage (mem_removeSlot.mp occupied).1
  have here : (handOver itemId nextId rest stage s).slots stage = (removeSlot itemId stage s).slots stage ++ [nextId] := by
    rw [handOver,setQueue_slots,resolveStageWaiter_slots,addSlot_new new]
  have left : (handOver itemId nextId rest stage s).queues stage = rest := setQueue_queue
  have shorter := removeSlot_length (sound.slotsOnce stage) member
  have once := sound.queuesOnce stage
  rw [first,nodup_cons] at once
  have slots : ∀ x other, x ∈ (handOver itemId nextId rest stage s).slots other →
      x ∈ s.slots other ∨ x = nextId ∧ other = stage := by
    intro x other present
    by_cases same : other = stage
    · subst same
      rw [here,mem_append,mem_singleton] at present
      exact present.imp (fun old => (mem_removeSlot.mp old).1) (fun eq => ⟨eq,rfl⟩)
    · rw [(handOver_else same).1] at present
      exact .inl present
  have kept : ∀ waiter, ¬(waiter.itemId = nextId ∧ waiter.stage = stage) →
      (waiter ∈ (handOver itemId nextId rest stage s).pending ↔ waiter ∈ s.pending) := by
    intro waiter apart
    rw [handOver,setQueue_pending,resolveStageWaiter_pending apart]
    rfl
  have still : ∀ waiter ∈ (handOver itemId nextId rest stage s).pending, waiter ∈ s.pending := by
    intro waiter pending
    rw [handOver,setQueue_pending] at pending
    have before := resolveStageWaiter_sub pending
    exact before
  have gone : ∀ waiter ∈ (handOver itemId nextId rest stage s).pending, ¬(waiter.itemId = nextId ∧ waiter.stage = stage) := by
    rintro waiter pending ⟨rfl,rfl⟩
    have heard : (addSlot waiter.stage waiter.itemId (removeSlot itemId waiter.stage s)).resolvers waiter.itemId waiter.stage =
      some waiter.promise := (sound.heard waiter (still waiter pending)).1
    rw [handOver,setQueue_pending] at pending
    exact resolveStageWaiter_done heard pending
  refine ⟨⟨?_,?_,?_,?_⟩,?_,?_,?_,?_,?_⟩
  · intro other
    by_cases same : other = stage
    · subst same
      rw [here,length_append,length_singleton,shorter]
      exact sound.limit other
    · rw [(handOver_else same).1]
      exact sound.limit other
  · intro x one two present also
    rcases slots x one present with old | ⟨rfl,rfl⟩
    · rcases slots x two also with old' | ⟨rfl,rfl⟩
      · exact sound.single x one two old old'
      · exact absurd old (free one)
    · rcases slots x two also with old' | ⟨_,rfl⟩
      · exact absurd old' (free two)
      · rfl
  · intro other room
    by_cases same : other = stage
    · subst same
      rw [here,length_append,length_singleton,shorter] at room
      rw [sound.idle other room] at first
      cases first
    · rw [(handOver_else same).1] at room
      rw [(handOver_else same).2]
      exact sound.idle other room
  · intro waiter pending
    obtain ⟨registered,queued⟩ := sound.heard waiter (still waiter pending)
    constructor
    · rw [handOver,setQueue_resolvers,resolveStageWaiter_resolvers (gone waiter pending)]
      exact registered
    · by_cases same : waiter.stage = stage
      · rw [same,left]
        rw [same,first] at queued
        exact (mem_cons.mp queued).resolve_left (fun eq => gone waiter pending ⟨eq,same⟩)
      · rw [(handOver_else same).2]
        exact queued
  · intro other
    by_cases same : other = stage
    · subst same
      rw [here,nodup_append]
      refine ⟨?_,nodup_singleton _,fun x old y eq => ?_⟩
      · rw [removeSlot]
        dsimp only
        rw [update_self]
        exact (sound.slotsOnce other).filter _
      · rintro rfl
        rw [mem_singleton] at eq
        exact new (eq ▸ old)
    · rw [(handOver_else same).1]
      exact sound.slotsOnce other
  · intro other
    by_cases same : other = stage
    · subst same
      rw [left]
      exact once.2
    · rw [(handOver_else same).2]
      exact sound.queuesOnce other
  · intro x other present queued
    by_cases same : other = stage
    · subst same
      rw [left] at queued
      rcases slots x other present with old | ⟨rfl,_⟩
      · exact sound.apart x other old (first ▸ mem_cons_of_mem _ queued)
      · exact once.1 queued
    · rw [(handOver_else same).1] at present
      rw [(handOver_else same).2] at queued
      exact sound.apart x other present queued
  · intro x other queued
    by_cases same : other = stage
    · subst same
      rw [left] at queued
      obtain ⟨waiter,pending,rfl,at_⟩ := sound.waiting x other (first ▸ mem_cons_of_mem _ queued)
      exact ⟨waiter,(kept waiter (fun both => once.1 (both.1 ▸ queued))).mpr pending,rfl,at_⟩
    · rw [(handOver_else same).2] at queued
      obtain ⟨waiter,pending,named,rfl⟩ := sound.waiting x other queued
      exact ⟨waiter,(kept waiter (fun both => same both.2)).mpr pending,named,rfl⟩
  · intro waiter pending
    rw [handOver,setQueue_created,resolveStageWaiter_created]
    exact sound.numbered waiter (still waiter pending)

theorem release_sound (sound : Sound s) (admits : Admits s itemId stage) : Sound (releaseStageSlot itemId stage s) := by
  by_cases member : itemId ∈ s.slots stage
  · cases first : s.queues stage with
    | nil =>
      rw [release_last member first]
      exact remove_sound sound first
    | cons nextId rest =>
      obtain ⟨named,free⟩ := admits member nextId (by rw [first]; rfl)
      rw [release_first sound member first,if_neg named]
      exact handOver_sound sound member first free
  · rw [release_absent member]
    exact sound

theorem release_pending (mine : waiter ∈ s.pending) (apart : waiter.itemId = itemId ∨ waiter.stage ≠ stage) :
    waiter ∈ (releaseStageSlot itemId stage s).pending := by
  unfold releaseStageSlot
  split
  · refine (drainStage_drained stage (dropQueued itemId stage (removeSlot itemId stage s))).pending waiter mine ?_
    rintro ⟨queued,at_⟩
    rcases apart with rfl | ne
    · rw [dropQueued,setQueue_queue] at queued
      exact of_decide_eq_true (mem_filter.mp queued).2 rfl
    · exact ne at_
  · exact mine

-- A row in two stages, or a promise whose row no longer waits.
def Doubled (s : Stages) : Prop := ∃ x stage other, stage ≠ other ∧ x ∈ s.slots stage ∧ x ∈ s.slots other

def Lost (s : Stages) (stage : PipelinePostStage) : Prop :=
  ∃ waiter ∈ s.pending, waiter.stage = stage ∧ waiter.itemId ∉ s.queues stage

theorem Doubled.not_exclusive (doubled : Doubled s) : ¬Exclusive s := by
  obtain ⟨x,stage,other,ne,first,second⟩ := doubled
  exact fun exclusive => ne (exclusive.single x stage other first second)

theorem Lost.not_exclusive (lost : Lost s stage) : ¬Exclusive s := by
  obtain ⟨waiter,pending,rfl,absent⟩ := lost
  exact fun exclusive => absent (exclusive.heard waiter pending).2

theorem release_broken (sound : Sound s) (member : itemId ∈ s.slots stage) (first : s.queues stage = nextId :: rest)
    (bad : ¬(nextId ≠ "" ∧ ∀ other, nextId ∉ s.slots other)) :
    Doubled (releaseStageSlot itemId stage s) ∨ Lost (releaseStageSlot itemId stage s) stage := by
  have once := sound.queuesOnce stage
  rw [first,nodup_cons] at once
  by_cases named : nextId = ""
  · right
    obtain ⟨waiter,pending,mine,at_⟩ := sound.waiting nextId stage (first ▸ mem_cons_self)
    rw [release_first sound member first,if_pos named]
    refine ⟨waiter,pending,at_,?_⟩
    rw [setQueue_queue,mine]
    exact once.1
  · left
    have occupied : ∃ other, nextId ∈ s.slots other := by
      by_contra none_
      exact bad ⟨named,fun other present => none_ ⟨other,present⟩⟩
    obtain ⟨other,present⟩ := occupied
    have ne : stage ≠ other := by
      rintro rfl
      exact sound.apart nextId stage present (first ▸ mem_cons_self)
    rw [release_first sound member first,if_neg named]
    refine ⟨nextId,stage,other,ne,?_,?_⟩
    · have new : nextId ∉ (removeSlot itemId stage s).slots stage := by
        intro held
        exact sound.apart nextId stage (mem_removeSlot.mp held).1 (first ▸ mem_cons_self)
      rw [handOver,setQueue_slots,resolveStageWaiter_slots,addSlot_new new]
      exact mem_append_right _ (mem_singleton.mpr rfl)
    · rw [(handOver_else ne.symm).1]
      exact present

theorem releases_absent (absent : ∀ stage ∈ stages, itemId ∉ s.slots stage) :
    stages.foldl (fun s stage => releaseStageSlot itemId stage s) s = s := by
  induction stages with
  | nil => rfl
  | cons stage rest ih =>
    rw [foldl_cons,release_absent (absent stage mem_cons_self)]
    exact ih (fun other member => absent other (mem_cons_of_mem _ member))

theorem releases_cases (exclusive : Exclusive s) (once : stages.Nodup) (itemId : String) :
    (∀ stage ∈ stages, itemId ∉ s.slots stage) ∧ stages.foldl (fun s stage => releaseStageSlot itemId stage s) s = s ∨
    ∃ stage ∈ stages, itemId ∈ s.slots stage ∧
      stages.foldl (fun s stage => releaseStageSlot itemId stage s) s = releaseStageSlot itemId stage s := by
  induction stages with
  | nil => exact .inl ⟨fun _ member => (nomatch member),rfl⟩
  | cons stage rest ih =>
    obtain ⟨apart,once⟩ := nodup_cons.mp once
    rw [foldl_cons]
    by_cases held : itemId ∈ s.slots stage
    · refine .inr ⟨stage,mem_cons_self,held,releases_absent (fun other member => ?_)⟩
      have ne : other ≠ stage := fun eq => apart (eq ▸ member)
      rw [(release_else ne).1]
      exact fun also => ne (exclusive.single itemId other stage also held)
    · rw [release_absent held]
      rcases ih once with ⟨absent,same⟩ | ⟨other,member,found,same⟩
      · refine .inl ⟨fun other member => ?_,same⟩
        rcases mem_cons.mp member with rfl | late
        · exact held
        · exact absent other late
      · exact .inr ⟨other,mem_cons_of_mem _ member,found,same⟩

theorem leaveOthers_cases (exclusive : Exclusive s) (itemId : String) (stage : PipelinePostStage) :
    (∀ other, other ≠ stage → itemId ∉ s.slots other) ∧ leaveOthers itemId stage s = s ∨
    ∃ other, other ≠ stage ∧ itemId ∈ s.slots other ∧ leaveOthers itemId stage s = releaseStageSlot itemId other s := by
  have every : ∀ other, other ∈ postStages.filter (fun other => decide (other ≠ stage)) ↔ other ≠ stage := by
    intro other
    rw [mem_filter,decide_eq_true_eq]
    exact ⟨And.right,fun ne => ⟨by cases other <;> decide,ne⟩⟩
  have once : (postStages.filter (fun other => decide (other ≠ stage))).Nodup := by cases stage <;> decide
  rcases releases_cases exclusive once itemId with ⟨absent,same⟩ | ⟨other,member,held,same⟩
  · exact .inl ⟨fun other ne => absent other ((every other).mpr ne),same⟩
  · exact .inr ⟨other,(every other).mp member,held,same⟩

theorem release_gone (sound : Sound s) (member : itemId ∈ s.slots stage) : itemId ∉ (releaseStageSlot itemId stage s).slots stage := by
  have removed : itemId ∉ (removeSlot itemId stage s).slots stage := fun held => (mem_removeSlot.mp held).2 rfl rfl
  cases first : s.queues stage with
  | nil =>
    rw [release_last member first]
    exact removed
  | cons nextId rest =>
    rw [release_first sound member first]
    split
    · exact removed
    · have new : nextId ∉ (removeSlot itemId stage s).slots stage := by
        intro held
        exact sound.apart nextId stage (mem_removeSlot.mp held).1 (first ▸ mem_cons_self)
      rw [handOver,setQueue_slots,resolveStageWaiter_slots,addSlot_new new,mem_append,mem_singleton,not_or]
      refine ⟨removed,?_⟩
      rintro rfl
      exact sound.apart itemId stage member (first ▸ mem_cons_self)

theorem wait_cases (itemId : String) (stage : PipelinePostStage) (s : Stages) :
    itemId ∈ s.slots stage ∧ waitForStageSlot itemId stage s = s ∨
    itemId ∉ s.slots stage ∧ (s.slots stage).length < pipelineStageLimit ∧ waitForStageSlot itemId stage s = addSlot stage itemId s ∨
    itemId ∉ s.slots stage ∧ pipelineStageLimit ≤ (s.slots stage).length ∧ waitForStageSlot itemId stage s = enqueue itemId stage s := by
  by_cases held : itemId ∈ s.slots stage
  · exact .inl ⟨held,by rw [waitForStageSlot,tryOccupyStage,if_pos held]⟩
  · by_cases full : pipelineStageLimit ≤ (s.slots stage).length
    · refine .inr (.inr ⟨held,full,?_⟩)
      have still : pipelineStageLimit ≤ ((enqueue itemId stage s).slots stage).length := full
      rw [waitForStageSlot,tryOccupyStage,if_neg held,if_pos full]
      dsimp only
      rw [drainStageWaitQueue,drain_full still,setQueue_same]
    · refine .inr (.inl ⟨held,Nat.not_le.mp full,?_⟩)
      rw [waitForStageSlot,tryOccupyStage,if_neg held,if_neg full]

theorem addSlot_sound (sound : Sound s) (alone : ∀ other, other ≠ stage → itemId ∉ s.slots other) (new : itemId ∉ s.slots stage)
    (room : (s.slots stage).length < pipelineStageLimit) : Sound (addSlot stage itemId s) := by
  have empty := sound.idle stage room
  have slots : ∀ x other, x ∈ (addSlot stage itemId s).slots other → x ∈ s.slots other ∨ x = itemId ∧ other = stage := by
    intro x other present
    by_cases same : other = stage
    · subst same
      rw [addSlot_new new,mem_append,mem_singleton] at present
      exact present.imp_right (fun eq => ⟨eq,rfl⟩)
    · rw [addSlot_other same] at present
      exact .inl present
  refine ⟨⟨?_,?_,?_,sound.heard⟩,?_,sound.queuesOnce,?_,sound.waiting,sound.numbered⟩
  · intro other
    by_cases same : other = stage
    · subst same
      rw [addSlot_new new,length_append,length_singleton]
      exact room
    · rw [addSlot_other same]
      exact sound.limit other
  · intro x one two present also
    rcases slots x one present with old | ⟨rfl,rfl⟩
    · rcases slots x two also with old' | ⟨rfl,rfl⟩
      · exact sound.single x one two old old'
      · by_contra ne
        exact alone one ne old
    · rcases slots x two also with old' | ⟨_,rfl⟩
      · by_contra ne
        exact alone two (fun eq => ne eq.symm) old'
      · rfl
  · intro other less
    by_cases same : other = stage
    · subst same
      exact empty
    · rw [addSlot_other same] at less
      exact sound.idle other less
  · intro other
    by_cases same : other = stage
    · subst same
      rw [addSlot_new new,nodup_append]
      refine ⟨sound.slotsOnce other,nodup_singleton _,fun x old y eq => ?_⟩
      rintro rfl
      rw [mem_singleton] at eq
      exact new (eq ▸ old)
    · rw [addSlot_other same]
      exact sound.slotsOnce other
  · intro x other present queued
    rw [addSlot_queues] at queued
    rcases slots x other present with old | ⟨_,rfl⟩
    · exact sound.apart x other old queued
    · rw [empty] at queued
      cases queued

theorem enqueue_resolvers (other_ : ¬(x = itemId ∧ other = stage)) :
    (enqueue itemId stage s).resolvers x other = s.resolvers x other := by
  simp only [enqueue,setQueue_resolvers]
  by_cases same : x = itemId
  · subst same
    rw [update_self,update_of_ne (fun eq => other_ ⟨rfl,eq⟩)]
  · rw [update_of_ne same]

theorem enqueue_resolver : (enqueue itemId stage s).resolvers itemId stage = some s.created := by
  simp only [enqueue,setQueue_resolvers]
  rw [update_self,update_self]

theorem enqueue_pending : waiter ∈ (enqueue itemId stage s).pending ↔ waiter ∈ s.pending ∨ waiter = ⟨s.created,itemId,stage⟩ := by
  rw [enqueue,setQueue_pending,mem_append,mem_singleton]

theorem enqueue_other (ne : other ≠ stage) : (enqueue itemId stage s).queues other = s.queues other := setQueue_other ne

theorem enqueue_sound (sound : Sound s) (new : itemId ∉ s.slots stage) (full : pipelineStageLimit ≤ (s.slots stage).length)
    (fresh : ∀ waiter ∈ s.pending, ¬(waiter.itemId = itemId ∧ waiter.stage = stage)) : Sound (enqueue itemId stage s) := by
  have unqueued : itemId ∉ s.queues stage := by
    intro queued
    obtain ⟨waiter,pending,named,at_⟩ := sound.waiting itemId stage queued
    exact fresh waiter pending ⟨named,at_⟩
  have here : (enqueue itemId stage s).queues stage = s.queues stage ++ [itemId] := by
    rw [enqueue,setQueue_queue,if_neg unqueued]
  have grows : ∀ x other, x ∈ s.queues other → x ∈ (enqueue itemId stage s).queues other := by
    intro x other queued
    by_cases same : other = stage
    · subst same
      rw [here]
      exact mem_append_left _ queued
    · rw [enqueue_other same]
      exact queued
  refine ⟨⟨sound.limit,sound.single,?_,?_⟩,sound.slotsOnce,?_,?_,?_,?_⟩
  · intro other less
    have ne : other ≠ stage := by
      rintro rfl
      exact Nat.not_lt.mpr full less
    rw [enqueue_other ne]
    exact sound.idle other less
  · intro waiter pending
    rcases enqueue_pending.mp pending with old | rfl
    · rw [enqueue_resolvers (fresh waiter old)]
      exact ⟨(sound.heard waiter old).1,grows _ _ (sound.heard waiter old).2⟩
    · refine ⟨enqueue_resolver,?_⟩
      dsimp only
      rw [here]
      exact mem_append_right _ (mem_singleton.mpr rfl)
  · intro other
    by_cases same : other = stage
    · subst same
      rw [here,nodup_append]
      refine ⟨sound.queuesOnce other,nodup_singleton _,fun x old y eq => ?_⟩
      rintro rfl
      rw [mem_singleton] at eq
      exact unqueued (eq ▸ old)
    · rw [enqueue_other same]
      exact sound.queuesOnce other
  · intro x other present queued
    by_cases same : other = stage
    · subst same
      rw [here,mem_append,mem_singleton] at queued
      rcases queued with old | rfl
      · exact sound.apart x other present old
      · exact new present
    · rw [enqueue_other same] at queued
      exact sound.apart x other present queued
  · intro x other queued
    by_cases same : other = stage
    · subst same
      rw [here,mem_append,mem_singleton] at queued
      rcases queued with old | rfl
      · obtain ⟨waiter,pending,facts⟩ := sound.waiting x other old
        exact ⟨waiter,enqueue_pending.mpr (.inl pending),facts⟩
      · exact ⟨_,enqueue_pending.mpr (.inr rfl),rfl,rfl⟩
    · rw [enqueue_other same] at queued
      obtain ⟨waiter,pending,facts⟩ := sound.waiting x other queued
      exact ⟨waiter,enqueue_pending.mpr (.inl pending),facts⟩
  · intro waiter pending
    rcases enqueue_pending.mp pending with old | rfl
    · exact Nat.lt_succ_of_lt (sound.numbered waiter old)
    · exact Nat.lt_succ_self _

theorem wait_sound (sound : Sound s) (alone : ∀ other, other ≠ stage → itemId ∉ s.slots other)
    (fresh : ∀ waiter ∈ s.pending, ¬(waiter.itemId = itemId ∧ waiter.stage = stage)) :
    Sound (waitForStageSlot itemId stage s) := by
  rcases wait_cases itemId stage s with ⟨_,same⟩ | ⟨new,room,same⟩ | ⟨new,full,same⟩
  · rw [same]
    exact sound
  · rw [same]
    exact addSlot_sound sound alone new room
  · rw [same]
    exact enqueue_sound sound new full fresh

theorem wait_overwrites (sound : Sound s) (pending : waiter ∈ s.pending) :
    ¬Exclusive (waitForStageSlot waiter.itemId waiter.stage s) := by
  have queued := (sound.heard waiter pending).2
  rcases wait_cases waiter.itemId waiter.stage s with ⟨held,_⟩ | ⟨_,room,_⟩ | ⟨_,_,same⟩
  · exact absurd queued (sound.apart _ _ held)
  · rw [sound.idle _ room] at queued
    cases queued
  · rw [same]
    intro exclusive
    have heard := (exclusive.heard waiter (enqueue_pending.mpr (.inl pending))).1
    rw [enqueue_resolver] at heard
    exact Nat.lt_irrefl _ ((Option.some.inj heard) ▸ sound.numbered waiter pending)

theorem wait_doubled (doubled : Doubled s) : Doubled (waitForStageSlot itemId stage s) := by
  rcases wait_cases itemId stage s with ⟨_,same⟩ | ⟨_,_,same⟩ | ⟨_,_,same⟩
  · rw [same]
    exact doubled
  · rw [same]
    obtain ⟨x,one,two,ne,first,second⟩ := doubled
    exact ⟨x,one,two,ne,addSlot_grows first,addSlot_grows second⟩
  · rw [same]
    exact doubled

theorem wait_lost (ne : other ≠ stage) (lost : Lost s other) : Lost (waitForStageSlot itemId stage s) other := by
  obtain ⟨waiter,pending,at_,absent⟩ := lost
  rcases wait_cases itemId stage s with ⟨_,same⟩ | ⟨_,_,same⟩ | ⟨_,_,same⟩
  · rw [same]
    exact ⟨waiter,pending,at_,absent⟩
  · rw [same]
    exact ⟨waiter,pending,at_,absent⟩
  · rw [same]
    refine ⟨waiter,enqueue_pending.mpr (.inl pending),at_,?_⟩
    rw [enqueue_other ne]
    exact absent

theorem not_admits (bad : ¬Admits s itemId stage) : ∃ nextId rest, itemId ∈ s.slots stage ∧ s.queues stage = nextId :: rest ∧
    ¬(nextId ≠ "" ∧ ∀ other, nextId ∉ s.slots other) := by
  simp only [Admits,not_forall] at bad
  obtain ⟨member,nextId,head,bad⟩ := bad
  obtain ⟨rest,first⟩ := head?_eq_some_iff.mp head
  exact ⟨nextId,rest,member,first,bad⟩

theorem release_fewer (pending : waiter ∈ (releaseStageSlot itemId stage s).pending) : waiter ∈ s.pending := by
  unfold releaseStageSlot at pending
  split at pending
  · exact (drainStage_drained stage (dropQueued itemId stage (removeSlot itemId stage s))).fewer waiter pending
  · exact pending

theorem acquire_sound (sound : Sound s) (timely : Timely s (.acquire itemId stage)) :
    Sound (acquirePipelineStage itemId stage s) := by
  obtain ⟨fresh,admits⟩ := timely
  rw [acquirePipelineStage]
  rcases leaveOthers_cases sound.toExclusive itemId stage with ⟨alone,same⟩ | ⟨other,ne,member,same⟩
  · rw [same]
    exact wait_sound sound alone fresh
  · rw [same]
    refine wait_sound (release_sound sound (admits other ne)) ?_ (fun waiter pending => fresh waiter (release_fewer pending))
    intro third apart
    by_cases here : third = other
    · subst here
      exact release_gone sound member
    · rw [(release_else here).1]
      exact fun also => here (sound.single itemId third other also member)

theorem acquire_timely (sound : Sound s) (exclusive : Exclusive (acquirePipelineStage itemId stage s)) :
    Timely s (.acquire itemId stage) := by
  rw [acquirePipelineStage] at exclusive
  have admits : ∀ other, other ≠ stage → Admits s itemId other := by
    intro other ne
    by_contra bad
    obtain ⟨nextId,rest,member,first,bad⟩ := not_admits bad
    rcases leaveOthers_cases sound.toExclusive itemId stage with ⟨alone,_⟩ | ⟨only,_,held,same⟩
    · exact alone other ne member
    · cases sound.single itemId other only member held
      rw [same] at exclusive
      rcases release_broken sound member first bad with doubled | lost
      · exact (wait_doubled doubled).not_exclusive exclusive
      · exact (wait_lost ne lost).not_exclusive exclusive
  refine ⟨?_,admits⟩
  rintro waiter pending ⟨rfl,rfl⟩
  rcases leaveOthers_cases sound.toExclusive waiter.itemId waiter.stage with ⟨_,same⟩ | ⟨other,ne,_,same⟩
  · rw [same] at exclusive
    exact wait_overwrites sound pending exclusive
  · rw [same] at exclusive
    exact wait_overwrites (release_sound sound (admits other ne)) (release_pending pending (.inl rfl)) exclusive

-- Behind the first loop of `releaseAllPipelineStages` the item is in no queue, and its
-- promises are where they were.
theorem forget_sound (sound : Sound s) (fresh : ∀ waiter ∈ s.pending, waiter.itemId ≠ itemId) :
    Sound (forgetResolvers itemId s) := by
  refine ⟨⟨sound.limit,sound.single,sound.idle,?_⟩,sound.slotsOnce,sound.queuesOnce,sound.apart,sound.waiting,sound.numbered⟩
  intro waiter pending
  rw [forgetResolvers]
  dsimp only
  rw [update_of_ne (fresh waiter pending)]
  exact sound.heard waiter pending

theorem drains_idle (exclusive : Exclusive s) :
    stages.foldl (fun s stage => drainStageWaitQueue stage s) s = s := by
  induction stages with
  | nil => rfl
  | cons stage rest ih =>
    rw [foldl_cons,drain_idle exclusive]
    exact ih

theorem drain_doubled (doubled : Doubled s) : Doubled (drainStageWaitQueue stage s) := by
  obtain ⟨x,one,two,ne,first,second⟩ := doubled
  have drained := drainStage_drained stage s
  exact ⟨x,one,two,ne,drained.slots one x first,drained.slots two x second⟩

theorem drain_lost (lost : Lost s other) : Lost (drainStageWaitQueue stage s) other := by
  obtain ⟨waiter,pending,rfl,absent⟩ := lost
  have drained := drainStage_drained stage s
  refine ⟨waiter,drained.pending waiter pending ?_,rfl,?_⟩
  · rintro ⟨queued,rfl⟩
    exact absent queued
  · by_cases same : waiter.stage = stage
    · subst same
      exact fun queued => absent (drained.left.subset queued)
    · rw [drained.queuesElse _ same]
      exact absent

theorem drains_keep {motive : Stages → Prop}
    (keep : ∀ stage s, motive s → motive (drainStageWaitQueue stage s)) (held : motive s) :
    motive (stages.foldl (fun s stage => drainStageWaitQueue stage s) s) := by
  induction stages generalizing s with
  | nil => exact held
  | cons stage rest ih => exact ih (keep stage s held)

theorem release_unqueued (absent : itemId ∉ s.queues other) : itemId ∉ (releaseStageSlot itemId stage s).queues other := by
  by_cases same : other = stage
  · subst same
    unfold releaseStageSlot
    split
    · intro queued
      have before := (drainStage_drained other (dropQueued itemId other (removeSlot itemId other s))).left.subset queued
      rw [dropQueued,setQueue_queue] at before
      exact of_decide_eq_true (mem_filter.mp before).2 rfl
    · exact absent
  · rw [(release_else same).2]
    exact absent

theorem releaseDrops_unqueued (absent : ∀ stage, itemId ∉ s.queues stage) :
    stages.foldl (fun s stage => dropQueued itemId stage (releaseStageSlot itemId stage s)) s =
      stages.foldl (fun s stage => releaseStageSlot itemId stage s) s := by
  induction stages generalizing s with
  | nil => rfl
  | cons stage rest ih =>
    rw [foldl_cons,foldl_cons,dropQueued_same (release_unqueued (absent stage))]
    exact ih (fun other => release_unqueued (absent other))

theorem releaseDrops_pending (pending : waiter ∈ s.pending) :
    waiter ∈ (stages.foldl (fun s stage => dropQueued waiter.itemId stage (releaseStageSlot waiter.itemId stage s)) s).pending := by
  induction stages generalizing s with
  | nil => exact pending
  | cons stage rest ih => exact ih (release_pending pending (.inl rfl))

theorem releaseDrops_absent (absent : itemId ∉ s.queues other ∨ other ∈ stages) :
    itemId ∉ (stages.foldl (fun s stage => dropQueued itemId stage (releaseStageSlot itemId stage s)) s).queues other := by
  induction stages generalizing s with
  | nil => exact absent.resolve_right not_mem_nil
  | cons stage rest ih =>
    have dropped : itemId ∉ (dropQueued itemId stage (releaseStageSlot itemId stage s)).queues other ∨ other ∈ rest := by
      by_cases same : other = stage
      · subst same
        left
        rw [dropQueued,setQueue_queue]
        exact fun queued => of_decide_eq_true (mem_filter.mp queued).2 rfl
      · rcases absent with absent | member
        · left
          rw [dropQueued,setQueue_other same]
          exact release_unqueued absent
        · exact .inr ((mem_cons.mp member).resolve_left same)
    exact ih dropped

theorem every_stage (stage : PipelinePostStage) : stage ∈ postStages := by cases stage <;> decide

theorem Sound.unqueued (sound : Sound s) (fresh : ∀ waiter ∈ s.pending, waiter.itemId ≠ itemId) (stage : PipelinePostStage) :
    itemId ∉ s.queues stage := by
  intro queued
  obtain ⟨waiter,pending,named,_⟩ := sound.waiting itemId stage queued
  exact fresh waiter pending named

theorem releaseAll_sound (sound : Sound s) (timely : Timely s (.releaseAll itemId)) : Sound (releaseAllPipelineStages itemId s) := by
  obtain ⟨fresh,admits⟩ := timely
  have released : Sound (postStages.foldl (fun s stage => dropQueued itemId stage (releaseStageSlot itemId stage s)) s) ∧
      ∀ waiter ∈ (postStages.foldl (fun s stage => dropQueued itemId stage (releaseStageSlot itemId stage s)) s).pending,
        waiter.itemId ≠ itemId := by
    rw [releaseDrops_unqueued (sound.unqueued fresh)]
    rcases releases_cases sound.toExclusive (by decide : postStages.Nodup) itemId with ⟨_,same⟩ | ⟨stage,_,_,same⟩
    · rw [same]
      exact ⟨sound,fresh⟩
    · rw [same]
      exact ⟨release_sound sound (admits stage),fun waiter pending => fresh waiter (release_fewer pending)⟩
  have forgotten := forget_sound released.1 released.2
  rw [releaseAllPipelineStages,drains_idle forgotten.toExclusive]
  exact forgotten

theorem releaseAll_timely (sound : Sound s) (exclusive : Exclusive (releaseAllPipelineStages itemId s)) :
    Timely s (.releaseAll itemId) := by
  rw [releaseAllPipelineStages] at exclusive
  have fresh : ∀ waiter ∈ s.pending, waiter.itemId ≠ itemId := by
    rintro waiter pending rfl
    have lost : Lost (forgetResolvers waiter.itemId (postStages.foldl
        (fun s stage => dropQueued waiter.itemId stage (releaseStageSlot waiter.itemId stage s)) s)) waiter.stage :=
      ⟨waiter,releaseDrops_pending pending,rfl,releaseDrops_absent (.inr (every_stage _))⟩
    exact (drains_keep (motive := fun s => Lost s waiter.stage) (fun _ _ lost => drain_lost lost) lost).not_exclusive exclusive
  refine ⟨fresh,fun stage => ?_⟩
  by_contra bad
  obtain ⟨nextId,rest,member,first,bad⟩ := not_admits bad
  rw [releaseDrops_unqueued (sound.unqueued fresh)] at exclusive
  rcases releases_cases sound.toExclusive (by decide : postStages.Nodup) itemId with ⟨absent,_⟩ | ⟨only,_,held,same⟩
  · exact absent stage (every_stage stage) member
  · cases sound.single itemId stage only member held
    rw [same] at exclusive
    rcases release_broken sound member first bad with doubled | lost
    · have still : Doubled (forgetResolvers itemId (releaseStageSlot itemId stage s)) := doubled
      exact (drains_keep (fun _ _ doubled => drain_doubled doubled) still).not_exclusive exclusive
    · have still : Lost (forgetResolvers itemId (releaseStageSlot itemId stage s)) stage := lost
      exact (drains_keep (motive := fun s => Lost s stage) (fun _ _ lost => drain_lost lost) still).not_exclusive exclusive

theorem step_exact {e : Event} (sound : Sound s) (fired : step s e = some next) :
    (Timely s e → Sound next) ∧ (Exclusive next → Timely s e) := by
  cases e with
  | acquire itemId stage =>
    cases fired
    exact ⟨acquire_sound sound,acquire_timely sound⟩
  | releaseAll itemId =>
    cases fired
    exact ⟨releaseAll_sound sound,releaseAll_timely sound⟩

theorem start_sound : Sound start where
  limit := fun _ => Nat.zero_le _
  single := fun _ _ _ member => nomatch member
  idle := fun _ _ => rfl
  heard := fun _ member => nomatch member
  slotsOnce := fun _ => nodup_nil
  queuesOnce := fun _ => nodup_nil
  apart := fun _ _ member => nomatch member
  waiting := fun _ _ member => nomatch member
  numbered := fun _ member => nomatch member

-- The stages are exclusive in all states of a run, and no waiter is lost, exactly where
-- every call is timely.
theorem stages_exclusive (events : List Event) :
    (∀ left right reached, events = left ++ right → Schedule.run step start left = some reached → Exclusive reached) ↔
      Schedule.Along step Timely start events := by
  rw [← Schedule.along_reached_iff start_sound.toExclusive]
  refine Schedule.along_congr ?_ (fun s e next sound timely fired => (step_exact sound fired).1 timely) start_sound
  intro s e sound
  obtain ⟨next,fired⟩ : ∃ next, step s e = some next := by cases e <;> exact ⟨_,rfl⟩
  constructor
  · exact fun reached => (step_exact sound fired).2 (reached next fired)
  · intro timely other same
    rw [fired] at same
    cases same
    exact ((step_exact sound fired).1 timely).toExclusive

-- Three rows for two slots: the first to end lets the third in.
example : ((Schedule.run step start [.acquire "a" .storing,.acquire "b" .storing,.acquire "c" .storing,
    .releaseAll "a"]).map (fun s => (s.slots .storing,s.queues .storing,s.pending))) = some (["b","c"],[],[]) := by decide

def fullStage : List Event := [.acquire "a" .storing,.acquire "b" .storing,.acquire "c" .storing]

theorem waiter_lost : (¬∀ events left right reached, events = left ++ right → Schedule.run step start left = some reached →
      Exclusive reached) ∧
    (∃ reached, Schedule.run step start (fullStage ++ [.acquire "c" .storing,.releaseAll "a",.releaseAll "b"]) = some reached ∧
      ⟨0,"c",.storing⟩ ∈ reached.pending ∧ reached.resolvers "c" .storing = none) ∧
    ∃ reached, Schedule.run step start (fullStage ++ [.acquire "c" .processing,.releaseAll "a"]) = some reached ∧
      "c" ∈ reached.slots .processing ∧ "c" ∈ reached.slots .storing := by
  have lost : ∃ reached, Schedule.run step start (fullStage ++ [.acquire "c" .storing,.releaseAll "a",.releaseAll "b"]) =
      some reached ∧ ⟨0,"c",.storing⟩ ∈ reached.pending ∧ reached.resolvers "c" .storing = none :=
    Schedule.reached_of_any (by decide +kernel)
  refine ⟨fun all => ?_,lost,Schedule.reached_of_any (by decide +kernel)⟩
  obtain ⟨reached,ran,pending,none_⟩ := lost
  have heard := ((all _ _ [] reached (append_nil _).symm ran).heard _ pending).1
  rw [none_] at heard
  cases heard

end Ownly.Tray.Pipeline
