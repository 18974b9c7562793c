import Ownly.Migration.Run
import Ownly.Lib.Schedule

-- What a run has done to the keys of its nodes, over its batches and over restarts of the
-- API between them.
namespace Ownly.Migration.Coverage
open Files (startsWith)
open Paging (passed after)
open List Option KeyMap

inductive Stage where
  | looping
  | persisting (failed : Nat)
  | failing (message : String)
  deriving DecidableEq, Repr

structure Worker where
  held : Run
  nodeMap : List Node
  stage : Stage

structure System where
  registry : Registry
  run : Run
  worker : Option Worker
  -- node and key of all that the calls of the run have covered
  processed : List (String × String)

inductive Event where
  | start
  | batch (answers : Answers)
  | persist
  | finish
  -- the API goes down: between two steps, or with some of the keys of a batch covered
  | restart
  | interrupt (answers : Answers) (count : Nat)
  | recover

def System.ended (sys : System) (change : Run → Run) : System := {sys with run := change sys.run,worker := none}

def System.at (sys : System) (worker : Worker) : System := {sys with worker := some worker}

def lookup (nodeMap : List Node) (nodeId : String) : Option Node := nodeMap.find? (fun node => decide (node.id = nodeId))

def System.cover (sys : System) (node : Node) (keys : List String) : System :=
  {sys with processed := sys.processed ++ keys.map (fun key => (node.id,key))}

def begin (sys : System) : System :=
  if sys.run.progress.nodeIds.isEmpty then sys.ended (finishRun .error none (some "No storage nodes configured for migration."))
  else match loadMigrationNodeRows sys.registry sys.run.nodeId with
    | .error e => sys.ended (finishRun .error none (some (describe e)))
    | .ok nodes => sys.at ⟨sys.run,nodes,.looping⟩

def batch (sys : System) (worker : Worker) (answers : Answers) : Option System :=
  worker.held.current.map (fun nodeId =>
    match lookup worker.nodeMap nodeId with
    | none => sys.at {worker with held := {worker.held with progress := worker.held.progress.leave nodeId}}
    | some node =>
      let batch := executeNodeMigrationBatch node (worker.held.request nodeId) answers
      match batch.report with
      | .error e => (sys.cover node batch.covered).ended (finishRun .error none (some (describe e)))
      | .ok report => (sys.cover node batch.covered).at {worker with held := worker.held.add nodeId report,stage := .persisting report.failed})

def persist (sys : System) (worker : Worker) (failed : Nat) : System :=
  {sys with run := updateRunCounts worker.held sys.run}.at
    {worker with stage := if !worker.held.dryRun && decide (0 < failed) then .failing failedMessage else .looping}

def finish (sys : System) (worker : Worker) : Option System :=
  match worker.stage with
  | .looping => if worker.held.current.isNone then some (sys.ended worker.held.conclude) else none
  | .persisting _ => none
  | .failing message => some (sys.ended (finishRun .error (some worker.held.totalTarget) (some message)))

def interrupt (sys : System) (worker : Worker) (answers : Answers) (count : Nat) : Option System :=
  worker.held.current.map (fun nodeId =>
    match lookup worker.nodeMap nodeId with
    | none => {sys with worker := none}
    | some node =>
      let batch := executeNodeMigrationBatch node (worker.held.request nodeId) answers
      {sys.cover node (batch.covered.take count) with worker := none})

def step (sys : System) : Event → Option System
  | .start => if sys.worker.isNone ∧ sys.run.status = .running then some (begin sys) else none
  | .batch answers => (sys.worker.filter (fun worker => decide (worker.stage = .looping))).bind (fun worker => batch sys worker answers)
  | .persist => sys.worker.bind (fun worker => match worker.stage with
      | .persisting failed => some (persist sys worker failed)
      | _ => none)
  | .finish => sys.worker.bind (finish sys)
  | .restart => sys.worker.map (fun _ => {sys with worker := none})
  | .interrupt answers count =>
    (sys.worker.filter (fun worker => decide (worker.stage = .looping))).bind (fun worker => interrupt sys worker answers count)
  | .recover =>
    if sys.worker.isNone ∧ sys.run.status = .running then some {sys with run := stall sys.run} else none

def initial (registry : Registry) (run : Run) : System := ⟨registry,run,none,[]⟩

def scope (registry : Registry) (nodeId : Option String) : List Node :=
  match nodeId with
  | some id => registry.nodes.filter (fun node => decide (node.id = id))
  | none => registry.nodes

def wanted (keyPrefix : String) (node : Node) : List (String × String) :=
  (node.keys.filter (startsWith keyPrefix)).map (fun key => (node.id,key))

def due (registry : Registry) (nodeId : Option String) (keyPrefix : String) : List (String × String) :=
  (scope registry nodeId).flatMap (wanted keyPrefix)

structure Covers (due : List (String × String)) (final : System) : Prop where
  processed : ∀ entry, entry ∈ final.processed ↔ entry ∈ due
  summed : final.run.migrated + final.run.skipped + final.run.failed = final.run.scanned
  scanned : final.run.scanned = due.length

def touched (sys : System) (answers : Answers) : List String :=
  match sys.worker with
  | none => []
  | some worker =>
    match worker.held.current with
    | none => []
    | some nodeId =>
      match lookup worker.nodeMap nodeId with
      | none => []
      | some node => (executeNodeMigrationBatch node (worker.held.request nodeId) answers).covered

def covered (sys : System) : Event → List String
  | .batch answers => touched sys answers
  | .interrupt answers count => (touched sys answers).take count
  | _ => []

def Scoped (sys : System) (event : Event) : Prop := ∀ key ∈ covered sys event,startsWith sys.run.keyPrefix key = true

instance (sys : System) (event : Event) : Decidable (Scoped sys event) := inferInstanceAs (Decidable (∀ key ∈ _,_))

def counted (registry : Registry) (run : Run) : List (String × String) :=
  ((scope registry run.nodeId).take run.progress.currentNodeIndex).flatMap (wanted run.keyPrefix) ++
    (match (scope registry run.nodeId)[run.progress.currentNodeIndex]? with
    | some node => (passed (node.keys.filter (startsWith run.keyPrefix)) (run.progress.cursors.get node.id)).map (fun key => (node.id,key))
    | none => [])

structure Accounted (registry : Registry) (run : Run) (processed : List (String × String)) : Prop where
  ids : run.progress.nodeIds = (scope registry run.nodeId).map Node.id
  fresh : ∀ j id, run.progress.currentNodeIndex < j → run.progress.nodeIds[j]? = some id → run.progress.cursors.get id = none
  summed : run.migrated + run.skipped + run.failed = run.scanned
  scanned : run.scanned = (counted registry run).length
  seen : ∀ entry ∈ counted registry run, entry ∈ processed

structure Holds (sys : System) (worker : Worker) : Prop where
  nodeId : worker.held.nodeId = sys.run.nodeId
  keyPrefix : worker.held.keyPrefix = sys.run.keyPrefix
  nodeMap : worker.nodeMap = scope sys.registry sys.run.nodeId
  accounted : Accounted sys.registry worker.held sys.processed
  -- at the loop, all is on the row
  persisted : worker.stage = .looping → updateRunCounts worker.held sys.run = sys.run

structure Sound (sys : System) : Prop where
  accounted : Accounted sys.registry sys.run sys.processed
  worker : ∀ worker, sys.worker = some worker → Holds sys worker
  own : ∀ entry ∈ sys.processed, entry ∈ due sys.registry sys.run.nodeId sys.run.keyPrefix
  complete : sys.run.status = .complete → sys.worker = none ∧ sys.run.current = none

section Scope
variable {registry : Registry} {nodes : List Node} {nodeId : Option String} {node : Node} {id keyPrefix : String} {i j : Nat}

theorem find_filter (distinct : (nodes.map Node.id).Nodup) (id : String) :
    (nodes.find? (fun node => decide (node.id = id))).toList = nodes.filter (fun node => decide (node.id = id)) := by
  induction nodes with
  | nil => rfl
  | cons node rest ih =>
    obtain ⟨new,distinct⟩ := nodup_cons.mp distinct
    by_cases same : node.id = id
    · subst same
      have none_ : rest.filter (fun other => decide (other.id = node.id)) = [] := by
        refine filter_eq_nil_iff.mpr (fun other member => ?_)
        simp only [decide_eq_true_eq]
        exact fun same => new (mem_map.mpr ⟨other,member,same⟩)
      simp [none_]
    · simp only [find?_cons,filter_cons,same,decide_false]
      exact ih distinct

theorem load_scope (loaded : loadMigrationNodeRows registry nodeId = .ok nodes) : nodes = scope registry nodeId := by
  cases nodeId with
  | none =>
    cases loaded
    rfl
  | some raw =>
    unfold loadMigrationNodeRows at loaded
    dsimp only at loaded
    have same : ∀ id, normalizeNodeId raw = .ok id → id = raw := by
      intro id normal
      unfold normalizeNodeId at normal
      split_ifs at normal
      cases normal
      rfl
    cases normal : normalizeNodeId raw with
    | error e => rw [normal] at loaded; cases loaded
    | ok id =>
      rw [normal,same id normal] at loaded
      cases loaded
      exact find_filter registry.distinct raw

theorem scope_distinct : ((scope registry nodeId).map Node.id).Nodup := by
  cases nodeId with
  | none => exact registry.distinct
  | some id => exact registry.distinct.sublist (filter_sublist.map _)

theorem lookup_at (distinct : (nodes.map Node.id).Nodup) (here : nodes[i]? = some node) : lookup nodes node.id = some node := by
  unfold lookup
  induction nodes generalizing i with
  | nil => cases here
  | cons first_ rest ih =>
    obtain ⟨new,distinct⟩ := nodup_cons.mp distinct
    cases i with
    | zero =>
      cases here
      simp
    | succ i =>
      have later : node ∈ rest := mem_of_getElem? here
      have other : first_.id ≠ node.id := fun same => new (mem_map.mpr ⟨node,later,same.symm⟩)
      rw [find?_cons,decide_eq_false other]
      exact ih distinct here

theorem ids_apart (distinct : (nodes.map Node.id).Nodup) (one : (nodes.map Node.id)[i]? = some id) (other : (nodes.map Node.id)[j]? = some id) :
    i = j := by
  obtain ⟨within,same⟩ := List.getElem?_eq_some_iff.mp one
  obtain ⟨within',same'⟩ := List.getElem?_eq_some_iff.mp other
  exact (List.Nodup.getElem_inj_iff distinct).mp (same.trans same'.symm)

end Scope

section Batches
variable {registry : Registry} {run : Run} {node : Node} {nodeId key : String} {answers : Answers} {report : Report}
  {request : NodeMigrationBatchRequest} {processed more : List (String × String)}

-- A batch takes what lies next of the wanted keys, and says where to go on or that none are left.
structure Part (node : Node) (request : NodeMigrationBatchRequest) (report : Report) (items rest : List String) : Prop where
  split : (node.keys.filter (startsWith request.keyPrefix)).filter (after request.startAfter) = items ++ rest
  scanned : report.scanned = items.length
  summed : report.migrated + report.skipped + report.failed = report.scanned
  goes : (report.isTruncated = true ∧ ∃ next, report.nextStartAfter = some next ∧ items.getLast? = some next) ∨
    (report.isTruncated = false ∧ rest = [])

theorem page_goes (keys : List String) (startAfter : Option String) (limit : Nat) (some_ : 0 < limit)
    (reports : Reports report (Paging.page keys limit startAfter)) (rest : List String)
    (left : (keys.filter (after startAfter)).drop limit = [] → rest = []) :
    (report.isTruncated = true ∧ ∃ next, report.nextStartAfter = some next ∧ (Paging.page keys limit startAfter).items.getLast? = some next) ∨
      (report.isTruncated = false ∧ rest = []) := by
  rw [reports.truncated,reports.next]
  cases truncated : (Paging.page keys limit startAfter).isTruncated with
  | true => exact .inl ⟨rfl,Paging.page_next some_ truncated⟩
  | false => exact .inr ⟨rfl,left (Paging.page_last truncated)⟩

theorem batch_part (some_ : 0 < request.limit) (ran : (executeNodeMigrationBatch node request answers).report = .ok report)
    (own : ∀ key ∈ (executeNodeMigrationBatch node request answers).covered,startsWith request.keyPrefix key = true) :
    ∃ items rest, Part node request report items rest ∧ ∀ key ∈ items, key ∈ (executeNodeMigrationBatch node request answers).covered := by
  rcases batch_reports ran with ⟨reports,seen⟩ | ⟨reports,covers⟩
  · refine ⟨_,_,⟨(take_append_drop request.limit _).symm,reports.scanned,reports.counted,?_⟩,seen⟩
    exact page_goes _ request.startAfter request.limit some_ reports _ id
  · rw [covers] at own
    refine ⟨_,_,⟨Paging.filter_page own,reports.scanned,reports.counted,?_⟩,fun key member => by rw [covers]; exact member⟩
    exact page_goes _ request.startAfter request.limit some_ reports _ (fun none_ => by rw [none_]; rfl)

section
variable (accounted : Accounted registry run processed) {items rest : List String}
include accounted

theorem current_node (at_ : run.current = some nodeId) :
    ∃ node, (scope registry run.nodeId)[run.progress.currentNodeIndex]? = some node ∧ node.id = nodeId := by
  rw [Run.current,accounted.ids,getElem?_map] at at_
  exact map_eq_some_iff.mp at_

section
variable (here : (scope registry run.nodeId)[run.progress.currentNodeIndex]? = some node) (part : Part node (run.request node.id) report items rest)
include here part

theorem counted_add
    :
    counted registry (run.add node.id report) = counted registry run ++ items.map (fun key => (node.id,key)) := by
  have sorted : (node.keys.filter (startsWith run.keyPrefix)).Pairwise (· < ·) := node.sorted.filter _
  have before : counted registry run = ((scope registry run.nodeId).take run.progress.currentNodeIndex).flatMap (wanted run.keyPrefix) ++
      (passed (node.keys.filter (startsWith run.keyPrefix)) (run.progress.cursors.get node.id)).map (fun key => (node.id,key)) := by
    rw [counted,here]
  rcases part.goes with ⟨truncated,next,goes,last⟩ | ⟨done,none_⟩
  · have progress : (run.add node.id report).progress = {run.progress with cursors := run.progress.cursors.set node.id next} := by
      simp only [Run.add,RunProgress.advance,truncated,if_true,goes]
    rw [before,counted,progress]
    change ((scope registry run.nodeId).take run.progress.currentNodeIndex).flatMap (wanted run.keyPrefix) ++
      (match (scope registry run.nodeId)[run.progress.currentNodeIndex]? with
      | some node' => (passed (node'.keys.filter (startsWith run.keyPrefix)) ((run.progress.cursors.set node.id next).get node'.id)).map
          (fun key => (node'.id,key))
      | none => []) = _
    rw [here]
    dsimp only
    rw [get_set_self,Paging.passed_page sorted part.split last,map_append,append_assoc]
    rfl
  · have progress : (run.add node.id report).progress = run.progress.leave node.id := by
      simp [Run.add,RunProgress.advance,done]
    have whole : passed (node.keys.filter (startsWith run.keyPrefix)) (run.progress.cursors.get node.id) ++ items =
        node.keys.filter (startsWith run.keyPrefix) := by
      have split : (node.keys.filter (startsWith run.keyPrefix)).filter (after (run.progress.cursors.get node.id)) = items := by
        have split := part.split
        rw [none_,append_nil] at split
        exact split
      rw [← split]
      exact Paging.passed_append sorted _
    have fresh : ∀ next, (scope registry run.nodeId)[run.progress.currentNodeIndex + 1]? = some next →
        (run.progress.cursors.remove node.id).get next.id = none := by
      intro next there
      have ids : run.progress.nodeIds[run.progress.currentNodeIndex + 1]? = some next.id := by
        rw [accounted.ids,getElem?_map,there]
        rfl
      by_cases same : next.id = node.id
      · rw [same,get_remove_self]
      · rw [get_remove_ne same]
        exact accounted.fresh _ _ (Nat.lt_succ_self _) ids
    rw [before,counted,progress]
    change ((scope registry run.nodeId).take (run.progress.currentNodeIndex + 1)).flatMap (wanted run.keyPrefix) ++
      (match (scope registry run.nodeId)[run.progress.currentNodeIndex + 1]? with
      | some node' => (passed (node'.keys.filter (startsWith run.keyPrefix)) ((run.progress.cursors.remove node.id).get node'.id)).map
          (fun key => (node'.id,key))
      | none => []) = _
    have nothing : (match (scope registry run.nodeId)[run.progress.currentNodeIndex + 1]? with
      | some node' => (passed (node'.keys.filter (startsWith run.keyPrefix)) ((run.progress.cursors.remove node.id).get node'.id)).map
          (fun key => (node'.id,key))
      | none => []) = [] := by
      cases later : (scope registry run.nodeId)[run.progress.currentNodeIndex + 1]? with
      | none => rfl
      | some next =>
        dsimp only
        rw [fresh next later,Paging.passed_none]
        rfl
    have taken : (scope registry run.nodeId).take (run.progress.currentNodeIndex + 1) =
        (scope registry run.nodeId).take run.progress.currentNodeIndex ++ [node] := by
      rw [take_add_one,here]
      rfl
    rw [nothing,append_nil,taken,flatMap_append,flatMap_singleton,append_assoc,← map_append,whole]
    rfl

theorem add_accounted
    (fewer : ∀ entry ∈ processed, entry ∈ more)
    (seen : ∀ key ∈ items, (node.id,key) ∈ more) : Accounted registry (run.add node.id report) more := by
  have next := counted_add accounted here part
  have own : run.progress.nodeIds[run.progress.currentNodeIndex]? = some node.id := by
    rw [accounted.ids,getElem?_map,here]
    rfl
  have apart : ∀ j id, run.progress.currentNodeIndex < j → run.progress.nodeIds[j]? = some id → id ≠ node.id := by
    rintro j id later there rfl
    rw [accounted.ids] at own there
    have same := ids_apart scope_distinct own there
    omega
  refine ⟨?_,?_,?_,?_,?_⟩
  · change (run.progress.advance node.id report).nodeIds = (scope registry run.nodeId).map Node.id
    have ids := accounted.ids
    rcases part.goes with ⟨truncated,next,goes,_⟩ | ⟨done,_⟩
    · simpa [RunProgress.advance,truncated,goes] using ids
    · simpa [RunProgress.advance,done,RunProgress.leave] using ids
  · intro j id later there
    change (run.progress.advance node.id report).cursors.get id = none
    change (run.progress.advance node.id report).currentNodeIndex < j at later
    change (run.progress.advance node.id report).nodeIds[j]? = some id at there
    rcases part.goes with ⟨truncated,next,goes,_⟩ | ⟨done,_⟩
    · simp only [RunProgress.advance,truncated,if_true,goes] at later there ⊢
      rw [get_set_ne (apart j id later there)]
      exact accounted.fresh j id later there
    · simp only [RunProgress.advance,done,Bool.false_eq_true,if_false,RunProgress.leave] at later there ⊢
      have later : run.progress.currentNodeIndex < j := by omega
      rw [get_remove_ne (apart j id later there)]
      exact accounted.fresh j id later there
  · have sums := accounted.summed
    have own := part.summed
    simp only [Run.add]
    omega
  · rw [next,length_append,length_map,← accounted.scanned,← part.scanned]
    rfl
  · intro entry member
    rw [next] at member
    rcases mem_append.mp member with old | new
    · exact fewer entry (accounted.seen entry old)
    · obtain ⟨key,inside,rfl⟩ := mem_map.mp new
      exact seen key inside

end

theorem Accounted.mono (fewer : ∀ entry ∈ processed, entry ∈ more) :
    Accounted registry run more :=
  ⟨accounted.ids,accounted.fresh,accounted.summed,accounted.scanned,fun entry member => fewer entry (accounted.seen entry member)⟩

theorem counted_due (done : run.current = none) :
    counted registry run = due registry run.nodeId run.keyPrefix := by
  rw [Run.current,accounted.ids,getElem?_map,map_eq_none_iff] at done
  rw [counted,done,take_of_length_le (List.getElem?_eq_none_iff.mp done),append_nil]
  rfl

end

end Batches

section Steps
variable {registry : Registry} {sys next : System} {worker : Worker} {node : Node} {nodeId keyPrefix : String} {answers : Answers}
  {event : Event} {keys : List String} {key : String} {scopeId : Option String} {status : RunStatus} {target : Option Nat} {message : Option String}

theorem due_mem (inside : node ∈ scope registry scopeId) (key : String) (there : key ∈ node.keys) (own : startsWith keyPrefix key = true) :
    (node.id,key) ∈ due registry scopeId keyPrefix :=
  mem_flatMap.mpr ⟨node,inside,mem_map.mpr ⟨key,mem_filter.mpr ⟨there,own⟩,rfl⟩⟩

theorem due_prefix (member : (nodeId,key) ∈ due registry scopeId keyPrefix) : startsWith keyPrefix key = true := by
  obtain ⟨node,_,member⟩ := mem_flatMap.mp member
  obtain ⟨other,there,same⟩ := mem_map.mp member
  cases same
  exact (mem_filter.mp there).2

theorem finish_accounted {run : Run} {processed : List (String × String)} (accounted : Accounted registry run processed) :
    Accounted registry (finishRun status target message run) processed :=
  ⟨accounted.ids,accounted.fresh,accounted.summed,accounted.scanned,accounted.seen⟩

theorem finished_sound (sound : Sound sys) (other : status ≠ .complete) : Sound (sys.ended (finishRun status target message)) :=
  ⟨finish_accounted sound.accounted,fun _ none_ => (by cases none_),sound.own,fun complete => absurd complete other⟩

theorem cover_sound (sound : Sound sys) (inside : node ∈ scope sys.registry sys.run.nodeId)
    (there : ∀ key ∈ keys, key ∈ node.keys ∧ startsWith sys.run.keyPrefix key = true) : Sound (sys.cover node keys) := by
  have more : ∀ entry ∈ sys.processed, entry ∈ (sys.cover node keys).processed := fun _ member => mem_append_left _ member
  refine ⟨sound.accounted.mono more,fun worker held => ?_,fun entry member => ?_,sound.complete⟩
  · have holds := sound.worker worker held
    exact ⟨holds.nodeId,holds.keyPrefix,holds.nodeMap,holds.accounted.mono more,holds.persisted⟩
  · rcases mem_append.mp member with old | new
    · exact sound.own entry old
    · obtain ⟨key,inside_,rfl⟩ := mem_map.mp new
      exact due_mem inside key (there key inside_).1 (there key inside_).2

theorem begin_sound (sound : Sound sys) (running : sys.run.status = .running) : Sound (begin sys) := by
  unfold begin
  split
  · exact finished_sound sound (by decide)
  · split
    · exact finished_sound sound (by decide)
    · rename_i nodes loaded
      refine ⟨sound.accounted,fun worker held => ?_,sound.own,fun complete => ?_⟩
      · cases held
        exact ⟨rfl,rfl,load_scope loaded,sound.accounted,fun _ => rfl⟩
      · have status : sys.run.status = .complete := complete
        rw [running] at status
        cases status

theorem worker_node (sound : Sound sys) (held : sys.worker = some worker) (at_ : worker.held.current = some nodeId) :
    ∃ node, (scope sys.registry worker.held.nodeId)[worker.held.progress.currentNodeIndex]? = some node ∧ node.id = nodeId ∧
      node ∈ scope sys.registry sys.run.nodeId ∧ lookup worker.nodeMap nodeId = some node := by
  have holds := sound.worker worker held
  obtain ⟨node,here,rfl⟩ := current_node holds.accounted at_
  refine ⟨node,here,rfl,?_,?_⟩
  · rw [← holds.nodeId]
    exact mem_of_getElem? here
  · rw [holds.nodeMap,← holds.nodeId]
    exact lookup_at scope_distinct here

theorem touched_at (answers : Answers) (held : sys.worker = some worker) (at_ : worker.held.current = some nodeId)
    (found : lookup worker.nodeMap nodeId = some node) :
    touched sys answers = (executeNodeMigrationBatch node (worker.held.request nodeId) answers).covered := by
  unfold touched
  rw [held]
  dsimp only
  rw [at_]
  dsimp only
  rw [found]

section
variable (sound : Sound sys)
include sound

theorem running_worker (held : sys.worker = some worker) : sys.run.status ≠ .complete := by
  intro complete
  have none_ := (sound.complete complete).1
  rw [held] at none_
  cases none_

theorem batch_sound (own : Scoped sys (.batch answers)) (held : sys.worker = some worker)
    (fired : batch sys worker answers = some next) : Sound next := by
  obtain ⟨nodeId,at_,rfl⟩ := map_eq_some_iff.mp fired
  have holds := sound.worker worker held
  obtain ⟨node,here,rfl,inside,found⟩ := worker_node sound held at_
  have covers := touched_at answers held at_ found
  have there : ∀ key ∈ (executeNodeMigrationBatch node (worker.held.request node.id) answers).covered,
      key ∈ node.keys ∧ startsWith sys.run.keyPrefix key = true :=
    fun key member => ⟨covered_node key member,own key (by rw [covered,covers]; exact member)⟩
  have covered_ := cover_sound sound inside there
  rw [found]
  dsimp only
  split
  · exact finished_sound covered_ (by decide)
  · rename_i report ran
    refine ⟨covered_.accounted,fun other same => ?_,covered_.own,fun complete => absurd (show sys.run.status = .complete from complete) (running_worker sound held)⟩
    cases same
    have wanted_ : ∀ key ∈ (executeNodeMigrationBatch node (worker.held.request node.id) answers).covered,
        startsWith (worker.held.request node.id).keyPrefix key = true := by
      intro key member
      change startsWith worker.held.keyPrefix key = true
      rw [holds.keyPrefix]
      exact (there key member).2
    obtain ⟨items,rest,part,seen⟩ := batch_part (show 0 < batchLimit by decide) ran wanted_
    refine ⟨holds.nodeId,holds.keyPrefix,holds.nodeMap,?_,fun looping => by cases looping⟩
    refine add_accounted holds.accounted here part (fun entry member => mem_append_left _ member) (fun key member => ?_)
    exact mem_append_right _ (mem_map.mpr ⟨key,seen key member,rfl⟩)

theorem persist_sound (held : sys.worker = some worker) (failed : Nat) : Sound (persist sys worker failed) := by
  have holds := sound.worker worker held
  have same : counted sys.registry (updateRunCounts worker.held sys.run) = counted sys.registry worker.held := by
    simp only [counted,updateRunCounts,holds.nodeId,holds.keyPrefix]
  have accounted := holds.accounted
  refine ⟨⟨?_,accounted.fresh,accounted.summed,?_,?_⟩,fun other kept => ?_,sound.own,fun complete => absurd (show sys.run.status = .complete from complete) (running_worker sound held)⟩
  · have ids := accounted.ids
    rw [holds.nodeId] at ids
    exact ids
  · change worker.held.scanned = (counted sys.registry (updateRunCounts worker.held sys.run)).length
    rw [same]
    exact accounted.scanned
  · intro entry member
    exact accounted.seen entry (same ▸ member)
  · cases kept
    exact ⟨holds.nodeId,holds.keyPrefix,holds.nodeMap,accounted,fun _ => rfl⟩

theorem finish_sound (held : sys.worker = some worker) (fired : finish sys worker = some next) : Sound next := by
  have holds := sound.worker worker held
  unfold finish at fired
  split at fired
  · rename_i looping
    split at fired
    · rename_i done
      cases fired
      have progress : sys.run.progress = worker.held.progress := (congrArg Run.progress (holds.persisted looping)).symm
      have none_ : sys.run.current = none := by
        rw [Run.current,progress]
        exact isNone_iff_eq_none.mp done
      have concluded : ∀ status target message, Sound (sys.ended (finishRun status target message)) :=
        fun _ _ _ => ⟨finish_accounted sound.accounted,fun _ same => (by cases same),sound.own,fun _ => ⟨rfl,none_⟩⟩
      exact concluded _ _ _
    · cases fired
  · cases fired
  · cases fired
    exact finished_sound sound (by decide)

theorem lost_sound : Sound {sys with worker := none} :=
  ⟨sound.accounted,fun _ same => (by cases same),sound.own,fun complete => ⟨rfl,(sound.complete complete).2⟩⟩

theorem interrupt_sound {count : Nat} (own : Scoped sys (.interrupt answers count)) (held : sys.worker = some worker)
    (fired : interrupt sys worker answers count = some next) : Sound next := by
  obtain ⟨nodeId,at_,rfl⟩ := map_eq_some_iff.mp fired
  obtain ⟨node,here,rfl,inside,found⟩ := worker_node sound held at_
  have covers := touched_at answers held at_ found
  rw [found]
  refine lost_sound (cover_sound sound inside (fun key member => ⟨covered_node key (mem_of_mem_take member),own key ?_⟩))
  rw [covered,covers]
  exact member

theorem step_sound (own : Scoped sys event) (fired : step sys event = some next) : Sound next := by
  cases event with
  | start =>
    simp only [step] at fired
    split at fired
    · rename_i enabled
      cases fired
      exact begin_sound sound enabled.2
    · cases fired
  | batch answers =>
    obtain ⟨worker,looping,fired⟩ := bind_eq_some_iff.mp fired
    exact batch_sound sound own (filter_eq_some_iff.mp looping).1 fired
  | persist =>
    obtain ⟨worker,held,fired⟩ := bind_eq_some_iff.mp fired
    split at fired
    · cases fired
      exact persist_sound sound held _
    · cases fired
  | finish =>
    obtain ⟨worker,held,fired⟩ := bind_eq_some_iff.mp fired
    exact finish_sound sound held fired
  | restart =>
    obtain ⟨_,_,rfl⟩ := map_eq_some_iff.mp fired
    exact lost_sound sound
  | interrupt answers count =>
    obtain ⟨worker,looping,fired⟩ := bind_eq_some_iff.mp fired
    exact interrupt_sound sound own (filter_eq_some_iff.mp looping).1 fired
  | recover =>
    simp only [step] at fired
    split at fired
    · rename_i enabled
      cases fired
      have none_ := isNone_iff_eq_none.mp enabled.1
      have accounted := sound.accounted
      exact ⟨⟨accounted.ids,accounted.fresh,accounted.summed,accounted.scanned,accounted.seen⟩,
        fun worker held => (by rw [none_] at held; cases held),sound.own,fun complete => (by cases complete)⟩
    · cases fired

end

end Steps

section Runs
variable {registry : Registry} {sys next final : System} {event : Event} {events : List Event} {nodeId : Option String} {keyPrefix : String}
  {totalTarget : Nat} {kind : RunKind} {run : Run}

-- No step changes what the run is about.
structure Same (sys next : System) : Prop where
  registry : next.registry = sys.registry
  nodeId : next.run.nodeId = sys.run.nodeId
  keyPrefix : next.run.keyPrefix = sys.run.keyPrefix

theorem Same.trans {last : System} (one : Same sys next) (other : Same next last) : Same sys last :=
  ⟨other.registry.trans one.registry,other.nodeId.trans one.nodeId,other.keyPrefix.trans one.keyPrefix⟩

theorem step_processed (fired : step sys event = some next) :
    Same sys next ∧ ∃ id, next.processed = sys.processed ++ (covered sys event).map (fun key => (id,key)) := by
  cases event with
  | start =>
    simp only [step] at fired
    split at fired
    · cases fired
      refine ⟨?_,"",?_⟩
      · unfold begin
        split
        · exact ⟨rfl,rfl,rfl⟩
        · split <;> exact ⟨rfl,rfl,rfl⟩
      · unfold begin
        split
        · simp [covered,System.ended]
        · split <;> simp [covered,System.ended,System.at]
    · cases fired
  | batch answers =>
    obtain ⟨worker,looping,fired⟩ := bind_eq_some_iff.mp fired
    have held := (filter_eq_some_iff.mp looping).1
    obtain ⟨nodeId,at_,rfl⟩ := map_eq_some_iff.mp fired
    cases found : lookup worker.nodeMap nodeId with
    | none => exact ⟨⟨rfl,rfl,rfl⟩,"",by simp [covered,touched,held,at_,found,System.at]⟩
    | some node =>
      dsimp only
      cases ran : (executeNodeMigrationBatch node (worker.held.request nodeId) answers).report with
      | error e => exact ⟨⟨rfl,rfl,rfl⟩,node.id,by rw [covered,touched_at answers held at_ found]; rfl⟩
      | ok report => exact ⟨⟨rfl,rfl,rfl⟩,node.id,by rw [covered,touched_at answers held at_ found]; rfl⟩
  | persist =>
    obtain ⟨worker,held,fired⟩ := bind_eq_some_iff.mp fired
    split at fired
    · cases fired
      exact ⟨⟨rfl,rfl,rfl⟩,"",by simp [covered,persist,System.at]⟩
    · cases fired
  | finish =>
    obtain ⟨worker,held,fired⟩ := bind_eq_some_iff.mp fired
    unfold finish at fired
    split at fired
    · split at fired
      · cases fired
        exact ⟨⟨rfl,rfl,rfl⟩,"",by simp [covered,System.ended]⟩
      · cases fired
    · cases fired
    · cases fired
      exact ⟨⟨rfl,rfl,rfl⟩,"",by simp [covered,System.ended]⟩
  | restart =>
    obtain ⟨_,_,rfl⟩ := map_eq_some_iff.mp fired
    exact ⟨⟨rfl,rfl,rfl⟩,"",by simp [covered]⟩
  | interrupt answers count =>
    obtain ⟨worker,looping,fired⟩ := bind_eq_some_iff.mp fired
    have held := (filter_eq_some_iff.mp looping).1
    obtain ⟨nodeId,at_,rfl⟩ := map_eq_some_iff.mp fired
    cases found : lookup worker.nodeMap nodeId with
    | none => exact ⟨⟨rfl,rfl,rfl⟩,"",by simp [covered,touched,held,at_,found]⟩
    | some node => exact ⟨⟨rfl,rfl,rfl⟩,node.id,by rw [covered,touched_at answers held at_ found]; rfl⟩
  | recover =>
    simp only [step] at fired
    split at fired
    · cases fired
      exact ⟨⟨rfl,rfl,rfl⟩,"",by simp [covered]⟩
    · cases fired

theorem run_same (ran : Schedule.run step sys events = some final) : Same sys final ∧ ∀ entry ∈ sys.processed, entry ∈ final.processed := by
  refine Schedule.run_preserves (motive := fun reached => Same sys reached ∧ ∀ entry ∈ sys.processed, entry ∈ reached.processed)
    ?_ ⟨⟨rfl,rfl,rfl⟩,fun _ member => member⟩ ran
  intro reached event next held fired
  obtain ⟨same,_,grows⟩ := step_processed fired
  exact ⟨held.1.trans same,fun entry member => by rw [grows]; exact mem_append_left _ (held.2 entry member)⟩

theorem scopedIds_scope {nodes : List Node} (loaded : loadMigrationNodeRows registry nodeId = .ok nodes) (some_ : nodes ≠ []) :
    scopedIds nodeId nodes = (scope registry nodeId).map Node.id := by
  have whole := load_scope loaded
  rw [← whole]
  cases nodeId with
  | none => rfl
  | some raw =>
    rw [scope,← find_filter registry.distinct raw] at whole
    cases found : registry.nodes.find? (fun node => decide (node.id = raw)) with
    | none =>
      rw [found] at whole
      exact absurd whole some_
    | some node =>
      rw [found] at whole
      have same : node.id = raw := by simpa using find?_some found
      rw [whole]
      simp [scopedIds,same]

theorem counted_start (index : run.progress.currentNodeIndex = 0) (cursors : run.progress.cursors = KeyMap.empty) : counted registry run = [] := by
  rw [counted,index,cursors]
  cases first_ : (scope registry run.nodeId)[0]? with
  | none => rfl
  | some node => simp

theorem fresh_sound (ids : run.progress.nodeIds = (scope registry run.nodeId).map Node.id) (index : run.progress.currentNodeIndex = 0)
    (cursors : run.progress.cursors = KeyMap.empty) (summed : run.migrated + run.skipped + run.failed = run.scanned) (zero : run.scanned = 0)
    (running : run.status = .running) : Sound (initial registry run) := by
  have none_ : counted registry run = [] := counted_start index cursors
  refine ⟨⟨ids,fun _ id _ _ => ?_,summed,?_,fun entry member => ?_⟩,fun _ same => (by cases same),fun _ member => (by cases member),
    fun complete => ?_⟩
  · change run.progress.cursors.get id = none
    rw [cursors]
    rfl
  · change run.scanned = (counted registry run).length
    rw [none_,zero]
    rfl
  · have member : entry ∈ counted registry run := member
    rw [none_] at member
    cases member
  · have status : run.status = .complete := complete
    rw [running] at status
    cases status

theorem spawned_sound (spawned : spawnRun registry kind nodeId keyPrefix totalTarget = .ok run) :
    Sound (initial registry run) ∧ run.nodeId = nodeId ∧ run.keyPrefix = keyPrefix := by
  unfold spawnRun at spawned
  split at spawned
  · cases spawned
  · cases spawned
  · rename_i nodes some_ loaded
    cases spawned
    exact ⟨fresh_sound (scopedIds_scope loaded some_) rfl rfl rfl rfl rfl,rfl,rfl⟩

theorem sound_covers (sound : Sound final) (ended : final.run.status = .complete) :
    Covers (due final.registry final.run.nodeId final.run.keyPrefix) final := by
  have whole := counted_due sound.accounted (sound.complete ended).2
  refine ⟨fun entry => ⟨sound.own entry,fun member => ?_⟩,sound.accounted.summed,?_⟩
  · exact sound.accounted.seen entry (whole ▸ member)
  · rw [sound.accounted.scanned,whole]

theorem run_covers (spawned : spawnRun registry kind nodeId keyPrefix totalTarget = .ok run) (events : List Event) (final : System)
    (ran : Schedule.run step (initial registry run) events = some final) (ended : final.run.status = .complete) :
    Covers (due registry nodeId keyPrefix) final ↔ Schedule.Along step Scoped (initial registry run) events := by
  obtain ⟨fresh,rfl,rfl⟩ := spawned_sound spawned
  obtain ⟨same,_⟩ := run_same ran
  constructor
  · intro covers
    refine Schedule.along_iff.mpr (fun left event right middle split reached key member => ?_)
    subst split
    rw [Schedule.run_append,reached,bind_some] at ran
    obtain ⟨next,fired,rest⟩ := Schedule.run_cons ran
    obtain ⟨_,id,grows⟩ := step_processed fired
    have there : (id,key) ∈ final.processed := by
      refine (run_same rest).2 _ ?_
      rw [grows]
      exact mem_append_right _ (mem_map.mpr ⟨key,member,rfl⟩)
    rw [(run_same reached).1.keyPrefix]
    exact due_prefix ((covers.processed _).mp there)
  · intro along
    have sound : Sound final := Schedule.run_along (fun _ _ _ sound own fired => step_sound sound own fired) fresh along ran
    have covers := sound_covers sound ended
    rw [same.registry,same.nodeId,same.keyPrefix] at covers
    exact covers

end Runs

section Examples

-- One node, with a key below "a/" and one beside it.
def twoKeys : Registry := ⟨[⟨"n",["a/x","b/y"],by decide +kernel⟩],nodup_singleton _⟩

def answers (maintenance : Maintenance) : Answers := ⟨true,fun _ => some true,fun _ => true,maintenance⟩

def below : Run :=
  {kind := .migrate,status := .running,nodeId := none,keyPrefix := "a/",totalTarget := 1,migrated := 0,skipped := 0,failed := 0,scanned := 0,
   currentNodeId := none,batchNumber := 0,progress := {nodeIds := ["n"],currentNodeIndex := 0,cursors := KeyMap.empty},errorMessage := none}

theorem below_spawned : spawnRun twoKeys .migrate none "a/" 1 = .ok below := rfl

def restarted : List Event :=
  [.start,.interrupt (answers .unavailable) 1,.start,.batch (answers .unavailable),.restart,.start,.batch (answers .unavailable),.persist,.finish]

theorem run_covers_restarted : ∃ final, Schedule.run step (initial twoKeys below) restarted = some final ∧ final.run.status = .complete ∧
    Covers (due twoKeys none "a/") final := by
  obtain ⟨final,ran,ended⟩ : ∃ final, Schedule.run step (initial twoKeys below) restarted = some final ∧ final.run.status = .complete :=
    Schedule.reached_of_any (by decide +kernel)
  exact ⟨final,ran,ended,(run_covers below_spawned restarted final ran ended).mpr (by decide +kernel)⟩

def maintained : List Event := [.start,.batch (answers (.report true (fun _ => .migrated))),.persist,.finish]

theorem outside_migrated : ∃ final, spawnRun twoKeys .migrate none "a/" 1 = .ok below ∧
    Schedule.run step (initial twoKeys below) maintained = some final ∧ final.run.status = .complete ∧ ¬Covers (due twoKeys none "a/") final := by
  obtain ⟨final,ran,ended,both⟩ : ∃ final, Schedule.run step (initial twoKeys below) maintained = some final ∧ final.run.status = .complete ∧
      final.run.scanned = 2 := Schedule.reached_of_any (by decide +kernel)
  refine ⟨final,below_spawned,ran,ended,fun covers => ?_⟩
  have one : (due twoKeys none "a/").length = 1 := by decide +kernel
  have scanned := covers.scanned
  omega

end Examples

end Ownly.Migration.Coverage
