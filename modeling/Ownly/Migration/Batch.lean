import Ownly.Lib.Paging
import Ownly.Files.Store

-- backend/src/admin/storage_migration.rs: one batch of a migration on one storage node.
namespace Ownly.Migration
open Files (startsWith)
open Paging (Page page)
open List

structure Node where
  id : String
  keys : List String
  sorted : keys.Pairwise (· < ·)

-- The enabled rows of `storage_nodes`.
structure Registry where
  nodes : List Node
  distinct : (nodes.map Node.id).Nodup

def normalizeNodeId (id : String) : Except AppError String :=
  if id.isEmpty then .error (.badRequest "node id is required")
  else if 64 < id.utf8ByteSize then .error (.badRequest "node id is too long")
  else if !id.toList.all (fun c => c.isAlphanum || c == '-' || c == '_') then
    .error (.badRequest "node id may only contain letters, numbers, hyphens, and underscores")
  else .ok id

-- The node id comes trimmed from the request.
def loadMigrationNodeRows (registry : Registry) (nodeId : Option String) : Except AppError (List Node) :=
  match nodeId with
  | some raw => (normalizeNodeId raw).map (fun id => (registry.nodes.find? (fun node => decide (node.id = id))).toList)
  | none => .ok registry.nodes

-- LIST of the keys with a prefix, and the keys that Nebular's own maintenance call covers.
def listObjectsPage (node : Node) (keyPrefix : String) (limit : Nat) (startAfter : Option String) : Page String :=
  page (node.keys.filter (startsWith keyPrefix)) limit startAfter

def maintenancePage (node : Node) (limit : Nat) (startAfter : Option String) : Page String := page node.keys limit startAfter

inductive Fate where
  | migrated
  | skipped
  | failed
  deriving DecidableEq, Repr

inductive Maintenance where
  | error
  | unavailable
  | report (dryRunApplied : Bool) (fate : String → Fate)

structure Answers where
  listed : Bool
  needsMigration : String → Option Bool
  rewritten : String → Bool
  maintenance : Maintenance

structure Report where
  method : String
  scanned : Nat
  migrated : Nat
  skipped : Nat
  failed : Nat
  nextStartAfter : Option String
  isTruncated : Bool
  deriving DecidableEq, Repr

def Report.add (report : Report) : Fate → Report
  | .migrated => {report with migrated := report.migrated + 1}
  | .skipped => {report with skipped := report.skipped + 1}
  | .failed => {report with failed := report.failed + 1}

-- The loop over the items of a page.
def Report.tally (fate : String → Fate) : Report → List String → Report
  | report,[] => report
  | report,key :: rest => Report.tally fate (report.add (fate key)) rest

def blank (method : String) (listed : Page String) : Report :=
  {method := method,scanned := listed.items.length,migrated := 0,skipped := 0,failed := 0,
   nextStartAfter := listed.nextStartAfter,isTruncated := listed.isTruncated}

def clientFate (dryRun : Bool) (answers : Answers) (key : String) : Fate :=
  match answers.needsMigration key with
  | none => .failed
  | some false => .skipped
  | some true => if dryRun then .migrated else if answers.rewritten key then .migrated else .failed

structure NodeMigrationBatchRequest where
  keyPrefix : String
  limit : Nat
  startAfter : Option String
  dryRun : Bool
  preferServer : Bool

structure Batch where
  report : Except AppError Report
  covered : List String

def migrateNodeClientBatch (node : Node) (request : NodeMigrationBatchRequest) (answers : Answers) : Batch :=
  if answers.listed then
    let listed := listObjectsPage node request.keyPrefix request.limit request.startAfter
    let method := if request.dryRun then "client_probe" else "client_rewrite"
    ⟨.ok ((blank method listed).tally (clientFate request.dryRun answers) listed.items),listed.items⟩
  else ⟨.error (.badRequest "object list failed"),[]⟩

-- A dry run that the node did not apply is done again by the client.
def executeNodeMigrationBatch (node : Node) (request : NodeMigrationBatchRequest) (answers : Answers) : Batch :=
  if request.preferServer then
    match answers.maintenance with
    | .error => ⟨.error (.badRequest "nebular maintenance failed"),[]⟩
    | .unavailable => migrateNodeClientBatch node request answers
    | .report dryRunApplied fate =>
      let listed := maintenancePage node request.limit request.startAfter
      if request.dryRun && !dryRunApplied then
        let batch := migrateNodeClientBatch node request answers
        {batch with covered := listed.items ++ batch.covered}
      else ⟨.ok ((blank "nebular_maintenance" listed).tally fate listed.items),listed.items⟩
  else migrateNodeClientBatch node request answers

-- The page a report is about: its items are those it counts.
structure Reports (report : Report) (listed : Page String) : Prop where
  scanned : report.scanned = listed.items.length
  counted : report.migrated + report.skipped + report.failed = report.scanned
  next : report.nextStartAfter = listed.nextStartAfter
  truncated : report.isTruncated = listed.isTruncated

section Batches
variable {report : Report} {listed : Page String} {node : Node} {request : NodeMigrationBatchRequest} {answers : Answers} {fate : String → Fate}

theorem Report.tally_exact (fate : String → Fate) (report : Report) (items : List String) :
    (report.tally fate items).scanned = report.scanned ∧ (report.tally fate items).nextStartAfter = report.nextStartAfter ∧
      (report.tally fate items).isTruncated = report.isTruncated ∧
      (report.tally fate items).migrated + (report.tally fate items).skipped + (report.tally fate items).failed =
        report.migrated + report.skipped + report.failed + items.length := by
  induction items generalizing report with
  | nil => exact ⟨rfl,rfl,rfl,rfl⟩
  | cons key rest ih =>
    obtain ⟨scanned,next,truncated,counted⟩ := ih (report.add (fate key))
    rw [Report.tally]
    cases kind : fate key with
    | _ =>
      rw [kind] at scanned next truncated counted
      refine ⟨scanned,next,truncated,counted.trans ?_⟩
      simp only [Report.add,length_cons]
      omega

theorem tally_reports (method : String) (fate : String → Fate) (listed : Page String) :
    Reports ((blank method listed).tally fate listed.items) listed := by
  obtain ⟨scanned,next,truncated,counted⟩ := Report.tally_exact fate (blank method listed) listed.items
  refine ⟨scanned,?_,next,truncated⟩
  rw [counted,scanned]
  simp [blank]

theorem batch_reports (ran : (executeNodeMigrationBatch node request answers).report = .ok report) :
    (Reports report (listObjectsPage node request.keyPrefix request.limit request.startAfter) ∧
      ∀ key ∈ (listObjectsPage node request.keyPrefix request.limit request.startAfter).items,
        key ∈ (executeNodeMigrationBatch node request answers).covered) ∨
    (Reports report (maintenancePage node request.limit request.startAfter) ∧
      (executeNodeMigrationBatch node request answers).covered = (maintenancePage node request.limit request.startAfter).items) := by
  have client : ∀ report, (migrateNodeClientBatch node request answers).report = .ok report →
      Reports report (listObjectsPage node request.keyPrefix request.limit request.startAfter) ∧
        (migrateNodeClientBatch node request answers).covered = (listObjectsPage node request.keyPrefix request.limit request.startAfter).items := by
    intro report ran
    unfold migrateNodeClientBatch at ran ⊢
    split at ran
    · rename_i listed
      cases ran
      rw [if_pos listed]
      exact ⟨tally_reports _ _ _,rfl⟩
    · cases ran
  unfold executeNodeMigrationBatch at ran ⊢
  split at ran
  · rename_i prefers
    rw [if_pos prefers]
    split at ran
    · cases ran
    · obtain ⟨reports,covered⟩ := client report ran
      exact .inl ⟨reports,fun key member => by rw [covered]; exact member⟩
    · dsimp only at ran ⊢
      split at ran
      · rename_i again
        rw [if_pos again]
        obtain ⟨reports,covered⟩ := client report ran
        exact .inl ⟨reports,fun key member => mem_append_right _ (by rw [covered]; exact member)⟩
      · rename_i final
        rw [if_neg final]
        cases ran
        exact .inr ⟨tally_reports _ _ _,rfl⟩
  · rename_i client_
    rw [if_neg client_]
    obtain ⟨reports,covered⟩ := client report ran
    exact .inl ⟨reports,fun key member => by rw [covered]; exact member⟩

theorem listed_wanted (key : String) (member : key ∈ (listObjectsPage node request.keyPrefix request.limit request.startAfter).items) :
    key ∈ node.keys.filter (startsWith request.keyPrefix) :=
  (mem_filter.mp (mem_of_mem_take member)).1

theorem covered_node (key : String) (member : key ∈ (executeNodeMigrationBatch node request answers).covered) : key ∈ node.keys := by
  have client : ∀ key ∈ (migrateNodeClientBatch node request answers).covered, key ∈ node.keys := by
    intro key member
    unfold migrateNodeClientBatch at member
    split at member
    · exact (mem_filter.mp (listed_wanted key member)).1
    · cases member
  have server : ∀ key ∈ (maintenancePage node request.limit request.startAfter).items, key ∈ node.keys :=
    fun key member => (mem_filter.mp (mem_of_mem_take member)).1
  unfold executeNodeMigrationBatch at member
  split at member
  · split at member
    · cases member
    · exact client key member
    · dsimp only at member
      split at member
      · rcases mem_append.mp member with first_ | later
        · exact server key first_
        · exact client key later
      · exact server key member
  · exact client key member

end Batches

end Ownly.Migration
