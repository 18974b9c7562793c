import Ownly.Sheets.Record

-- What a reader gets back from a session whose ring has dropped ops.
namespace Ownly.Sheets
open Collab (Value OpType OpEnvelope CollabSession Timeline Logged defaultMaxOps)
open Collab.Timeline (Reached reached_logged reached_frame)

-- The workbook a room starts from: the one it was seeded with, or else the file's.
def startWorkbook (seed : Option Value) (file : SpreadsheetWorkbook) : SpreadsheetWorkbook :=
  onSnapshot file (Collab.Spreadsheet.seedSnapshot seed)

-- The ops past snapshot_seq, on top of the snapshot.
def recovered (env : Env) (now : Nat) (file : SpreadsheetWorkbook) (session : CollabSession) : SpreadsheetWorkbook :=
  replay env now (onSnapshot file session.snapshot) ((session.opsAfter session.snapshot.snapshotSeq).map editOf)

-- A state_commit carries a workbook, as the hook makes it.
def Whole (op : OpEnvelope) : Prop := op.opType = .stateCommit → ∃ value, Brings (editOf op) value

-- Every op up to snapshot_seq is in a workbook that a state_commit brought.
def FoldedIn (t : Timeline) : Prop := ∀ op ∈ t.log, op.seq ≤ t.session.snapshot.snapshotSeq →
  ∃ commit ∈ t.log, commit.opType = .stateCommit ∧ op.seq ≤ commit.seq

-- The ring has dropped nothing, or nothing newer than some state_commit.
def Covered (t : Timeline) : Prop := t.log.length ≤ defaultMaxOps ∨
  ∃ op ∈ t.log.drop (t.log.length - (defaultMaxOps + 1)), op.opType = .stateCommit

def seedField (seed : Option Value) : Option Value := (Collab.Spreadsheet.seedSnapshot seed).data.get "workbook"

structure Kept (seed : Option Value) (t : Timeline) : Prop where
  logged : Logged t.session t.log
  field : t.session.snapshot.data.get "workbook" = t.log.foldl (fun field op => (commitOf op).or field) (seedField seed)
  floor : t.session.snapshot.snapshotSeq = t.log.length - defaultMaxOps

theorem step_kept (spreadsheet : t.session.roomKind = .spreadsheet) (kept : Kept seed t)
    (fired : Timeline.step t c = some t') : Kept seed t' := by
  have logged := Collab.Timeline.step_logged kept.logged fired
  rcases step_records spreadsheet fired with ⟨log,snapshot⟩ | ⟨op,recorded⟩
  · exact ⟨logged,by rw [snapshot,log]; exact kept.field,by rw [snapshot,log]; exact kept.floor⟩
  · refine ⟨logged,?_,recorded.floor kept.logged kept.floor⟩
    rw [recorded.field,recorded.log,List.foldl_append,← kept.field]
    rfl

theorem seedSnapshot_floor (seed : Option Value) : (Collab.Spreadsheet.seedSnapshot seed).snapshotSeq = 0 := by
  unfold Collab.Spreadsheet.seedSnapshot
  split <;> rfl

theorem reached_kept (reached : Reached start sessionId .spreadsheet fileId seed t) : Kept seed t := by
  obtain ⟨commits,ran⟩ := reached
  have run := Schedule.run_preserves
    (motive := fun t : Timeline => t.session.roomKind = .spreadsheet ∧ Kept seed t) ?_ ?_ ran
  · exact run.2
  · intro t c t' held fired
    exact ⟨(Collab.Timeline.step_frame fired).2.1.trans held.1,step_kept held.1 held.2 fired⟩
  · refine ⟨rfl,Collab.Timeline.created_logged _ _ _ _ _,rfl,?_⟩
    exact (seedSnapshot_floor seed).trans (Nat.zero_sub _).symm

variable {log before after : List OpEnvelope} {op : OpEnvelope}

theorem last_commit (found : ∃ op ∈ log, op.opType = .stateCommit) : ∃ before op after,
    log = before ++ op :: after ∧ op.opType = .stateCommit ∧ ∀ later ∈ after, later.opType ≠ .stateCommit := by
  induction log with
  | nil => simp at found
  | cons first rest ih =>
    by_cases further : ∃ op ∈ rest, op.opType = .stateCommit
    · obtain ⟨before,op,after,rfl,commit,quiet⟩ := ih further
      exact ⟨first :: before,op,after,rfl,commit,quiet⟩
    · have quiet : ∀ later ∈ rest, later.opType ≠ .stateCommit := fun later member commit => further ⟨later,member,commit⟩
      obtain ⟨op,member,commit⟩ := found
      rcases List.mem_cons.mp member with rfl | member
      · exact ⟨[],op,rest,rfl,commit,quiet⟩
      · exact absurd commit (quiet op member)

theorem field_idle (quiet : ∀ op ∈ log, op.opType ≠ .stateCommit) (field : Option Value) :
    log.foldl (fun field op => (commitOf op).or field) field = field := by
  refine Reorder.foldl_idle ?_
  intro op member
  rw [commitOf,if_neg (quiet op member)]
  rfl

theorem commitOf_brings (brings : Brings (editOf op) value) : commitOf op = some value := by
  rw [commitOf,if_pos (show op.opType = .stateCommit from brings.1)]
  exact brings.2.1

theorem Kept.brought (kept : Kept seed t) (split : t.log = before ++ op :: after) (brings : Brings (editOf op) value)
    (quiet : ∀ later ∈ after, later.opType ≠ .stateCommit) (file : SpreadsheetWorkbook) :
    onSnapshot file t.session.snapshot = readWorkbook value := by
  have field := kept.field
  rw [split,List.foldl_append,List.foldl_cons,field_idle quiet,commitOf_brings brings,Option.some_or] at field
  rw [onSnapshot,field]
  exact remoteWorkbook_object brings.2.2 file

theorem Kept.seeded (kept : Kept seed t) (quiet : ∀ op ∈ t.log, op.opType ≠ .stateCommit) (file : SpreadsheetWorkbook) :
    onSnapshot file t.session.snapshot = startWorkbook seed file := by
  have field := kept.field
  rw [field_idle quiet] at field
  rw [onSnapshot,field]
  rfl

theorem Kept.recovered_eq (kept : Kept seed t) (env : Env) (now : Nat) (file : SpreadsheetWorkbook) :
    recovered env now file t.session =
      replay env now (onSnapshot file t.session.snapshot) ((t.log.drop (t.log.length - defaultMaxOps)).map editOf) := by
  rw [recovered,kept.logged.opsAfter,kept.floor,Nat.max_self]

theorem Kept.foldedIn_iff (kept : Kept seed t) : FoldedIn t ↔ Covered t := by
  have floor := kept.floor
  constructor
  · intro folded
    by_cases short : t.log.length ≤ defaultMaxOps
    · exact .inl short
    right
    -- the newest op that was dropped
    obtain ⟨op,found⟩ : ∃ op, t.log[t.log.length - (defaultMaxOps + 1)]? = some op :=
      ⟨_,List.getElem?_eq_getElem (by omega)⟩
    have seq := (kept.logged.seq_at found).1
    obtain ⟨commit,member,kind,later⟩ := folded op (List.mem_of_getElem? found) (by omega)
    exact ⟨commit,mem_drop kept.logged member (by omega),kind⟩
  · intro covered op member old
    obtain ⟨position,found⟩ := List.getElem?_of_mem member
    have seq := (kept.logged.seq_at found).1
    rcases covered with short | ⟨commit,inside,kind⟩
    · omega
    · have later := seq_of_drop kept.logged inside
      exact ⟨commit,List.mem_of_mem_drop inside,kind,by omega⟩

theorem drop_past (past : before.length < count) :
    (before ++ op :: after).drop count = after.drop (count - before.length - 1) := by
  have next : count - before.length = count - before.length - 1 + 1 := by omega
  rw [List.drop_append,List.drop_eq_nil_of_le (Nat.le_of_lt past),List.nil_append,next,List.drop_succ_cons]
  rfl

theorem Kept.recovers (kept : Kept seed t) (whole : ∀ op ∈ t.log, Whole op) (covered : Covered t) (env : Env) (now : Nat)
    (file : SpreadsheetWorkbook) :
    recovered env now file t.session = replay env now (startWorkbook seed file) (t.log.map editOf) := by
  rw [kept.recovered_eq]
  by_cases committed : ∃ op ∈ t.log, op.opType = .stateCommit
  · obtain ⟨before,op,after,split,commit,quiet⟩ := last_commit committed
    obtain ⟨value,brings⟩ := whole op (by rw [split]; exact List.mem_append_right _ List.mem_cons_self) commit
    rw [kept.brought split brings quiet]
    have all : replay env now (startWorkbook seed file) (t.log.map editOf) =
        replay env now (readWorkbook value) (after.map editOf) := by
      rw [split,List.map_append,List.map_cons]
      exact replay_brings brings env now _ _ _
    have reach : t.log.length - defaultMaxOps ≤ before.length + 1 := by
      rcases covered with short | ⟨other,inside,kind⟩
      · omega
      · by_contra beyond
        have past : before.length < t.log.length - (defaultMaxOps + 1) := by omega
        generalize t.log.length - (defaultMaxOps + 1) = count at inside past
        rw [split,drop_past past] at inside
        exact quiet other (List.mem_of_mem_drop inside) kind
    rw [all]
    generalize t.log.length - defaultMaxOps = count at reach
    rw [split]
    rcases Nat.lt_or_ge before.length count with past | held
    · -- the state_commit was the last op that was dropped
      have last : count - before.length - 1 = 0 := by omega
      rw [drop_past past,last,List.drop_zero]
    · rw [List.drop_append_of_le_length held,List.map_append,List.map_cons]
      exact replay_brings brings env now _ _ _
  · have quiet : ∀ op ∈ t.log, op.opType ≠ .stateCommit := fun op member commit => committed ⟨op,member,commit⟩
    rw [kept.seeded quiet]
    rcases covered with short | ⟨op,inside,commit⟩
    · rw [Nat.sub_eq_zero_of_le short,List.drop_zero]
    · exact absurd commit (quiet op (List.mem_of_mem_drop inside))

-- A session gives back what was committed to it, and has every op up to snapshot_seq in
-- a workbook, exactly while no op is dropped that no state_commit took up.
theorem compaction_loses_nothing (env : Env) (now : Nat) (file : SpreadsheetWorkbook)
    (reached : Reached start sessionId .spreadsheet fileId seed t) (whole : ∀ op ∈ t.log, Whole op) :
    (recovered env now file t.session = replay env now (startWorkbook seed file) (t.log.map editOf) ∧ FoldedIn t) ↔
      Covered t := by
  have kept := reached_kept reached
  constructor
  · intro both
    exact kept.foldedIn_iff.mp both.2
  · intro covered
    exact ⟨kept.recovers whole covered env now file,kept.foldedIn_iff.mpr covered⟩

def addOne : Edit := ⟨.sheetAdd,.object [("name",.string (textOf "B"))]⟩
def nameFifth : Edit := renameOf 4 "C"
def bringEmpty : Edit := ⟨.stateCommit,.object [("workbook",.object [("sheets",.array [])])]⟩

theorem compaction_loses_nothing_short : ∃ t, Reached 0 "s" .spreadsheet "f" none t ∧
    t.log.map editOf = [addOne,bringEmpty,nameFifth] ∧
    recovered plainEnv 0 (ofSheets []) t.session =
      replay plainEnv 0 (startWorkbook none (ofSheets [])) [addOne,bringEmpty,nameFifth] ∧ FoldedIn t := by
  obtain ⟨empty,here,log⟩ := attended 0 "s" "f" "u" none
  obtain ⟨t,there,edits⟩ := here.writes [addOne,bringEmpty,nameFifth] (by decide)
  rw [log,List.map_nil,List.nil_append] at edits
  have brought : ∀ edit ∈ t.log.map editOf, edit.opType = .stateCommit → ∃ value, Brings edit value := by
    rw [edits]
    intro edit member commit
    simp only [List.mem_cons,List.not_mem_nil,or_false] at member
    rcases member with rfl | rfl | rfl
    · cases commit
    · exact ⟨_,rfl,rfl,rfl⟩
    · cases commit
  have whole : ∀ op ∈ t.log, Whole op := fun op member => brought (editOf op) (List.mem_map_of_mem member)
  have length := congrArg List.length edits
  rw [List.length_map] at length
  have both := (compaction_loses_nothing plainEnv 0 (ofSheets []) there.reached whole).mpr
    (.inl (by rw [length]; decide))
  rw [edits] at both
  exact ⟨t,there.reached,edits,both⟩

theorem renames_sheets (env : Env) (now : Nat) (workbook : SpreadsheetWorkbook) (rename : edit.opType = .sheetRename) :
    (applyOp env now workbook edit).sheets.length = workbook.sheets.length := by
  rw [applyOp_rename env now rename]
  split
  · unfold renameSheet
    dsimp only
    split
    · rfl
    · exact List.length_mapIdx
  · rfl

theorem replay_renames (env : Env) (now : Nat) (count : Nat) (workbook : SpreadsheetWorkbook) :
    (replay env now workbook (List.replicate count nameFifth)).sheets.length = workbook.sheets.length := by
  induction count generalizing workbook with
  | zero => rfl
  | succ count ih =>
    rw [List.replicate_succ]
    exact (ih _).trans (renames_sheets env now workbook rfl)

theorem dropped_sheet : ∃ t, Reached 0 "s" .spreadsheet "f" none t ∧ (∀ op ∈ t.log, Whole op) ∧ ¬FoldedIn t ∧
    ∀ env now file, recovered env now file t.session ≠ replay env now (startWorkbook none file) (t.log.map editOf) := by
  obtain ⟨empty,here,log⟩ := attended 0 "s" "f" "u" none
  obtain ⟨t,there,edits⟩ := here.writes (addOne :: List.replicate defaultMaxOps nameFifth) (by
    intro edit member
    rcases List.mem_cons.mp member with rfl | member
    · rfl
    · rw [List.eq_of_mem_replicate member]
      rfl)
  rw [log,List.map_nil,List.nil_append] at edits
  have kept := reached_kept there.reached
  have incremental : ∀ edit ∈ t.log.map editOf, edit.opType ≠ .stateCommit := by
    rw [edits]
    intro edit member
    rcases List.mem_cons.mp member with rfl | member
    · decide
    · rw [List.eq_of_mem_replicate member]
      decide
  have quiet : ∀ op ∈ t.log, op.opType ≠ .stateCommit := fun op member => incremental (editOf op) (List.mem_map_of_mem member)
  have length := congrArg List.length edits
  rw [List.length_map,List.length_cons,List.length_replicate] at length
  refine ⟨t,there.reached,fun op member commit => absurd commit (quiet op member),?_,?_⟩
  · rw [kept.foldedIn_iff]
    rintro (short | ⟨op,inside,commit⟩)
    · omega
    · exact quiet op (List.mem_of_mem_drop inside) commit
  · intro env now file same
    have dropped : t.log.length - defaultMaxOps = 1 := by omega
    rw [kept.recovered_eq,kept.seeded quiet,dropped,List.map_drop,edits,List.drop_succ_cons,List.drop_zero] at same
    have counts := congrArg (fun workbook => workbook.sheets.length) same
    rw [replay_cons,replay_renames,replay_renames] at counts
    have added : (applyOp env now (startWorkbook none file) addOne).sheets.length =
      (startWorkbook none file).sheets.length + 1 := List.length_append
    omega

end Ownly.Sheets
