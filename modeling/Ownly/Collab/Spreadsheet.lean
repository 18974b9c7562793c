import Ownly.Collab.Types

namespace Ownly.Collab.Spreadsheet

-- Max gap between client base_seq and head before forcing sync.
def maxBaseLag : Nat := 256

def knownOp : OpType → Bool
  | .cellEdit | .stylePatch | .clearContents | .comment | .hyperlink | .merge | .unmerge
  | .insertRow | .deleteRow | .insertColumn | .deleteColumn
  | .sheetAdd | .sheetRemove | .sheetRename | .sheetMove | .stateCommit => true
  | _ => false

def emptySnapshot : DomainSnapshot := ⟨0,[("workbook",.null)]⟩

def seedSnapshot (seed : Option Value) : DomainSnapshot :=
  match seed.bind (fun seed => seed.get "workbook") with
  | some workbook => {emptySnapshot with data := emptySnapshot.data.set "workbook" workbook}
  | none => emptySnapshot

-- Total order without payload transform.
def validateAndTransform (intervening : List OpEnvelope) (op : OpEnvelope) : Except CollabError OpEnvelope :=
  if !knownOp op.opType then .error (.invalidOp ("unknown spreadsheet op_type: " ++ op.opType.asStr))
  else if maxBaseLag < intervening.length then .error .syncRequired
  else .ok op

def apply (snapshot : DomainSnapshot) (op : OpEnvelope) : DomainSnapshot :=
  if op.opType = .stateCommit then
    match op.payload.get "workbook" with
    | some workbook => {snapshot with data := snapshot.data.set "workbook" workbook}
    | none => snapshot
  else snapshot

def presenceDefaults : Fields := [("active_cell",.null),("sheet_name",.null)]

end Ownly.Collab.Spreadsheet
