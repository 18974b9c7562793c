import Ownly.Sheets.Compaction

-- The message of an op brings the session as the op left it, and with it the workbook of
-- the last state_commit.
namespace Ownly.Sheets
open Collab (Value OpEnvelope Timeline)
open Collab.Client (CollabClient)
open Collab.Timeline (Reached)

inductive Leads (env : Env) : SpreadsheetWorkbook → List Edit → SpreadsheetWorkbook → Prop where
  | nil (workbook : SpreadsheetWorkbook) : Leads env workbook [] workbook
  | cons (now : Nat) (later : Leads env (applyOp env now workbook edit) rest final) : Leads env workbook (edit :: rest) final

theorem Leads.single (leads : Leads env workbook [edit] final) : ∃ now, final = applyOp env now workbook edit := by
  cases leads with
  | cons now later =>
    generalize same : applyOp env now workbook edit = next at later
    cases later
    exact ⟨now,same.symm⟩

-- The workbook shows the edits on top of `base`, and maybe some of the edits that the
-- client itself had pending.
def Shows (env : Env) (base : SpreadsheetWorkbook) (edits pending : List Edit) (workbook : SpreadsheetWorkbook) : Prop :=
  ∃ own, own.Sublist pending ∧ Leads env base (edits ++ own) workbook

def upToDate (latestSeq : Nat) (workbook : SpreadsheetWorkbook) : Screen := ⟨⟨none,latestSeq,[]⟩,workbook⟩

end Ownly.Sheets
