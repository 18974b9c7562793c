import Ownly.Sheets.SpillsApart

-- A sheet that has been recalculated, cell by cell, and what a second recalculation finds in
-- it: where the formulas give the same again, nothing changes.
namespace Ownly.Sheets.Spill
open Collab (Text)
open List Option Function
variable {env : Env} {evaluated : Evaluated} {rows base : Rows} {p q : Nat × Nat} {spill : SpillCell} {cell other : SheetCell}
  {evaluated' : Evaluated}

def frame (cell : SheetCell) : Option CellStyle × Option Text × Option Text := (cell.style,cell.comment,cell.hyperlink)

-- A cell that is not there counts as an empty one.
def cellOr (rows : Rows) (p : Nat × Nat) : SheetCell := (cellAt rows p).getD emptySheetCell

theorem cellOr_some (there : cellAt rows p = some cell) : cellOr rows p = cell := by rw [cellOr,there,getD_some]

theorem cellOr_none (absent : cellAt rows p = none) : cellOr rows p = emptySheetCell := by rw [cellOr,absent,getD_none]

section frames

theorem spilled_congr (same : frame cell = frame other) : spilled env spill p cell = spilled env spill p other := by
  obtain ⟨_,_,_,_,_,_,_⟩ := cell
  obtain ⟨_,_,_,_,_,_,_⟩ := other
  simp only [frame,Prod.mk.injEq] at same
  simp [spilled,same]

@[simp] theorem frame_spilled (cell : SheetCell) : frame (spilled env spill p cell) = frame cell := rfl

@[simp] theorem frame_refuse (cell : SheetCell) : frame (refuse cell) = frame cell := rfl

@[simp] theorem frame_evaluateCell (cleared : SheetData) (row col : Nat) (cell : SheetCell) :
    frame (evaluateCell env evaluated cleared row col cell) = frame cell := by
  unfold evaluateCell
  split <;> rfl

theorem cellOr_growRows (rows : Rows) (neededRows neededCols : Nat) (p : Nat × Nat) :
    cellOr (growRows rows neededRows neededCols) p = cellOr rows p := by
  rw [cellOr,cellOr,cellAt_growRows]
  cases cellAt rows p with
  | some cell => rfl
  | none =>
    rw [none_or]
    split <;> rfl

theorem cellOr_setCell {change : SheetCell → SheetCell} (kept : ∀ cell, frame (change cell) = frame cell) :
    frame (cellOr (setCell rows q change) p) = frame (cellOr rows p) := by
  rw [cellOr,cellOr,cellAt_setCell]
  split
  · cases cellAt rows p with
    | some cell => exact kept cell
    | none => rfl
  · rfl

theorem frame_apply (env : Env) (sheet : SheetData) (spill : SpillCell) (p : Nat × Nat) :
    frame (cellOr (applySpillResult env sheet spill).rows p) = frame (cellOr sheet.rows p) := by
  rw [← cellOr_growRows sheet.rows (spill.row + spill.result.spillRows) (spill.col + spill.result.spillCols) p]
  unfold applySpillResult
  simp only
  split
  · exact cellOr_setCell frame_refuse
  · generalize growRows sheet.rows _ _ = rows
    generalize spill.targets = targets
    induction targets generalizing rows with
    | nil => rfl
    | cons q targets ih => exact (ih _).trans (cellOr_setCell frame_spilled)

theorem frame_run (env : Env) (spills : List SpillCell) (sheet : SheetData) (p : Nat × Nat) :
    frame (cellOr (spills.foldl (applySpillResult env) sheet).rows p) = frame (cellOr sheet.rows p) := by
  induction spills generalizing sheet with
  | nil => rfl
  | cons spill spills ih => exact (ih _).trans (frame_apply env sheet spill p)

end frames

section final

theorem evaluateCell_plain (cleared : SheetData) (row col : Nat) (plain : truthy cell.formula = false) :
    evaluateCell env evaluated cleared row col cell = cell := by
  simp [evaluateCell,plain]

theorem cellOr_pass (env : Env) (evaluated : Evaluated) (cleared : SheetData) (p : Nat × Nat) :
    cellOr (evaluatePass env evaluated cleared).rows p = evaluateCell env evaluated cleared p.1 p.2 (cellOr cleared.rows p) := by
  rw [cellOr,cellOr,cellAt_pass]
  cases cellAt cleared.rows p with
  | some cell => rfl
  | none => exact (evaluateCell_plain cleared _ _ rfl).symm

theorem cellOr_cleared (sheet : SheetData) (p : Nat × Nat) :
    cellOr (clearSpillTargets sheet).rows p = clearCell (cellOr sheet.rows p) := by
  rw [cellOr,cellOr,cellAt_cleared]
  cases cellAt sheet.rows p <;> rfl

theorem occupied_cellOr (rows : Rows) (p : Nat × Nat) : occupied (cellAt rows p) = occupied (some (cellOr rows p)) := by
  rw [cellOr]
  cases cellAt rows p <;> rfl

theorem seen_congr {base' : Rows} (done : List SpillCell) (p : Nat × Nat)
    (same : ∀ spill, obstructed base spill = obstructed base' spill) : seen base done p = seen base' done p := by
  simp only [seen,written,same]

def refusedAt (cleared : Rows) (spills : List SpillCell) (p : Nat × Nat) : Bool :=
  spills.any (fun spill => obstructed cleared spill && decide (p = spill.origin))

def finalCell (env : Env) (evaluated : Evaluated) (cleared : SheetData) (p : Nat × Nat) (cell : SheetCell) : SheetCell :=
  match seen cleared.rows (spillsOf evaluated cleared) p with
  | some spill => spilled env spill p cell
  | none =>
    if refusedAt cleared.rows (spillsOf evaluated cleared) p then refuse (evaluateCell env evaluated cleared p.1 p.2 cell)
    else evaluateCell env evaluated cleared p.1 p.2 cell

theorem cellOr_result (env : Env) (evaluated : Evaluated) (sheet : SheetData) (p : Nat × Nat) :
    cellOr (recalculateSheet env evaluated sheet).rows p =
      finalCell env evaluated (clearSpillTargets sheet) p (cellOr (clearSpillTargets sheet).rows p) := by
  have same := seen_congr (spillsOf evaluated (clearSpillTargets sheet)) p (obstructed_pass env evaluated (clearSpillTargets sheet))
  have kept : frame (cellOr (recalculateSheet env evaluated sheet).rows p) = frame (cellOr (clearSpillTargets sheet).rows p) := by
    refine (frame_run env _ _ p).trans ?_
    rw [cellOr_pass,frame_evaluateCell]
  have passed := cellOr_pass env evaluated (clearSpillTargets sheet) p
  have clean := pass_clean env evaluated sheet
  have painted := recalculate_painted env evaluated sheet p
  unfold finalCell
  rw [← same,← passed]
  generalize outcome : cellAt (recalculateSheet env evaluated sheet).rows p = now at painted
  rw [cellOr,outcome] at kept ⊢
  cases painted with
  | spilled spill existing top =>
    rw [top]
    exact spilled_congr kept
  | refused spill bare member stopped here =>
    obtain ⟨origin,there,_⟩ := clean.origins spill member
    have marked : refusedAt (clearSpillTargets sheet).rows (spillsOf evaluated (clearSpillTargets sheet)) p = true := by
      rw [obstructed_pass] at stopped
      exact any_eq_true.mpr ⟨spill,member,by simp [stopped,here]⟩
    rw [← here] at there
    rw [bare,there,if_pos marked,cellOr_some there]
    rfl
  | same bare elsewhere =>
    have unmarked : refusedAt (clearSpillTargets sheet).rows (spillsOf evaluated (clearSpillTargets sheet)) p = false := by
      refine any_eq_false.mpr (fun spill member => ?_)
      have away := elsewhere spill member
      rw [obstructed_pass] at away
      simpa using away
    rw [bare,unmarked]
    rfl
  | grown bare absent =>
    have unmarked : refusedAt (clearSpillTargets sheet).rows (spillsOf evaluated (clearSpillTargets sheet)) p = false := by
      refine any_eq_false.mpr (fun spill member => ?_)
      obtain ⟨origin,there,_⟩ := clean.origins spill member
      have away : p ≠ spill.origin := by
        rintro rfl
        rw [there] at absent
        cases absent
      simp [away]
    rw [bare,unmarked,cellOr_none absent]
    rfl

end final

section cleared
variable {cleared sheet : SheetData}

theorem cleared_untagged (plain : truthy (cellOr (clearSpillTargets sheet).rows p).formula = false) :
    truthy (cellOr (clearSpillTargets sheet).rows p).spillFrom = false := by
  rw [cellOr_cleared] at plain ⊢
  unfold clearCell at plain ⊢
  split
  · rename_i kept
    rw [if_pos kept] at plain
    simpa [plain] using kept
  · rfl

theorem seen_formula (done : List SpillCell) (formula : truthy (cellOr rows p).formula = true) : seen rows done p = none :=
  bare_of_occupied (by rw [occupied_cellOr]; simp [occupied,formula])

theorem refusedAt_plain (plain : truthy (cellOr cleared.rows p).formula = false) :
    refusedAt cleared.rows (spillsOf evaluated cleared) p = false := by
  refine any_eq_false.mpr (fun spill member => ?_)
  have away : p ≠ spill.origin := by
    rintro rfl
    obtain ⟨cell,there,formula,_⟩ := mem_spillsOf.mp member
    rw [cellOr_some there,formula] at plain
    cases plain
  simp [away]

theorem finalCell_formula (formula : truthy (cellOr cleared.rows p).formula = true) :
    finalCell env evaluated cleared p (cellOr cleared.rows p) =
      if refusedAt cleared.rows (spillsOf evaluated cleared) p then
        refuse (evaluateCell env evaluated cleared p.1 p.2 (cellOr cleared.rows p))
      else evaluateCell env evaluated cleared p.1 p.2 (cellOr cleared.rows p) := by
  rw [finalCell,seen_formula _ formula]

theorem finalCell_target (top : seen cleared.rows (spillsOf evaluated cleared) p = some spill) (cell : SheetCell) :
    finalCell env evaluated cleared p cell = spilled env spill p cell := by
  rw [finalCell,top]

theorem finalCell_plain (bare : seen cleared.rows (spillsOf evaluated cleared) p = none)
    (plain : truthy (cellOr cleared.rows p).formula = false) :
    finalCell env evaluated cleared p (cellOr cleared.rows p) = cellOr cleared.rows p := by
  rw [finalCell,bare]
  simp only [refusedAt_plain plain,Bool.false_eq_true,if_false]
  exact evaluateCell_plain cleared _ _ plain

theorem evaluateCell_formula (env : Env) (evaluated : Evaluated) (cleared : SheetData) (row col : Nat) (cell : SheetCell) :
    (evaluateCell env evaluated cleared row col cell).formula = cell.formula := by
  unfold evaluateCell
  split <;> rfl

theorem again_formula (formula : truthy (cellOr (clearSpillTargets sheet).rows p).formula = true) :
    cellOr (clearSpillTargets (recalculateSheet env evaluated sheet)).rows p =
      finalCell env evaluated (clearSpillTargets sheet) p (cellOr (clearSpillTargets sheet).rows p) := by
  have own : truthy (finalCell env evaluated (clearSpillTargets sheet) p (cellOr (clearSpillTargets sheet).rows p)).formula = true := by
    rw [finalCell_formula formula]
    split
    · exact (congrArg truthy (evaluateCell_formula env evaluated _ p.1 p.2 _)).trans formula
    · exact (congrArg truthy (evaluateCell_formula env evaluated _ p.1 p.2 _)).trans formula
  rw [cellOr_cleared,cellOr_result]
  simp [clearCell,own]

theorem again_target (top : seen (clearSpillTargets sheet).rows (spillsOf evaluated (clearSpillTargets sheet)) p = some spill) :
    cellOr (clearSpillTargets (recalculateSheet env evaluated sheet)).rows p =
      {cellOr (clearSpillTargets sheet).rows p with value := .null,display := [],formula := none,spillFrom := none} := by
  have bare : truthy none = false := rfl
  rw [cellOr_cleared,cellOr_result,finalCell_target top]
  simp [clearCell,spilled,truthy_key,bare]

theorem again_plain (env : Env) (bare : seen (clearSpillTargets sheet).rows (spillsOf evaluated (clearSpillTargets sheet)) p = none)
    (plain : truthy (cellOr (clearSpillTargets sheet).rows p).formula = false) :
    cellOr (clearSpillTargets (recalculateSheet env evaluated sheet)).rows p = cellOr (clearSpillTargets sheet).rows p := by
  rw [cellOr_cleared,cellOr_result,finalCell_plain bare plain]
  simp [clearCell,cleared_untagged plain]

end cleared

inductive Again (env : Env) (evaluated : Evaluated) (cleared : SheetData) (p : Nat × Nat) (cell : SheetCell) : SheetCell → Prop where
  | formula (own : truthy cell.formula = true) (bare : seen cleared.rows (spillsOf evaluated cleared) p = none) :
      Again env evaluated cleared p cell (if refusedAt cleared.rows (spillsOf evaluated cleared) p then
          refuse (evaluateCell env evaluated cleared p.1 p.2 cell)
        else evaluateCell env evaluated cleared p.1 p.2 cell)
  | target (spill : SpillCell) (top : seen cleared.rows (spillsOf evaluated cleared) p = some spill)
      (plain : truthy cell.formula = false) (free : hasValue cell.value = false) :
      Again env evaluated cleared p cell {cell with value := .null,display := [],formula := none,spillFrom := none}
  | plain (bare : seen cleared.rows (spillsOf evaluated cleared) p = none) (plain : truthy cell.formula = false) :
      Again env evaluated cleared p cell cell

section again
variable {sheet : SheetData} {cleared : SheetData}

theorem again (env : Env) (evaluated : Evaluated) (sheet : SheetData) (p : Nat × Nat) :
    Again env evaluated (clearSpillTargets sheet) p (cellOr (clearSpillTargets sheet).rows p)
      (cellOr (clearSpillTargets (recalculateSheet env evaluated sheet)).rows p) := by
  cases own : truthy (cellOr (clearSpillTargets sheet).rows p).formula with
  | true =>
    rw [again_formula own,finalCell_formula own]
    exact .formula own (seen_formula _ own)
  | false =>
    cases top : seen (clearSpillTargets sheet).rows (spillsOf evaluated (clearSpillTargets sheet)) p with
    | none =>
      rw [again_plain env top own]
      exact .plain top own
    | some spill =>
      have free := seen_free top
      rw [occupied_cellOr] at free
      rw [again_target top]
      exact .target spill top own (by simpa [occupied,own] using free)

def ownFormula (cell : SheetCell) : Option Text := if truthy cell.formula then cell.formula else none

theorem Again.ownFormula (next : Again env evaluated cleared p cell other) :
    Spill.ownFormula other = Spill.ownFormula cell := by
  cases next with
  | formula own bare =>
    have kept := evaluateCell_formula env evaluated cleared p.1 p.2 cell
    split
    · simp only [Spill.ownFormula,refuse,kept]
    · simp only [Spill.ownFormula,kept]
  | target spill top plain free =>
    have bare : truthy none = false := rfl
    simp [Spill.ownFormula,plain,bare]
  | plain bare plain => rfl

theorem truthy_ownFormula (cell : SheetCell) : (Spill.ownFormula cell).isSome = truthy cell.formula := by
  unfold Spill.ownFormula
  split
  · rename_i own
    rw [own]
    cases given : cell.formula with
    | none => simp [given,truthy] at own
    | some formula => rfl
  · rename_i own
    exact (Bool.eq_false_iff.mpr own).symm

theorem Again.truthy (next : Again env evaluated cleared p cell other) :
    truthy other.formula = truthy cell.formula := by
  rw [← truthy_ownFormula,← truthy_ownFormula,next.ownFormula]

theorem Again.occupied (next : Again env evaluated cleared p cell other) :
    occupied (some other) = occupied (some cell) := by
  have own := next.truthy
  cases next with
  | formula formula bare => simp [Spill.occupied,own,formula]
  | target spill top plain free =>
    have bare : hasValue .null = false := rfl
    simp [Spill.occupied,own,plain,free,bare]
  | plain bare plain => rfl

end again

section shapes

def shape (rows : Rows) : List Nat := rows.map List.length

def growShape (lengths : List Nat) (spill : SpillCell) : List Nat :=
  (lengths ++ List.replicate (spill.row + spill.result.spillRows - lengths.length) 0).map (max · (spill.col + spill.result.spillCols))

-- No spill leaves a row, of its own or of a later one, that ends in front of its last column.
def Level (lengths : List Nat) (spills : List SpillCell) : Prop :=
  ∀ spill ∈ spills, ∀ length ∈ spills.foldl growShape lengths, spill.col + spill.result.spillCols ≤ length

variable {lengths : List Nat}

end shapes

end Ownly.Sheets.Spill
