import Ownly.Sheets.Spill
import Mathlib

-- What the spills of one pass leave of each other: the last one that covers a cell is seen
-- there, and an array is shown whole when no later one covers a cell of it.
namespace Ownly.Sheets.Spill
open Collab (Text)
open List
variable {env : Env} {rows base : Rows} {p q : Nat × Nat} {spill other : SpillCell} {done : List SpillCell}

theorem cellAt_setCell (rows : Rows) (p q : Nat × Nat) (change : SheetCell → SheetCell) :
    cellAt (setCell rows p change) q = if q = p then (cellAt rows q).map change else cellAt rows q := by
  obtain ⟨row,col⟩ := p
  obtain ⟨row',col'⟩ := q
  simp only [cellAt,setCell,getElem?_modify,Prod.mk.injEq]
  cases rows[row']? with
  | none => simp
  | some cells =>
    by_cases same : row = row'
    · by_cases here : col = col'
      · simp [same,here]
      · simp [same,here,Ne.symm here]
    · simp [same,Ne.symm same]

theorem cellAt_growRows (rows : Rows) (neededRows neededCols : Nat) (p : Nat × Nat) :
    cellAt (growRows rows neededRows neededCols) p =
      (cellAt rows p).or (if p.1 < max rows.length neededRows ∧ p.2 < neededCols then some emptySheetCell else none) := by
  obtain ⟨row,col⟩ := p
  have padded : ∀ cells : List SheetCell,
      (cells ++ List.replicate (neededCols - cells.length) emptySheetCell)[col]? =
        cells[col]?.or (if col < neededCols then some emptySheetCell else none) := by
    intro cells
    rw [getElem?_append,getElem?_replicate]
    by_cases inside : col < cells.length
    · simp [inside]
    · have beyond : cells[col]? = none := getElem?_eq_none (by omega)
      by_cases needed : col < neededCols
      · have more : col - cells.length < neededCols - cells.length := by omega
        simp [inside,needed,more]
      · have none_ : ¬col - cells.length < neededCols - cells.length := by omega
        rw [if_neg inside,if_neg none_,beyond,if_neg needed]
        rfl
  simp only [cellAt,growRows,getElem?_map]
  by_cases inside : row < rows.length
  · have wide : row < max rows.length neededRows := by omega
    simp [getElem?_append_left inside,getElem?_eq_getElem inside,padded,wide]
  · have beyond : rows[row]? = none := getElem?_eq_none (by omega)
    rw [getElem?_append_right (by omega),getElem?_replicate,beyond]
    by_cases needed : row < neededRows
    · have more : row - rows.length < neededRows - rows.length := by omega
      have empty := padded []
      simp only [nil_append,length_nil,Nat.sub_zero,getElem?_nil,Option.none_or] at empty
      simp [needed,more,empty]
    · have none_ : ¬row - rows.length < neededRows - rows.length := by omega
      simp [needed,none_,inside]

theorem cellAt_writes (change : Nat × Nat → SheetCell → SheetCell) (targets : List (Nat × Nat)) (apart : targets.Nodup)
    (rows : Rows) (q : Nat × Nat) :
    cellAt (targets.foldl (fun rows p => setCell rows p (change p)) rows) q =
      if q ∈ targets then (cellAt rows q).map (change q) else cellAt rows q := by
  induction targets generalizing rows with
  | nil => simp
  | cons p rest ih =>
    obtain ⟨fresh,apart⟩ := nodup_cons.mp apart
    rw [foldl_cons,ih apart,cellAt_setCell]
    by_cases here : q = p
    · subst here
      simp [fresh]
    · simp [here]

theorem spillOriginKey_injective {row col row' col' : Nat} (same : spillOriginKey row col = spillOriginKey row' col') :
    row = row' ∧ col = col' := by
  have plain : ∀ (n : Nat) (c : Char), c ∈ Nat.toDigits 10 n → c ≠ ':' := by
    rintro n c inside rfl
    exact absurd (Nat.isDigit_of_mem_toDigits (by decide) (by decide) inside) (by decide)
  have cut : ∀ (n : Nat) (rest : Text), (Nat.toDigits 10 n ++ ':' :: rest).takeWhile (· ≠ ':') = Nat.toDigits 10 n := by
    intro n rest
    rw [takeWhile_append_of_pos (fun c inside => by simpa using plain n c inside)]
    simp
  have number : ∀ {m n : Nat}, Nat.toDigits 10 m = Nat.toDigits 10 n → m = n := by
    intro m n equal
    have values := congrArg (fun digits => Nat.ofDigitChars 10 digits 0) equal
    simpa using values
  have front := congrArg (List.takeWhile (· ≠ ':')) same
  rw [spillOriginKey,spillOriginKey,cut,cut] at front
  rw [spillOriginKey,spillOriginKey,front] at same
  exact ⟨number front,number (List.cons.inj (append_cancel_left same)).2⟩

theorem truthy_key (spill : SpillCell) : truthy (some spill.key) = true := by
  cases key : spill.key with
  | nil => simp [SpillCell.key,spillOriginKey] at key
  | cons c rest => rfl

theorem mem_targets : p ∈ spill.targets ↔ (spill.row ≤ p.1 ∧ p.1 < spill.row + spill.result.spillRows) ∧
    (spill.col ≤ p.2 ∧ p.2 < spill.col + spill.result.spillCols) ∧ p ≠ spill.origin := by
  obtain ⟨row,col⟩ := p
  simp only [SpillCell.targets,mem_filter,mem_flatMap,mem_map,mem_range,Prod.mk.injEq,
    decide_eq_true_eq]
  constructor
  · rintro ⟨⟨i,low,j,high,rfl,rfl⟩,apart⟩
    exact ⟨⟨by omega,by omega⟩,⟨by omega,by omega⟩,apart⟩
  · rintro ⟨⟨above,below⟩,⟨left,right⟩,apart⟩
    exact ⟨⟨row - spill.row,by omega,col - spill.col,by omega,by omega,by omega⟩,apart⟩

theorem targets_nodup (spill : SpillCell) : spill.targets.Nodup := by
  refine List.Nodup.filter _ (nodup_flatMap.mpr ⟨fun i _ => ?_,?_⟩)
  · exact List.Nodup.map (fun j j' same => by simpa using same) nodup_range
  · refine pairwise_lt_range.imp (fun {i i'} before p here there => ?_)
    obtain ⟨j,_,rfl⟩ := mem_map.mp here
    obtain ⟨j',_,same⟩ := mem_map.mp there
    simp only [Prod.mk.injEq] at same
    omega

def occupied : Option SheetCell → Bool
  | none => false
  | some cell => truthy cell.formula || hasValue cell.value

def obstructed (base : Rows) (spill : SpillCell) : Bool := spill.targets.any (fun p => occupied (cellAt base p))

def Covers (spill : SpillCell) (p : Nat × Nat) : Prop := p ∈ spill.targets

instance (spill : SpillCell) (p : Nat × Nat) : Decidable (Covers spill p) := inferInstanceAs (Decidable (_ ∈ _))

-- The spills that are written, in their order.
def written (base : Rows) (done : List SpillCell) : List SpillCell := done.filter (fun spill => !obstructed base spill)

def seen (base : Rows) (done : List SpillCell) (p : Nat × Nat) : Option SpillCell := Layers.top Covers (written base done) p

inductive Painted (env : Env) (base : Rows) (done : List SpillCell) (p : Nat × Nat) : Option SheetCell → Prop where
  | spilled (spill : SpillCell) (existing : SheetCell) (top : seen base done p = some spill) :
      Painted env base done p (some (spilled env spill p existing))
  | refused (spill : SpillCell) (bare : seen base done p = none) (member : spill ∈ done)
      (stopped : obstructed base spill = true) (here : p = spill.origin) : Painted env base done p ((cellAt base p).map refuse)
  | same (bare : seen base done p = none) (elsewhere : ∀ spill ∈ done, obstructed base spill = true → p ≠ spill.origin) :
      Painted env base done p (cellAt base p)
  | grown (bare : seen base done p = none) (absent : cellAt base p = none) : Painted env base done p (some emptySheetCell)

-- The sheet that the spills are written to: no cell is tagged, and each origin has its formula.
structure Clean (base : Rows) (spills : List SpillCell) : Prop where
  untagged : ∀ p cell, cellAt base p = some cell → truthy cell.spillFrom = false
  origins : ∀ spill ∈ spills, ∃ cell, cellAt base spill.origin = some cell ∧ truthy cell.formula = true

theorem seen_mem (top : seen base done p = some spill) :
    spill ∈ done ∧ obstructed base spill = false ∧ p ∈ spill.targets := by
  obtain ⟨member,covers⟩ := Layers.top_mem Covers top
  obtain ⟨member,free⟩ := mem_filter.mp member
  exact ⟨member,by simpa using free,covers⟩

theorem seen_free (top : seen base done p = some spill) : occupied (cellAt base p) = false := by
  obtain ⟨_,free,covers⟩ := seen_mem top
  simpa using any_eq_false.mp free p covers

theorem bare_of_occupied (there : occupied (cellAt base p) = true) : seen base done p = none := by
  cases top : seen base done p with
  | none => rfl
  | some spill => rw [seen_free top] at there; cases there

theorem painted_none (painted : Painted env base done p cell) (none_ : cell = none) :
    seen base done p = none ∧ cellAt base p = none := by
  cases painted with
  | spilled spill existing top => cases none_
  | refused spill bare member stopped here => exact ⟨bare,Option.map_eq_none_iff.mp none_⟩
  | same bare elsewhere => exact ⟨bare,none_⟩
  | grown bare absent => cases none_

theorem painted_grow (painted : ∀ p, Painted env base done p (cellAt rows p)) (neededRows neededCols : Nat) (p : Nat × Nat) :
    Painted env base done p (cellAt (growRows rows neededRows neededCols) p) := by
  rw [cellAt_growRows]
  have before := painted p
  cases here : cellAt rows p with
  | some cell => simpa [here] using before
  | none =>
    rw [here] at before
    obtain ⟨bare,absent⟩ := painted_none before rfl
    by_cases needed : p.1 < max rows.length neededRows ∧ p.2 < neededCols
    · rw [if_pos needed]
      exact .grown bare absent
    · rw [if_neg needed]
      exact before

theorem blocks_iff (clean : Clean base done) (key : SpillCell) (painted : Painted env base done p cell) :
    blocks key.key cell = occupied (cellAt base p) := by
  have named := truthy_key key
  cases painted with
  | spilled spill existing top =>
    have bare : truthy none = false := rfl
    simp only [seen_free top,blocks,spilled,cellIsEmptyForSpill,bare,truthy_key,Bool.false_eq_true,if_false,if_true,
      Bool.not_true,Bool.false_and,Bool.or_false]
  | refused spill bare member stopped here =>
    obtain ⟨cell,there,formula⟩ := clean.origins spill member
    rw [here,there]
    simp [blocks,occupied,refuse,formula]
  | same bare elsewhere =>
    cases there : cellAt base p with
    | none => simp [blocks,occupied,cellIsEmptyForSpill]
    | some cell =>
      have untagged := clean.untagged p cell there
      by_cases formula : truthy cell.formula = true
      · simp [blocks,occupied,formula]
      · have foreign : cell.spillFrom ≠ some key.key := by
          intro same
          rw [same,named] at untagged
          cases untagged
        simp [blocks,occupied,cellIsEmptyForSpill,formula,untagged,foreign]
  | grown bare absent =>
    rw [absent]
    rfl

theorem seen_refused (stopped : obstructed base spill = true) : seen base (done ++ [spill]) p = seen base done p := by
  simp [seen,written,filter_append,stopped]

theorem seen_added (free : obstructed base spill = false) :
    seen base (done ++ [spill]) p = if p ∈ spill.targets then some spill else seen base done p := by
  simp [seen,written,filter_append,free,Covers]
  rfl

theorem painted_more (painted : Painted env base done p cell)
    (unseen : seen base (done ++ [spill]) p = seen base done p)
    (elsewhere : obstructed base spill = true → p ≠ spill.origin) : Painted env base (done ++ [spill]) p cell := by
  cases painted with
  | spilled top existing shown => exact .spilled top existing (unseen.trans shown)
  | refused other bare member stopped here =>
    exact .refused other (unseen.trans bare) (mem_append_left _ member) stopped here
  | same bare apart =>
    refine .same (unseen.trans bare) (fun other member stopped => ?_)
    rcases mem_append.mp member with member | member
    · exact apart other member stopped
    · rw [mem_singleton.mp member] at stopped ⊢
      exact elsewhere stopped
  | grown bare absent => exact .grown (unseen.trans bare) absent

theorem painted_refuse (painted : Painted env base done p cell) (there : cellAt base p = some existing)
    (bare : seen base done p = none) : cell.map refuse = (cellAt base p).map refuse := by
  cases painted with
  | spilled top existing shown => rw [bare] at shown; cases shown
  | refused other bare member stopped here =>
    rw [Option.map_map]
    rfl
  | same bare apart => rfl
  | grown bare absent => rw [there] at absent; cases absent

theorem painted_step (clean : Clean base (done ++ [spill])) (sheet : SheetData)
    (painted : ∀ p, Painted env base done p (cellAt sheet.rows p)) (p : Nat × Nat) :
    Painted env base (done ++ [spill]) p (cellAt (applySpillResult env sheet spill).rows p) := by
  have part : Clean base done := ⟨clean.untagged,fun spill member => clean.origins spill (mem_append_left _ member)⟩
  have grown := painted_grow painted (spill.row + spill.result.spillRows) (spill.col + spill.result.spillCols)
  have stops : spill.targets.any (fun p => blocks spill.key (cellAt (growRows sheet.rows
      (spill.row + spill.result.spillRows) (spill.col + spill.result.spillCols)) p)) = obstructed base spill := by
    simp only [blocks_iff part spill (grown _),obstructed]
  have here := grown p
  cases stopped : obstructed base spill with
  | true =>
    obtain ⟨cell,there,formula⟩ := clean.origins spill (mem_append_right _ mem_cons_self)
    simp only [applySpillResult,stops,stopped,if_true]
    rw [cellAt_setCell]
    by_cases origin : p = spill.origin
    · rw [if_pos origin]
      subst origin
      have bare : seen base done spill.origin = none := bare_of_occupied (by simp [there,occupied,formula])
      rw [painted_refuse here there bare]
      exact .refused spill ((seen_refused stopped).trans bare) (mem_append_right _ mem_cons_self) stopped rfl
    · rw [if_neg origin]
      exact painted_more here (seen_refused stopped) (fun _ => origin)
  | false =>
    simp only [applySpillResult,stops,stopped,Bool.false_eq_true,if_false]
    rw [cellAt_writes _ _ (targets_nodup spill)]
    by_cases target : p ∈ spill.targets
    · rw [if_pos target]
      obtain ⟨⟨_,below⟩,⟨_,right⟩,_⟩ := mem_targets.mp target
      have room : p.1 < max sheet.rows.length (spill.row + spill.result.spillRows) ∧
          p.2 < spill.col + spill.result.spillCols := ⟨by omega,right⟩
      obtain ⟨existing,there⟩ : ∃ existing, cellAt (growRows sheet.rows (spill.row + spill.result.spillRows)
          (spill.col + spill.result.spillCols)) p = some existing := by
        rw [cellAt_growRows,if_pos room]
        cases cellAt sheet.rows p with
        | none => exact ⟨_,rfl⟩
        | some cell => exact ⟨cell,rfl⟩
      rw [there]
      exact .spilled spill existing ((seen_added stopped).trans (if_pos target))
    · rw [if_neg target]
      refine painted_more here ((seen_added stopped).trans (if_neg target)) (fun blocked => ?_)
      rw [stopped] at blocked
      cases blocked

theorem painted_run {spills : List SpillCell} (clean : Clean base (done ++ spills)) (sheet : SheetData)
    (painted : ∀ p, Painted env base done p (cellAt sheet.rows p)) (p : Nat × Nat) :
    Painted env base (done ++ spills) p (cellAt (spills.foldl (applySpillResult env) sheet).rows p) := by
  induction spills generalizing done sheet with
  | nil => simpa using painted p
  | cons spill rest ih =>
    have split : done ++ spill :: rest = (done ++ [spill]) ++ rest := by simp
    rw [split] at clean ⊢
    have one : Clean base (done ++ [spill]) :=
      ⟨clean.untagged,fun spill member => clean.origins spill (mem_append_left _ member)⟩
    exact ih clean _ (painted_step one sheet painted)

def Before (spill other : SpillCell) : Prop := spill.row < other.row ∨ spill.row = other.row ∧ spill.col < other.col

instance : Std.Asymm Before := ⟨fun spill other before after => by unfold Before at *; omega⟩

section pass
variable {evaluated : Evaluated} {sheet cleared : SheetData} {cell : SheetCell}

theorem cellAt_cleared (sheet : SheetData) (p : Nat × Nat) :
    cellAt (clearSpillTargets sheet).rows p = (cellAt sheet.rows p).map clearCell := by
  simp only [cellAt,clearSpillTargets,getElem?_map]
  cases sheet.rows[p.1]? <;> simp

theorem cleared_formula (there : cellAt (clearSpillTargets sheet).rows p = some cell) (formula : truthy cell.formula = true) :
    cellAt sheet.rows p = some cell := by
  rw [cellAt_cleared,Option.map_eq_some_iff] at there
  obtain ⟨before,first,rfl⟩ := there
  have kept : clearCell before = before := by
    by_cases tagged : truthy before.spillFrom = true
    · cases own : truthy before.formula with
      | true => simp [clearCell,own]
      | false => simp [clearCell,tagged,own] at formula
    · simp [clearCell,tagged]
  rw [kept,first]

theorem cellAt_pass (env : Env) (evaluated : Evaluated) (cleared : SheetData) (p : Nat × Nat) :
    cellAt (evaluatePass env evaluated cleared).rows p =
      (cellAt cleared.rows p).map (evaluateCell env evaluated cleared p.1 p.2) := by
  simp only [cellAt,evaluatePass,getElem?_mapIdx]
  cases cleared.rows[p.1]? <;> simp

theorem spillOf_eq : spillOf evaluated cleared row col cell = some spill ↔
    truthy cell.formula = true ∧ spill.row = row ∧ spill.col = col ∧ evaluated cleared row col = .array spill.result := by
  obtain ⟨row',col',result⟩ := spill
  unfold spillOf
  by_cases formula : truthy cell.formula = true
  · cases given : evaluated cleared row col with
    | scalar value => simp [formula]
    | array result' =>
      simp only [formula,Bool.not_true,Bool.false_eq_true,if_false,Option.some.injEq,SpillCell.mk.injEq,
        FormulaEvalResult.array.injEq,true_and]
      exact ⟨fun ⟨first,second,third⟩ => ⟨first.symm,second.symm,third⟩,fun ⟨first,second,third⟩ => ⟨first.symm,second.symm,third⟩⟩
  · simp [formula]

theorem mem_spillsOf : spill ∈ spillsOf evaluated cleared ↔
    ∃ cell, cellAt cleared.rows spill.origin = some cell ∧ truthy cell.formula = true ∧
      evaluated cleared spill.row spill.col = .array spill.result := by
  simp only [spillsOf,mem_flatten,mem_mapIdx,cellAt,SpillCell.origin]
  constructor
  · rintro ⟨_,⟨row,inside,rfl⟩,member⟩
    obtain ⟨col,inside',given⟩ := mem_mapIdx.mp (reduceOption_mem_iff.mp member)
    obtain ⟨formula,rfl,rfl,result⟩ := spillOf_eq.mp given
    exact ⟨_,by rw [getElem?_eq_getElem inside,Option.bind_some,getElem?_eq_getElem inside'],formula,result⟩
  · rintro ⟨cell,there,formula,result⟩
    obtain ⟨cells,first,second⟩ := Option.bind_eq_some_iff.mp there
    obtain ⟨inside,rfl⟩ := List.getElem?_eq_some_iff.mp first
    obtain ⟨inside',rfl⟩ := List.getElem?_eq_some_iff.mp second
    refine ⟨_,⟨spill.row,inside,rfl⟩,reduceOption_mem_iff.mpr (mem_mapIdx.mpr ⟨spill.col,inside',?_⟩)⟩
    exact spillOf_eq.mpr ⟨formula,rfl,rfl,result⟩

theorem spillsOf_sorted (evaluated : Evaluated) (cleared : SheetData) : (spillsOf evaluated cleared).Pairwise Before := by
  refine pairwise_flatten.mpr ⟨fun spills member => ?_,?_⟩
  · obtain ⟨row,inside,rfl⟩ := mem_mapIdx.mp member
    rw [List.reduceOption,pairwise_filterMap,pairwise_iff_getElem]
    intro i j _ _ before spill given other given'
    rw [getElem_mapIdx] at given given'
    obtain ⟨_,sameRow,sameCol,_⟩ := spillOf_eq.mp given
    obtain ⟨_,sameRow',sameCol',_⟩ := spillOf_eq.mp given'
    unfold Before
    omega
  · rw [pairwise_iff_getElem]
    intro i j _ _ before spill member other member'
    rw [getElem_mapIdx] at member member'
    obtain ⟨_,_,given⟩ := mem_mapIdx.mp (reduceOption_mem_iff.mp member)
    obtain ⟨_,_,given'⟩ := mem_mapIdx.mp (reduceOption_mem_iff.mp member')
    obtain ⟨_,sameRow,_,_⟩ := spillOf_eq.mp given
    obtain ⟨_,sameRow',_,_⟩ := spillOf_eq.mp given'
    unfold Before
    omega

theorem pass_clean (env : Env) (evaluated : Evaluated) (sheet : SheetData) :
    Clean (evaluatePass env evaluated (clearSpillTargets sheet)).rows (spillsOf evaluated (clearSpillTargets sheet)) := by
  refine ⟨fun p cell there => ?_,fun spill member => ?_⟩
  · rw [cellAt_pass,cellAt_cleared,Option.map_map] at there
    obtain ⟨before,_,rfl⟩ := Option.map_eq_some_iff.mp there
    have bare : truthy none = false := rfl
    by_cases formula : truthy before.formula = true
    · simp [clearCell,evaluateCell,formula,bare]
    · by_cases tagged : truthy before.spillFrom = true
      · simp [clearCell,evaluateCell,formula,tagged,bare]
      · simp [clearCell,evaluateCell,formula,tagged]
  · obtain ⟨cell,there,formula,_⟩ := mem_spillsOf.mp member
    refine ⟨_,by rw [cellAt_pass,there]; rfl,?_⟩
    simp [evaluateCell,formula]

theorem occupied_pass (env : Env) (evaluated : Evaluated) (cleared : SheetData) (p : Nat × Nat) :
    occupied (cellAt (evaluatePass env evaluated cleared).rows p) = occupied (cellAt cleared.rows p) := by
  rw [cellAt_pass]
  cases cellAt cleared.rows p with
  | none => rfl
  | some cell =>
    by_cases formula : truthy cell.formula = true
    · simp [occupied,evaluateCell,formula]
    · simp [evaluateCell,formula]

end pass

def Shown (result : Rows) (spill : SpillCell) : Prop := ∀ p ∈ spill.targets, ∃ cell, cellAt result p = some cell ∧
  cell.spillFrom = some spill.key ∧ cell.value = (spill.valueAt p).stored

def Refused (result : Rows) (spill : SpillCell) : Prop :=
  (∃ cell, cellAt result spill.origin = some cell ∧ cell.value = .text spillError ∧ cell.display = spillError) ∧
  ∀ p cell, cellAt result p = some cell → cell.spillFrom ≠ some spill.key

structure Apart (sheet : Rows) (spills : List SpillCell) (result : Rows) : Prop where
  each : ∀ spill ∈ spills, Refused result spill ∨ Shown result spill
  once : ∀ spill ∈ spills, ∀ other ∈ spills, Shown result spill → Shown result other →
    ∀ p, p ∈ spill.targets → p ∈ other.targets → spill = other
  formulas : ∀ p cell, cellAt sheet p = some cell → truthy cell.formula = true →
    ∃ after, cellAt result p = some after ∧ after.formula = cell.formula
  entered : ∀ p cell, cellAt sheet p = some cell → truthy cell.formula = false → truthy cell.spillFrom = false →
    hasValue cell.value = true → cellAt result p = some cell

-- An array without an obstacle that comes later covers the cell.
def CoveredLater (cleared : Rows) (spills : List SpillCell) (spill : SpillCell) (p : Nat × Nat) : Prop :=
  ∃ other ∈ spills, Before spill other ∧ obstructed cleared other = false ∧ p ∈ other.targets

def NoneCovered (cleared : Rows) (spills : List SpillCell) : Prop :=
  ∀ spill ∈ spills, obstructed cleared spill = false →
    (∀ p ∈ spill.targets, ¬CoveredLater cleared spills spill p) ∨
    (evalArrayFirstValue spill.result).stored = .text spillError ∧ ∀ p ∈ spill.targets, CoveredLater cleared spills spill p


section result
variable {evaluated : Evaluated} {sheet cleared : SheetData} {spills : List SpillCell} {result : Rows}

theorem spill_of_key (member : spill ∈ spillsOf evaluated cleared) (member' : other ∈ spillsOf evaluated cleared)
    (same : spill.key = other.key) : spill = other := by
  obtain ⟨_,_,_,given⟩ := mem_spillsOf.mp member
  obtain ⟨_,_,_,given'⟩ := mem_spillsOf.mp member'
  obtain ⟨row,col⟩ := spillOriginKey_injective same
  rw [row,col,given'] at given
  obtain ⟨row',col',result⟩ := spill
  obtain ⟨row'',col'',result'⟩ := other
  simp only [FormulaEvalResult.array.injEq] at row col given
  rw [row,col,given]

theorem obstructed_pass (env : Env) (evaluated : Evaluated) (cleared : SheetData) (spill : SpillCell) :
    obstructed (evaluatePass env evaluated cleared).rows spill = obstructed cleared.rows spill := by
  simp only [obstructed,occupied_pass]

theorem seen_iff (sorted : spills.Pairwise Before) (member : spill ∈ spills) (free : obstructed base spill = false)
    (target : p ∈ spill.targets) : seen base spills p = some spill ↔ ¬CoveredLater base spills spill p := by
  have ordered : (written base spills).Pairwise Before := sorted.filter _
  rw [seen,Layers.top_iff Covers Before ordered]
  constructor
  · rintro ⟨_,_,above⟩ ⟨other,member',later,free',target'⟩
    exact above other (mem_filter.mpr ⟨member',by simp [free']⟩) later target'
  · intro bare
    refine ⟨mem_filter.mpr ⟨member,by simp [free]⟩,target,fun other member' later target' => bare ?_⟩
    obtain ⟨member',free'⟩ := mem_filter.mp member'
    exact ⟨other,member',later,by simpa using free',target'⟩

theorem recalculate_painted (env : Env) (evaluated : Evaluated) (sheet : SheetData) (p : Nat × Nat) :
    Painted env (evaluatePass env evaluated (clearSpillTargets sheet)).rows (spillsOf evaluated (clearSpillTargets sheet)) p
      (cellAt (recalculateSheet env evaluated sheet).rows p) := by
  have start : ∀ p, Painted env (evaluatePass env evaluated (clearSpillTargets sheet)).rows [] p
      (cellAt (evaluatePass env evaluated (clearSpillTargets sheet)).rows p) := by
    intro p
    exact .same rfl (fun spill member => nomatch member)
  have clean : Clean _ ([] ++ spillsOf evaluated (clearSpillTargets sheet)) := pass_clean env evaluated sheet
  exact painted_run clean _ start p

section
variable (clean : Clean base spills)
include clean

theorem tagged_iff (painted : Painted env base spills p (some cell)) (spill : SpillCell)
    (alone : ∀ other ∈ spills, other.key = spill.key → other = spill) :
    cell.spillFrom = some spill.key ↔ seen base spills p = some spill := by
  have foreign : ∀ before, cellAt base p = some before → before.spillFrom ≠ some spill.key := by
    intro before there same
    have untagged := clean.untagged p before there
    rw [same,truthy_key] at untagged
    cases untagged
  generalize state : some cell = now at painted
  cases painted with
  | spilled top existing shown =>
    cases state
    rw [shown,Option.some.injEq]
    constructor
    · intro same
      exact alone top (seen_mem shown).1 (Option.some.inj same)
    · rintro rfl
      rfl
  | refused other bare member stopped here =>
    obtain ⟨before,there,rfl⟩ := Option.map_eq_some_iff.mp state.symm
    rw [bare]
    exact iff_of_false (foreign before there) (by simp)
  | same bare elsewhere =>
    rw [bare]
    exact iff_of_false (foreign cell state.symm) (by simp)
  | grown bare absent =>
    cases state
    rw [bare]
    exact iff_of_false (by simp [emptySheetCell]) (by simp)

section
variable (painted : ∀ p, Painted env base spills p (cellAt result p)) (alone : ∀ other ∈ spills, other.key = spill.key → other = spill)
include painted alone

theorem shown_iff
    :
    Shown result spill ↔ ∀ p ∈ spill.targets, seen base spills p = some spill := by
  constructor
  · intro shown p target
    obtain ⟨cell,there,tag,_⟩ := shown p target
    have here := painted p
    rw [there] at here
    exact (tagged_iff clean here spill alone).mp tag
  · intro tops p target
    have here := painted p
    have top := tops p target
    generalize cellAt result p = now at here
    cases here with
    | spilled other existing shown =>
      cases top.symm.trans shown
      exact ⟨_,rfl,rfl,rfl⟩
    | refused other bare member stopped here => rw [bare] at top; cases top
    | same bare elsewhere => rw [bare] at top; cases top
    | grown bare absent => rw [bare] at top; cases top

theorem untagged_result
    :
    (∀ p cell, cellAt result p = some cell → cell.spillFrom ≠ some spill.key) ↔
      ∀ p ∈ spill.targets, seen base spills p ≠ some spill := by
  constructor
  · intro untagged p _ top
    have here := painted p
    generalize state : cellAt result p = now at here
    cases here with
    | spilled other existing shown =>
      cases top.symm.trans shown
      exact untagged p _ state rfl
    | refused other bare member stopped here => rw [bare] at top; cases top
    | same bare elsewhere => rw [bare] at top; cases top
    | grown bare absent => rw [bare] at top; cases top
  · intro unseen p cell there tag
    have here := painted p
    rw [there] at here
    have top := (tagged_iff clean here spill alone).mp tag
    exact unseen p (seen_mem top).2.2 top

end

theorem origin_result
    (painted : ∀ p, Painted env base spills p (cellAt result p)) (member : spill ∈ spills)
    (alone : ∀ other ∈ spills, other.key = spill.key → other = spill) :
    ∃ cell, cellAt base spill.origin = some cell ∧ cellAt result spill.origin =
      some (if obstructed base spill then refuse cell else cell) := by
  obtain ⟨cell,there,formula⟩ := clean.origins spill member
  have bare' : seen base spills spill.origin = none := bare_of_occupied (by simp [there,occupied,formula])
  refine ⟨cell,there,?_⟩
  have here := painted spill.origin
  generalize cellAt result spill.origin = now at here
  cases here with
  | spilled other existing shown => rw [bare'] at shown; cases shown
  | refused other bare member' stopped here =>
    have same : other = spill := by
      have parts : spill.row = other.row ∧ spill.col = other.col := by simpa [SpillCell.origin] using here
      exact alone other member' (by rw [SpillCell.key,SpillCell.key,parts.1,parts.2])
    rw [← same,stopped,same,there]
    rfl
  | same bare elsewhere =>
    cases stopped : obstructed base spill with
    | true => exact absurd rfl (elsewhere spill member stopped)
    | false => simp [there]
  | grown bare absent => rw [there] at absent; cases absent

end

end result

theorem display_spillError (env : Env) (first second : Option Text) :
    displayFromEvaluated env (.text spillError) first second = spillError := rfl

theorem refused_iff (env : Env) (evaluated : Evaluated) (sheet : SheetData)
    (member : spill ∈ spillsOf evaluated (clearSpillTargets sheet)) :
    Refused (recalculateSheet env evaluated sheet).rows spill ↔
      obstructed (clearSpillTargets sheet).rows spill = true ∨
      (evalArrayFirstValue spill.result).stored = .text spillError ∧ ∀ p ∈ spill.targets,
        seen (evaluatePass env evaluated (clearSpillTargets sheet)).rows (spillsOf evaluated (clearSpillTargets sheet)) p ≠
          some spill := by
  have clean := pass_clean env evaluated sheet
  have painted := recalculate_painted env evaluated sheet
  have alone : ∀ other ∈ spillsOf evaluated (clearSpillTargets sheet), other.key = spill.key → other = spill :=
    fun other member' same => spill_of_key member' member same
  obtain ⟨cell,there,result⟩ := origin_result clean painted member alone
  rw [obstructed_pass] at result
  rw [Refused,untagged_result clean painted alone,result]
  cases stopped : obstructed (clearSpillTargets sheet).rows spill with
  | true =>
    refine iff_of_true ⟨⟨refuse cell,rfl,rfl,rfl⟩,fun p _ top => ?_⟩ (.inl rfl)
    have free := (seen_mem top).2.1
    rw [obstructed_pass,stopped] at free
    cases free
  | false =>
    obtain ⟨before,first,formula,given⟩ := mem_spillsOf.mp member
    rw [cellAt_pass,first] at there
    cases there
    have value : (evaluateCell env evaluated (clearSpillTargets sheet) spill.origin.1 spill.origin.2 before).value =
        (evalArrayFirstValue spill.result).stored := by
      simp [evaluateCell,formula,SpillCell.origin,given,toScalar]
    have display : (evalArrayFirstValue spill.result).stored = .text spillError →
        (evaluateCell env evaluated (clearSpillTargets sheet) spill.origin.1 spill.origin.2 before).display = spillError := by
      intro shows
      have text : evalArrayFirstValue spill.result = .text spillError := by
        cases scalar : evalArrayFirstValue spill.result <;> simp_all [Scalar.stored]
      simp only [evaluateCell,formula,SpillCell.origin,given,toScalar,text,Bool.not_true,Bool.false_eq_true,if_false]
      exact display_spillError env _ _
    simp only [Bool.false_eq_true,if_false,Option.some.injEq,false_or]
    refine and_congr_left (fun _ => ?_)
    constructor
    · rintro ⟨_,rfl,shows,_⟩
      exact value.symm.trans shows
    · intro shows
      exact ⟨_,rfl,value.trans shows,display shows⟩

theorem coveredLater_pass (env : Env) (evaluated : Evaluated) (cleared : SheetData) (spills : List SpillCell)
    (spill : SpillCell) (p : Nat × Nat) :
    CoveredLater (evaluatePass env evaluated cleared).rows spills spill p ↔ CoveredLater cleared.rows spills spill p := by
  simp only [CoveredLater,obstructed_pass]

theorem formula_kept (env : Env) (evaluated : Evaluated) (sheet : SheetData) (there : cellAt sheet.rows p = some cell)
    (formula : truthy cell.formula = true) :
    ∃ after, cellAt (recalculateSheet env evaluated sheet).rows p = some after ∧ after.formula = cell.formula := by
  have kept : clearCell cell = cell := by simp [clearCell,formula]
  have base : cellAt (evaluatePass env evaluated (clearSpillTargets sheet)).rows p =
      some (evaluateCell env evaluated (clearSpillTargets sheet) p.1 p.2 cell) := by
    rw [cellAt_pass,cellAt_cleared,there,Option.map_some,Option.map_some,kept]
  have same : (evaluateCell env evaluated (clearSpillTargets sheet) p.1 p.2 cell).formula = cell.formula := by
    simp [evaluateCell,formula]
  have bare' : seen (evaluatePass env evaluated (clearSpillTargets sheet)).rows
      (spillsOf evaluated (clearSpillTargets sheet)) p = none :=
    bare_of_occupied (by simp [base,occupied,same,formula])
  have painted := recalculate_painted env evaluated sheet p
  generalize cellAt (recalculateSheet env evaluated sheet).rows p = now at painted
  cases painted with
  | spilled spill existing top => rw [bare'] at top; cases top
  | refused spill bare member stopped here =>
    rw [base]
    exact ⟨_,rfl,same⟩
  | same bare elsewhere => exact ⟨_,base,same⟩
  | grown bare absent => rw [base] at absent; cases absent

theorem entered_kept (env : Env) (evaluated : Evaluated) (sheet : SheetData) (there : cellAt sheet.rows p = some cell)
    (plain : truthy cell.formula = false) (untagged : truthy cell.spillFrom = false) (value : hasValue cell.value = true) :
    cellAt (recalculateSheet env evaluated sheet).rows p = some cell := by
  have kept : clearCell cell = cell := by simp [clearCell,untagged]
  have base : cellAt (evaluatePass env evaluated (clearSpillTargets sheet)).rows p = some cell := by
    rw [cellAt_pass,cellAt_cleared,there,Option.map_some,Option.map_some,kept]
    simp [evaluateCell,plain]
  have bare' : seen (evaluatePass env evaluated (clearSpillTargets sheet)).rows
      (spillsOf evaluated (clearSpillTargets sheet)) p = none :=
    bare_of_occupied (by simp [base,occupied,value])
  have painted := recalculate_painted env evaluated sheet p
  generalize cellAt (recalculateSheet env evaluated sheet).rows p = now at painted
  cases painted with
  | spilled spill existing top => rw [bare'] at top; cases top
  | refused spill bare member stopped here =>
    obtain ⟨origin,at_,formula⟩ := (pass_clean env evaluated sheet).origins spill member
    rw [← here,base] at at_
    cases at_
    rw [plain] at formula
    cases formula
  | same bare elsewhere => exact base
  | grown bare absent => rw [base] at absent; cases absent

theorem formula_result (env : Env) (evaluated : Evaluated) (sheet : SheetData) (there : cellAt sheet.rows p = some cell)
    (formula : truthy cell.formula = true) (free : ∀ spill ∈ spillsOf evaluated (clearSpillTargets sheet), p = spill.origin →
      obstructed (clearSpillTargets sheet).rows spill = false) :
    cellAt (recalculateSheet env evaluated sheet).rows p =
      some (evaluateCell env evaluated (clearSpillTargets sheet) p.1 p.2 cell) := by
  have kept : clearCell cell = cell := by simp [clearCell,formula]
  have base : cellAt (evaluatePass env evaluated (clearSpillTargets sheet)).rows p =
      some (evaluateCell env evaluated (clearSpillTargets sheet) p.1 p.2 cell) := by
    rw [cellAt_pass,cellAt_cleared,there,Option.map_some,Option.map_some,kept]
  have bare' : seen (evaluatePass env evaluated (clearSpillTargets sheet)).rows
      (spillsOf evaluated (clearSpillTargets sheet)) p = none :=
    bare_of_occupied (by simp [base,occupied,evaluateCell,formula])
  have painted := recalculate_painted env evaluated sheet p
  generalize cellAt (recalculateSheet env evaluated sheet).rows p = now at painted
  cases painted with
  | spilled spill existing top => rw [bare'] at top; cases top
  | refused spill bare member stopped here =>
    rw [obstructed_pass,free spill member here] at stopped
    cases stopped
  | same bare elsewhere => exact base
  | grown bare absent => rw [base] at absent; cases absent

theorem recalculateSheet_apart (env : Env) (evaluated : Evaluated) (sheet : SheetData) :
    Apart sheet.rows (spillsOf evaluated (clearSpillTargets sheet)) (recalculateSheet env evaluated sheet).rows ↔
      NoneCovered (clearSpillTargets sheet).rows (spillsOf evaluated (clearSpillTargets sheet)) := by
  have clean := pass_clean env evaluated sheet
  have painted := recalculate_painted env evaluated sheet
  have sorted := spillsOf_sorted evaluated (clearSpillTargets sheet)
  have top : ∀ spill ∈ spillsOf evaluated (clearSpillTargets sheet),
      obstructed (clearSpillTargets sheet).rows spill = false → ∀ p ∈ spill.targets,
      (seen (evaluatePass env evaluated (clearSpillTargets sheet)).rows (spillsOf evaluated (clearSpillTargets sheet)) p =
        some spill ↔ ¬CoveredLater (clearSpillTargets sheet).rows (spillsOf evaluated (clearSpillTargets sheet)) spill p) := by
    intro spill member free p target
    rw [← coveredLater_pass env evaluated]
    exact seen_iff sorted member ((obstructed_pass env evaluated _ spill).trans free) target
  constructor
  · intro apart spill member free
    rcases apart.each spill member with refused | shown
    · rcases (refused_iff env evaluated sheet member).mp refused with stopped | ⟨first,unseen⟩
      · rw [free] at stopped
        cases stopped
      · exact .inr ⟨first,fun p target => not_not.mp (fun bare => unseen p target ((top spill member free p target).mpr bare))⟩
    · have tops := (shown_iff clean painted (fun other member' same => spill_of_key member' member same)).mp shown
      exact .inl (fun p target => (top spill member free p target).mp (tops p target))
  · intro none_
    refine ⟨fun spill member => ?_,?_,?_,?_⟩
    · cases stopped : obstructed (clearSpillTargets sheet).rows spill with
      | true => exact .inl ((refused_iff env evaluated sheet member).mpr (.inl stopped))
      | false =>
        rcases none_ spill member stopped with bare | ⟨first,covered⟩
        · refine .inr ((shown_iff clean painted (fun other member' same => spill_of_key member' member same)).mpr ?_)
          exact fun p target => (top spill member stopped p target).mpr (bare p target)
        · refine .inl ((refused_iff env evaluated sheet member).mpr (.inr ⟨first,fun p target shown => ?_⟩))
          exact (top spill member stopped p target).mp shown (covered p target)
    · intro spill member other member' shown shown' p target target'
      obtain ⟨cell,there,tag,_⟩ := shown p target
      obtain ⟨cell',there',tag',_⟩ := shown' p target'
      rw [there] at there'
      cases there'
      exact spill_of_key member member' (Option.some.inj (tag.symm.trans tag'))
    · exact fun p cell there formula => formula_kept env evaluated sheet there formula
    · exact fun p cell there plain untagged value => entered_kept env evaluated sheet there plain untagged value

def evalSequence (rows cols : Nat) (start step : Rat) : EvalArray :=
  let safeRows := max 1 (min rows 1000)
  let safeCols := max 1 (min cols 100)
  ⟨(List.range (safeRows * safeCols)).map (fun n => .number (start + n * step)),safeRows,safeCols⟩

def formulaAt (sheet : SheetData) (row col : Nat) : Text := ((cellAt sheet.rows (row,col)).bind SheetCell.formula).getD []

def crossing : Evaluated := fun sheet row col =>
  if formulaAt sheet row col = textOf "=SEQUENCE(3,1,1,1)" then .array (evalSequence 3 1 1 1)
  else if formulaAt sheet row col = textOf "=SEQUENCE(1,3,10,1)" then .array (evalSequence 1 3 10 1)
  else .scalar .null

def formulaCell (formula : String) : SheetCell := {emptySheetCell with formula := some (textOf formula)}

def crossed : SheetData := ⟨textOf "Sheet1",[[emptySheetCell,formulaCell "=SEQUENCE(3,1,1,1)"],
  [formulaCell "=SEQUENCE(1,3,10,1)"]],none,none,none,[]⟩

def crossedAfter (p : Nat × Nat) : Option (CellValue × Option Text) :=
  (cellAt (recalculateSheet plainEnv crossing crossed).rows p).map (fun cell => (cell.value,cell.spillFrom))

theorem recalculateSheet_crossing :
    (crossedAfter (0,1) = some (.number 1,none) ∧ crossedAfter (1,1) = some (.number 11,some (spillOriginKey 1 0)) ∧
      crossedAfter (2,1) = some (.number 3,some (spillOriginKey 0 1))) ∧
    ¬Apart crossed.rows (spillsOf crossing (clearSpillTargets crossed)) (recalculateSheet plainEnv crossing crossed).rows := by
  have cells : crossedAfter (0,1) = some (.number 1,none) ∧
      crossedAfter (1,1) = some (.number 11,some (spillOriginKey 1 0)) ∧
      crossedAfter (2,1) = some (.number 3,some (spillOriginKey 0 1)) := by decide +kernel
  refine ⟨cells,fun apart => ?_⟩
  have column : (⟨0,1,evalSequence 3 1 1 1⟩ : SpillCell) ∈ spillsOf crossing (clearSpillTargets crossed) :=
    mem_spillsOf.mpr ⟨formulaCell "=SEQUENCE(3,1,1,1)",rfl,rfl,rfl⟩
  obtain ⟨top,middle,_⟩ := cells
  rcases apart.each _ column with ⟨⟨cell,there,shows,_⟩,_⟩ | shown
  · obtain ⟨after,there',values⟩ := Option.map_eq_some_iff.mp top
    cases there.symm.trans there'
    rw [shows] at values
    cases values
  · obtain ⟨cell,there,tag,_⟩ := shown (1,1) (by decide)
    obtain ⟨after,there',values⟩ := Option.map_eq_some_iff.mp middle
    cases there.symm.trans there'
    rw [tag] at values
    exact absurd (Prod.mk.inj values).2 (by decide)

end Ownly.Sheets.Spill
