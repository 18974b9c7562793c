import Mathlib.Data.List.Induction
import Ownly.Sheets.WorkbookOps

-- frontend/src/lib/spreadsheet/undo.ts and what useSpreadsheetEditor.ts does with its stacks.
namespace Ownly.Sheets
open Collab (Text Value Fields)
open List Option

def maxUndoDepth : Nat := 50

structure UndoStack where
  past : List SpreadsheetWorkbook
  future : List SpreadsheetWorkbook

-- `JSON.parse(JSON.stringify(..))` and the bytes again, of what is never changed in place.
def cloneWorkbook (workbook : SpreadsheetWorkbook) : SpreadsheetWorkbook := workbook

def createUndoStack (initial : Option SpreadsheetWorkbook) : UndoStack := ⟨(initial.map cloneWorkbook).toList,[]⟩

def pushUndo (stack : UndoStack) (workbook : SpreadsheetWorkbook) : UndoStack :=
  let past := stack.past ++ [cloneWorkbook workbook]
  ⟨if past.length > maxUndoDepth then past.tail else past,[]⟩

def undo (stack : UndoStack) (current : SpreadsheetWorkbook) : UndoStack × Option SpreadsheetWorkbook :=
  if stack.past.length ≤ 1 then (stack,none)
  else
    let past := stack.past.dropLast
    (⟨past,cloneWorkbook current :: stack.future⟩,past.getLast?.map cloneWorkbook)

def redo (stack : UndoStack) (current : SpreadsheetWorkbook) : UndoStack × Option SpreadsheetWorkbook :=
  match stack.future with
  | [] => (stack,none)
  | next :: future => (⟨stack.past ++ [cloneWorkbook current],future⟩,some (cloneWorkbook next))

structure Editor where
  workbook : Option SpreadsheetWorkbook
  undoStack : UndoStack
  activeSheetIndex : Nat
  readOnly : Bool

-- What `Boolean(..)` makes of a value that came with JSON.
def isTruthy : Value → Bool
  | .null => false
  | .bool b => b
  | .number n => numberOf n ≠ 0
  | .string s => s ≠ []
  | .array _ | .object _ => true

-- `isSheetProtected` of a workbook with one of its sheets active.
def sheetProtected (workbook : SpreadsheetWorkbook) (activeSheetIndex : Nat) : Bool :=
  match workbook.sheets[activeSheetIndex]?.bind (fun sheet => Fields.get sheet.others "protection") with
  | some protection => ((protection.get "locked").map isTruthy).getD false
  | none => false

def Editor.isSheetProtected (editor : Editor) : Bool :=
  match editor.workbook with
  | some workbook => sheetProtected workbook editor.activeSheetIndex
  | none => false

structure Mutation where
  now : Nat
  activeSheetIndex : Nat
  bypassProtection : Bool
  mutator : SpreadsheetWorkbook → Option SpreadsheetWorkbook

section
variable (env : Env) (now : Nat)

def loadWorkbook (editor : Editor) (parsed : SpreadsheetWorkbook) : Editor :=
  let calculated := recalculateWorkbook env now parsed
  {editor with workbook := some calculated,undoStack := createUndoStack (some calculated),activeSheetIndex := 0}

-- none where nothing is committed.
def commitWorkbookMutation (editor : Editor) (mutation : Mutation) : Option Editor :=
  let editor := {editor with activeSheetIndex := mutation.activeSheetIndex}
  if editor.readOnly ∨ ¬mutation.bypassProtection ∧ editor.isSheetProtected then none
  else
    match editor.workbook with
    | none => none
    | some current => (mutation.mutator current).map (fun mutated =>
        {editor with
          workbook := some (recalculateWorkbook env mutation.now mutated)
          undoStack := pushUndo editor.undoStack current})

def performUndo (editor : Editor) : Option Editor :=
  match editor.workbook with
  | none => none
  | some workbook =>
    if editor.readOnly ∨ editor.isSheetProtected then none
    else
      let result := undo editor.undoStack workbook
      result.2.map (fun next => {editor with workbook := some (recalculateWorkbook env now next),undoStack := result.1})

def performRedo (editor : Editor) : Option Editor :=
  match editor.workbook with
  | none => none
  | some workbook =>
    if editor.readOnly ∨ editor.isSheetProtected then none
    else
      let result := redo editor.undoStack workbook
      result.2.map (fun next => {editor with workbook := some (recalculateWorkbook env now next),undoStack := result.1})

end

section
variable (env : Env)

def commitAll (editor : Editor) (mutations : List Mutation) : Option Editor :=
  mutations.foldlM (commitWorkbookMutation env) editor

def undoAll (editor : Editor) (moments : List Nat) : Editor :=
  moments.foldl (fun editor now => (performUndo env now editor).getD editor) editor

def redoAll (editor : Editor) (moments : List Nat) : Editor :=
  moments.foldl (fun editor now => (performRedo env now editor).getD editor) editor

end

def stage (env : Env) (editor : Editor) (mutations : List Mutation) (i : Nat) : Option SpreadsheetWorkbook :=
  (commitAll env editor (mutations.take i)).bind Editor.workbook

structure Inverts (env : Env) (editor : Editor) (edits : Nat) (stage : Nat → Option SpreadsheetWorkbook) : Prop where
  states : ∀ undos redos : List Nat, undos.length ≤ edits → redos.length ≤ undos.length →
    (redoAll env (undoAll env editor undos) redos).workbook = stage (edits - undos.length + redos.length)
  redone : ∀ undos redos : List Nat, undos.length ≤ edits → redos.length ≤ undos.length → ∀ now later next,
    performUndo env now (redoAll env (undoAll env editor undos) redos) = some next →
      performRedo env later next = some (redoAll env (undoAll env editor undos) redos)
  undone : ∀ undos redos : List Nat, undos.length ≤ edits → redos.length ≤ undos.length → ∀ now later next,
    performRedo env now (redoAll env (undoAll env editor undos) redos) = some next →
      performUndo env later next = some (redoAll env (undoAll env editor undos) redos)

section
variable {env : Env} {now : Nat} {editor next : Editor} {initial current earlier : SpreadsheetWorkbook}
variable {past : List SpreadsheetWorkbook} {mutations : List Mutation} {mutation : Mutation} {moments : List Nat}

def Calculated (env : Env) (workbook : SpreadsheetWorkbook) : Prop := ∀ now, recalculateWorkbook env now workbook = workbook

-- An editor after some edits. The first workbook is on its stack twice.
structure History (env : Env) (editor : Editor) (initial : SpreadsheetWorkbook) (past : List SpreadsheetWorkbook)
    (current : SpreadsheetWorkbook) : Prop where
  workbook : editor.workbook = some current
  stack : editor.undoStack = ⟨initial :: past,[]⟩
  oldest : (past ++ [current]).head? = some initial
  calculated : ∀ workbook ∈ past ++ [current], Calculated env workbook
  writable : past ≠ [] → editor.readOnly = false

section
variable (stable : ∀ now workbook, Calculated env (recalculateWorkbook env now workbook))
include stable

theorem commit_history
    (history : History env editor initial past current) (few : past.length + 1 < maxUndoDepth)
    (committed : commitWorkbookMutation env editor mutation = some next) :
    ∃ edited, History env next initial (past ++ [current]) edited := by
  unfold commitWorkbookMutation at committed
  dsimp only at committed
  split at committed
  · cases committed
  case isFalse allowed =>
    rw [history.workbook] at committed
    simp only [map_eq_some_iff] at committed
    obtain ⟨mutated,-,rfl⟩ := committed
    have writable : editor.readOnly = false := by
      cases readOnly : editor.readOnly with
      | false => rfl
      | true => exact absurd (.inl readOnly) allowed
    refine ⟨recalculateWorkbook env mutation.now mutated,rfl,?_,?_,?_,fun _ => writable⟩
    · have fits : ¬(initial :: past ++ [current]).length > maxUndoDepth := by
        simp only [length_append,length_cons,length_nil]
        omega
      simp only [pushUndo,history.stack,cloneWorkbook]
      rw [if_neg fits]
      rfl
    · rw [head?_append_of_ne_nil _ (by simp)]
      exact history.oldest
    · intro workbook member
      rcases mem_append.mp member with old | new
      · exact history.calculated workbook old
      · rw [mem_singleton] at new
        exact new ▸ stable mutation.now mutated

theorem commitAll_history
    (history : History env editor initial [] initial) (few : mutations.length < maxUndoDepth)
    (committed : commitAll env editor mutations = some next) :
    ∃ past current, past.length = mutations.length ∧ History env next initial past current ∧
      ∀ i ≤ mutations.length, stage env editor mutations i = (past ++ [current])[i]? := by
  induction mutations using List.reverseRecOn generalizing next with
  | nil =>
    have same : editor = next := by simpa [commitAll] using committed
    refine ⟨[],initial,rfl,same ▸ history,fun i none_ => ?_⟩
    obtain rfl : i = 0 := by simpa using none_
    exact history.workbook
  | append_singleton mutations mutation ih =>
    have shorter : mutations.length + 1 < maxUndoDepth := by simpa using few
    have steps := committed
    rw [commitAll,foldlM_append] at committed
    obtain ⟨before,made,last⟩ := bind_eq_some_iff.mp committed
    have last : commitWorkbookMutation env before mutation = some next := by simpa using last
    obtain ⟨past,current,long,history',stages⟩ := ih (by omega) made
    obtain ⟨edited,history''⟩ := commit_history stable history' (by omega) last
    refine ⟨past ++ [current],edited,by simp [long],history'',fun i within => ?_⟩
    rw [length_append] at within
    rcases Nat.lt_or_ge mutations.length i with late | early
    · obtain rfl : i = mutations.length + 1 := by simp at within; omega
      rw [stage,take_of_length_le (by simp),steps]
      simp [history''.workbook,← long]
    · have inner : i < (past ++ [current]).length := by simp; omega
      rw [getElem?_append_left inner,← stages i early,stage,stage,take_append_of_le_length early]

end

theorem undoAll_cons (env : Env) (editor : Editor) (now : Nat) (moments : List Nat) :
    undoAll env editor (now :: moments) = undoAll env ((performUndo env now editor).getD editor) moments := rfl

theorem redoAll_cons (env : Env) (editor : Editor) (now : Nat) (moments : List Nat) :
    redoAll env editor (now :: moments) = redoAll env ((performRedo env now editor).getD editor) moments := rfl

theorem undo_shows (env : Env) (now : Nat) (shown : editor.workbook = some current) (stack : editor.undoStack.past = past ++ [earlier])
    (some_ : past ≠ []) (writable : editor.readOnly = false) (free : editor.isSheetProtected = false) :
    performUndo env now editor = some {editor with
      workbook := some (recalculateWorkbook env now (past.getLast some_))
      undoStack := ⟨past,current :: editor.undoStack.future⟩} := by
  have more : ¬editor.undoStack.past.length ≤ 1 := by
    have := length_pos_iff.mpr some_
    simp [stack]
    omega
  unfold performUndo
  rw [shown]
  dsimp only
  rw [if_neg (by simp [writable,free]),undo,if_neg more]
  simp [stack,getLast?_eq_some_getLast some_,cloneWorkbook]

theorem undo_stops (env : Env) (now : Nat) (stopped : editor.readOnly = true ∨ editor.isSheetProtected = true) :
    performUndo env now editor = none ∧ performRedo env now editor = none := by
  unfold performUndo performRedo
  cases editor.workbook <;> simp [stopped]

theorem stopped_all (stopped : editor.readOnly = true ∨ editor.isSheetProtected = true) (moments : List Nat) :
    undoAll env editor moments = editor ∧ redoAll env editor moments = editor := by
  induction moments with
  | nil => exact ⟨rfl,rfl⟩
  | cons now moments ih =>
    have none_ := undo_stops env now stopped
    rw [undoAll_cons,redoAll_cons,none_.1,none_.2]
    exact ih

theorem undoAll_sheet (moments : List Nat) : (undoAll env editor moments).activeSheetIndex = editor.activeSheetIndex := by
  induction moments generalizing editor with
  | nil => rfl
  | cons now moments ih =>
    rw [undoAll_cons,ih]
    unfold performUndo
    cases editor.workbook with
    | none => rfl
    | some workbook =>
      dsimp only
      split
      · rfl
      · cases (undo editor.undoStack workbook).2 <;> rfl

theorem shown_alike (shown : editor.workbook = some current) (stack : editor.undoStack.past = initial :: past)
    (oldest : (past ++ [current]).head? = some initial) (calculated : ∀ workbook ∈ past ++ [current], Calculated env workbook)
    (writable : editor.readOnly = false)
    (states : ∀ moments : List Nat, moments.length ≤ past.length →
      (undoAll env editor moments).workbook = (past ++ [current])[past.length - moments.length]?) :
    ∀ workbook ∈ past, workbook = initial := by
  induction past using List.reverseRecOn generalizing editor current with
  | nil => simp
  | append_singleton past latest ih =>
    have oldest' : (past ++ [latest]).head? = some initial := by
      rwa [head?_append_of_ne_nil _ (by simp)] at oldest
    cases stopped : editor.isSheetProtected with
    | true =>
      have all : ∀ i ≤ past.length + 1, (past ++ [latest] ++ [current])[i]? = some current := by
        intro i within
        have moments := states (List.replicate (past.length + 1 - i) 0) (by simp)
        rw [(stopped_all (.inr stopped) _).1,shown] at moments
        simpa [Nat.sub_sub_self within] using moments.symm
      have same : current = initial := by
        have head := all 0 (Nat.zero_le _)
        rw [← head?_eq_getElem?,oldest] at head
        exact (Option.some.inj head).symm
      intro workbook member
      obtain ⟨i,inside,rfl⟩ := mem_iff_getElem.mp member
      have at_ := all i (by simp at inside; omega)
      rw [getElem?_append_left inside,getElem?_eq_getElem inside] at at_
      exact (Option.some.inj at_).trans same
    | false =>
      have top := undo_shows env 0 shown (stack.trans (cons_append ..).symm) (cons_ne_nil _ _) writable stopped
      have below : (initial :: past).getLast (cons_ne_nil _ _) ∈ past ++ [latest] := by
        cases past with
        | nil =>
          have same : latest = initial := by simpa using oldest'
          simp [same]
        | cons workbook past => exact mem_append_left _ (getLast_mem (cons_ne_nil workbook past))
      rw [calculated _ (mem_append_left _ below) 0] at top
      have next := states [0] (by simp)
      rw [undoAll_cons,top] at next
      have latest_ : (initial :: past).getLast (cons_ne_nil _ _) = latest := by
        simpa [undoAll] using next
      have rest := @ih ((performUndo env 0 editor).getD editor) latest (by rw [top,latest_]; rfl)
        (by rw [top]; rfl) oldest' (fun workbook member => calculated workbook (mem_append_left _ member))
        (by rw [top]; exact writable) (fun moments within => by
          have later := states (0 :: moments) (by simp; omega)
          rw [undoAll_cons] at later
          rw [later,length_append,length_cons,length_cons,length_nil,Nat.zero_add,Nat.add_sub_add_right,
            getElem?_append_left (by rw [length_append,length_cons,length_nil]; omega)])
      intro workbook member
      rcases mem_append.mp member with old | new
      · exact rest workbook old
      · rw [mem_singleton.mp new,← latest_]
        rcases mem_cons.mp (getLast_mem (cons_ne_nil initial past)) with first_ | later
        · exact first_
        · exact rest _ later

def undone (editor : Editor) (initial current : SpreadsheetWorkbook) (edits : Nat) : Nat → Editor
  | 0 => {editor with workbook := some current,undoStack := ⟨List.replicate (edits + 1) initial,[]⟩}
  | i + 1 => {editor with
      workbook := some initial
      undoStack := ⟨List.replicate (edits - i) initial,List.replicate i initial ++ [current]⟩}

structure Free (env : Env) (editor : Editor) (initial current : SpreadsheetWorkbook) : Prop where
  writable : editor.readOnly = false
  initialOpen : sheetProtected initial editor.activeSheetIndex = false
  currentOpen : sheetProtected current editor.activeSheetIndex = false
  calculatedInitial : Calculated env initial
  calculatedCurrent : Calculated env current

variable {edits i : Nat}

theorem free_undo (free : Free env editor initial current) (now : Nat) (more : i < edits) :
    performUndo env now (undone editor initial current edits i) = some (undone editor initial current edits (i + 1)) := by
  cases i with
  | zero =>
    have stack : (undone editor initial current edits 0).undoStack.past = List.replicate edits initial ++ [initial] :=
      replicate_succ'
    have some_ : List.replicate edits initial ≠ [] := by simp; omega
    have shown : (undone editor initial current edits 0).workbook = some current := rfl
    rw [undo_shows env now shown stack some_ free.writable free.currentOpen,getLast_replicate,
      free.calculatedInitial now]
    rfl
  | succ i =>
    have stack : (undone editor initial current edits (i + 1)).undoStack.past = List.replicate (edits - (i + 1)) initial ++ [initial] := by
      rw [← replicate_succ']
      exact congrArg (List.replicate · initial) (by omega)
    have some_ : List.replicate (edits - (i + 1)) initial ≠ [] := by simp; omega
    have shown : (undone editor initial current edits (i + 1)).workbook = some initial := rfl
    rw [undo_shows env now shown stack some_ free.writable free.initialOpen,getLast_replicate,
      free.calculatedInitial now]
    rfl

theorem free_bottom (now : Nat) : performUndo env now (undone editor initial current edits edits) = none := by
  unfold performUndo
  cases edits with
  | zero => simp [undone,undo]
  | succ i =>
    have one : i + 1 - i = 1 := by omega
    simp [undone,undo,one]

theorem free_redo (free : Free env editor initial current) (now : Nat) (more : i < edits) :
    performRedo env now (undone editor initial current edits (i + 1)) = some (undone editor initial current edits i) := by
  have open_ : ¬((undone editor initial current edits (i + 1)).readOnly = true ∨
      (undone editor initial current edits (i + 1)).isSheetProtected = true) := by
    have writable : (undone editor initial current edits (i + 1)).readOnly = false := free.writable
    have unlocked : (undone editor initial current edits (i + 1)).isSheetProtected = false := free.initialOpen
    simp [writable,unlocked]
  have stack : List.replicate (edits - i) initial ++ [initial] = List.replicate (edits - i + 1) initial :=
    replicate_succ'.symm
  unfold performRedo
  rw [show (undone editor initial current edits (i + 1)).workbook = some initial from rfl]
  dsimp only
  rw [if_neg open_]
  cases i with
  | zero =>
    have current' := free.calculatedCurrent now
    simp only [undone,redo,cloneWorkbook,Nat.sub_zero,replicate_zero,nil_append,map_some]
    rw [current',replicate_succ']
  | succ i =>
    have initial' := free.calculatedInitial now
    have level : edits - (i + 1) + 1 = edits - i := by omega
    simp only [undone,redo,cloneWorkbook,replicate_succ,cons_append,map_some]
    rw [initial',stack,level]

theorem free_top (now : Nat) : performRedo env now (undone editor initial current edits 0) = none := by
  unfold performRedo
  exact ite_self none

section
variable (free : Free env editor initial current)
include free

theorem free_undos (within : i + moments.length ≤ edits) :
    undoAll env (undone editor initial current edits i) moments = undone editor initial current edits (i + moments.length) := by
  induction moments generalizing i with
  | nil => rfl
  | cons now moments ih =>
    rw [length_cons] at within
    rw [undoAll_cons,free_undo free now (by omega),getD_some,ih (by omega),length_cons]
    congr 1
    omega

theorem free_redos (within : i + moments.length ≤ edits) :
    redoAll env (undone editor initial current edits (i + moments.length)) moments = undone editor initial current edits i := by
  induction moments generalizing i with
  | nil => rfl
  | cons now moments ih =>
    rw [length_cons] at within
    rw [length_cons,redoAll_cons,← Nat.add_assoc,free_redo free now (by omega),getD_some]
    exact ih (by omega)

theorem free_inverts {stage : Nat → Option SpreadsheetWorkbook}
    (same : editor = undone editor initial current edits 0) (initials : ∀ i < edits, stage i = some initial)
    (last : stage edits = some current) : Inverts env editor edits stage := by
  have reached : ∀ undos redos : List Nat, undos.length ≤ edits → redos.length ≤ undos.length →
      redoAll env (undoAll env editor undos) redos = undone editor initial current edits (undos.length - redos.length) := by
    intro undos redos within fewer
    have split : undos.length = undos.length - redos.length + redos.length := by omega
    conv => lhs; rw [same]
    rw [free_undos free (by omega),Nat.zero_add,split,free_redos free (by omega)]
    congr 1
    omega
  refine ⟨fun undos redos within fewer => ?_,fun undos redos within fewer now later next done => ?_,
    fun undos redos within fewer now later next done => ?_⟩
  · rw [reached undos redos within fewer]
    cases level : undos.length - redos.length with
    | zero => rw [show edits - undos.length + redos.length = edits by omega,last]; rfl
    | succ i => rw [initials _ (by omega)]; rfl
  · rw [reached undos redos within fewer] at done ⊢
    rcases Nat.lt_or_ge (undos.length - redos.length) edits with more | end_
    · rw [free_undo free now more] at done
      rw [← Option.some.inj done,free_redo free later more]
    · rw [show undos.length - redos.length = edits by omega,free_bottom] at done
      cases done
  · rw [reached undos redos within fewer] at done ⊢
    cases level : undos.length - redos.length with
    | zero => rw [level,free_top] at done; cases done
    | succ i =>
      rw [level,free_redo free now (by omega)] at done
      rw [← Option.some.inj done,free_undo free later (by omega)]

end

theorem stopped_inverts (stopped : editor.readOnly = true ∨ editor.isSheetProtected = true)
    {stage : Nat → Option SpreadsheetWorkbook} (same : ∀ i ≤ edits, stage i = editor.workbook) :
    Inverts env editor edits stage := by
  have stays : ∀ undos redos : List Nat, redoAll env (undoAll env editor undos) redos = editor := by
    intro undos redos
    rw [(stopped_all stopped undos).1,(stopped_all stopped redos).2]
  refine ⟨fun undos redos within fewer => ?_,fun undos redos _ _ now later next done => ?_,
    fun undos redos _ _ now later next done => ?_⟩
  · rw [stays,same _ (by omega)]
  · rw [stays,(undo_stops env _ stopped).1] at done
    cases done
  · rw [stays,(undo_stops env _ stopped).2] at done
    cases done

-- After edits no two of which are different before the last one, and only then, undo and
-- redo invert them.
theorem undo_inverts (env : Env) (now : Nat) (start editor : Editor) (parsed : SpreadsheetWorkbook) (mutations : List Mutation)
    (stable : ∀ now workbook, Calculated env (recalculateWorkbook env now workbook)) (few : mutations.length < maxUndoDepth)
    (committed : commitAll env (loadWorkbook env now start parsed) mutations = some editor) :
    Inverts env editor mutations.length (stage env (loadWorkbook env now start parsed) mutations) ↔
      (∀ i < mutations.length, stage env (loadWorkbook env now start parsed) mutations i = (loadWorkbook env now start parsed).workbook) ∧
      (editor.workbook = (loadWorkbook env now start parsed).workbook ∨
        ∀ workbook, some workbook = editor.workbook ∨ some workbook = (loadWorkbook env now start parsed).workbook →
          sheetProtected workbook editor.activeSheetIndex = false) := by
  let initial := recalculateWorkbook env now parsed
  have loaded : (loadWorkbook env now start parsed).workbook = some initial := rfl
  have begun : History env (loadWorkbook env now start parsed) initial [] initial :=
    ⟨rfl,rfl,rfl,by simpa using stable now parsed,fun some_ => absurd rfl some_⟩
  obtain ⟨past,current,long,history,stages⟩ := commitAll_history stable begun few committed
  have last : stage env (loadWorkbook env now start parsed) mutations mutations.length = some current := by
    rw [stages _ (Nat.le_refl _),← long]
    simp
  have calculatedInitial : Calculated env initial := history.calculated _ (mem_of_mem_head? history.oldest)
  have calculatedCurrent : Calculated env current := history.calculated _ (by simp)
  rw [loaded,history.workbook]
  constructor
  · intro inverts
    have states : ∀ moments : List Nat, moments.length ≤ past.length →
        (undoAll env editor moments).workbook = (past ++ [current])[past.length - moments.length]? := by
      intro moments within
      rw [← stages _ (by omega),long]
      simpa [redoAll] using inverts.states moments [] (by omega) (Nat.zero_le _)
    have alike : ∀ workbook ∈ past, workbook = initial := by
      cases past with
      | nil => simp
      | cons workbook past =>
        exact shown_alike history.workbook (by rw [history.stack]) history.oldest history.calculated
          (history.writable (cons_ne_nil _ _)) states
    refine ⟨fun i early => ?_,?_⟩
    · have inside : i < past.length := by omega
      rw [stages i (by omega),getElem?_append_left inside,getElem?_eq_getElem inside,alike _ (getElem_mem inside)]
    · by_cases same : current = initial
      · exact .inl (congrArg some same)
      · refine .inr (fun workbook which => ?_)
        have some_ : past ≠ [] := fun none_ => same (by simpa [none_] using history.oldest)
        have one : 1 ≤ mutations.length := by
          have := length_pos_iff.mpr some_
          omega
        have before : (undoAll env editor [0]).workbook = some initial := by
          have inside : past.length - 1 < past.length := by omega
          have shown := states [0] (by simp; omega)
          rw [length_singleton,getElem?_append_left inside,getElem?_eq_getElem inside,alike _ (getElem_mem inside)] at shown
          exact shown
        by_contra locked
        rw [Bool.not_eq_false] at locked
        rcases which with now_ | loaded_
        · obtain rfl := Option.some.inj now_
          have stopped : editor.isSheetProtected = true := by rw [Editor.isSheetProtected,history.workbook]; exact locked
          rw [(stopped_all (.inr stopped) [0]).1,history.workbook] at before
          exact same (Option.some.inj before)
        · obtain rfl := Option.some.inj loaded_
          have stopped : (undoAll env editor [0]).isSheetProtected = true := by
            rw [Editor.isSheetProtected,before]
            dsimp only
            rw [undoAll_sheet]
            exact locked
          have after := inverts.states [0] [0] one (Nat.le_refl _)
          rw [(stopped_all (.inr stopped) [0]).2,before,length_singleton,Nat.sub_add_cancel one,last] at after
          exact same (Option.some.inj after).symm
  · rintro ⟨initials,ends⟩
    by_cases stopped : editor.readOnly = true ∨ editor.isSheetProtected = true
    · have same : current = initial := by
        by_contra differ
        have some_ : past ≠ [] := fun none_ => differ (by simpa [none_] using history.oldest)
        rcases stopped with readOnly | locked
        · rw [history.writable some_] at readOnly
          cases readOnly
        · rcases ends with equal | unlocked
          · exact differ (Option.some.inj equal)
          · rw [Editor.isSheetProtected,history.workbook] at locked
            have open_ := unlocked current (.inl rfl)
            exact absurd locked (by simp [open_])
      refine stopped_inverts stopped (fun i within => ?_)
      rcases Nat.lt_or_eq_of_le within with early | rfl
      · rw [initials i early,history.workbook,same]
      · rw [last,history.workbook]
    · have alike : past = List.replicate mutations.length initial := by
        refine eq_replicate_iff.mpr ⟨long,fun workbook member => ?_⟩
        obtain ⟨i,inside,rfl⟩ := mem_iff_getElem.mp member
        have shown := initials i (by omega)
        rw [stages i (by omega),getElem?_append_left inside,getElem?_eq_getElem inside] at shown
        exact Option.some.inj shown
      have unlocked : sheetProtected current editor.activeSheetIndex = false := by
        have := (not_or.mp stopped).2
        rw [Editor.isSheetProtected,history.workbook] at this
        simpa using this
      have free : Free env editor initial current := by
        refine ⟨by simpa using (not_or.mp stopped).1,?_,unlocked,calculatedInitial,calculatedCurrent⟩
        rcases ends with equal | both
        · exact Option.some.inj equal ▸ unlocked
        · exact both initial (.inr rfl)
      refine free_inverts free ?_ initials last
      have stack : editor.undoStack = ⟨List.replicate (mutations.length + 1) initial,[]⟩ := by
        rw [history.stack,alike]
        rfl
      rw [undone,← history.workbook,← stack]

end

theorem plain_calculated (workbook : SpreadsheetWorkbook) : Calculated plainEnv workbook := by
  intro now
  have all : ∀ sheets : List SheetData, ∀ n, (sheets.zipIdx n).mapM (fun entry =>
      plainEnv.recalculateSheet now entry.1 entry.2 workbook.sheets workbook.namedRanges) = some sheets := by
    intro sheets
    induction sheets with
    | nil => exact fun n => rfl
    | cons sheet sheets ih =>
      intro n
      rw [zipIdx_cons,mapM_cons,ih]
      rfl
  rw [recalculateWorkbook,all]
  rfl

def unopened : Editor := ⟨none,⟨[],[]⟩,0,false⟩

def setTracking (enabled : Bool) : Mutation := ⟨0,0,false,fun workbook => some {workbook with trackChangesEnabled := some enabled}⟩

def tracked (edits : List Bool) : Editor := edits.foldl (fun editor enabled =>
  (commitWorkbookMutation plainEnv editor (setTracking enabled)).getD editor) (loadWorkbook plainEnv 0 unopened (ofSheets []))

theorem undo_inverts_one : Inverts plainEnv (tracked [true]) 1 (stage plainEnv (loadWorkbook plainEnv 0 unopened (ofSheets [])) [setTracking true]) := by
  refine (undo_inverts plainEnv 0 unopened (tracked [true]) (ofSheets []) [setTracking true] (fun _ _ => plain_calculated _) (by decide) rfl).mpr
    ⟨fun i early => ?_,.inr (fun workbook which => ?_)⟩
  · obtain rfl : i = 0 := by simpa using early
    rfl
  · rcases which with same | same <;> obtain rfl := Option.some.inj same <;> rfl

theorem undo_skips : (∀ now workbook, Calculated plainEnv (recalculateWorkbook plainEnv now workbook)) ∧
    commitAll plainEnv (loadWorkbook plainEnv 0 unopened (ofSheets [])) [setTracking true,setTracking false] = some (tracked [true,false]) ∧
    ¬Inverts plainEnv (tracked [true,false]) 2
      (stage plainEnv (loadWorkbook plainEnv 0 unopened (ofSheets [])) [setTracking true,setTracking false]) := by
  refine ⟨fun _ _ => plain_calculated _,rfl,fun inverts => ?_⟩
  have shown := inverts.states [0] [] (by decide) (by decide)
  have tracking := congrArg (fun shown => shown.map SpreadsheetWorkbook.trackChangesEnabled) shown
  exact absurd tracking (by decide)

end Ownly.Sheets
