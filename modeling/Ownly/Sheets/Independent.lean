import Ownly.Sheets.Peers

-- Edits that may be taken in either order, whatever the workbook.
namespace Ownly.Sheets
open Collab (Text OpType)
open List

def rebuilt (keeps : Bool) (workbook : SpreadsheetWorkbook) (sheets : List SheetData) : SpreadsheetWorkbook :=
  if keeps then withSheets workbook sheets else ofSheets sheets

@[simp] theorem rebuilt_sheets (keeps : Bool) (workbook : SpreadsheetWorkbook) (sheets : List SheetData) :
    (rebuilt keeps workbook sheets).sheets = sheets := by
  cases keeps <;> rfl

theorem rebuilt_rebuilt (keeps keeps' : Bool) (workbook : SpreadsheetWorkbook) (sheets sheets' : List SheetData) :
    rebuilt keeps' (rebuilt keeps workbook sheets) sheets' = rebuilt (keeps && keeps') workbook sheets' := by
  cases keeps <;> cases keeps' <;> rfl

theorem mapSheet_rebuilt (keeps : Bool) (workbook : SpreadsheetWorkbook) (sheets : List SheetData) (index : Rat)
    (change : SheetData → SheetData) :
    mapSheet (rebuilt keeps workbook sheets) index change = mapSheet (ofSheets sheets) index change := by
  rw [mapSheet,rebuilt_sheets]
  rfl

theorem mapSheet_apart (ne : i ≠ j) (workbook : SpreadsheetWorkbook) (f g : SheetData → SheetData) :
    mapSheet (ofSheets (mapSheet workbook i f)) j g = mapSheet (ofSheets (mapSheet workbook j g)) i f := by
  simp only [mapSheet,ofSheets,mapIdx_mapIdx]
  congr 1
  funext index sheet
  by_cases first : (index : Rat) = i
  · simp [first,ne]
  · by_cases second : (index : Rat) = j <;> simp [first,second,ne.symm]

theorem rebuilt_apart (ne : i ≠ j) (keeps keeps' : Bool) (workbook : SpreadsheetWorkbook) (f g : SheetData → SheetData) :
    rebuilt keeps' (rebuilt keeps workbook (mapSheet workbook i f))
        (mapSheet (rebuilt keeps workbook (mapSheet workbook i f)) j g) =
      rebuilt keeps (rebuilt keeps' workbook (mapSheet workbook j g))
        (mapSheet (rebuilt keeps' workbook (mapSheet workbook j g)) i f) := by
  rw [rebuilt_rebuilt,rebuilt_rebuilt,mapSheet_rebuilt,mapSheet_rebuilt,mapSheet_apart ne,Bool.and_comm]

structure Addresses (env : Env) (edit : Edit) (name : Text) (keeps : Bool) (change : SheetData → SheetData) : Prop where
  named : ∀ sheet, (change sheet).name = sheet.name
  effect : ∀ now workbook, applyOp env now workbook edit =
    match sheetIndexByName env workbook name with
    | some index => rebuilt keeps workbook (mapSheet workbook index change)
    | none => workbook

theorem sheetIndexByName_names (env : Env) (name : Text)
    (names : workbook'.sheets.map SheetData.name = workbook.sheets.map SheetData.name) :
    sheetIndexByName env workbook' name = sheetIndexByName env workbook name := by
  have byNames : ∀ w : SpreadsheetWorkbook, sheetIndexByName env w name =
      (w.sheets.map SheetData.name).findIdx? (fun other => decide (env.toLowerCase other = env.toLowerCase name)) := by
    intro w
    rw [findIdx?_map]
    rfl
  rw [byNames,byNames,names]

theorem mapSheet_names (named : ∀ sheet, (change sheet).name = sheet.name) (workbook : SpreadsheetWorkbook) (index : Rat) :
    (mapSheet workbook index change).map SheetData.name = workbook.sheets.map SheetData.name := by
  refine ext_getElem? (fun position => ?_)
  rw [mapSheet,getElem?_map,getElem?_mapIdx,getElem?_map]
  cases workbook.sheets[position]? with
  | none => rfl
  | some sheet =>
    refine congrArg some ?_
    by_cases here : (position : Rat) = index
    · simp [here,named]
    · simp [here]

theorem sheetIndexByName_ne (others : env.toLowerCase name ≠ env.toLowerCase name')
    (found : sheetIndexByName env workbook name = some i) (found' : sheetIndexByName env workbook name' = some j) :
    (i : Rat) ≠ (j : Rat) := by
  intro same
  obtain ⟨_,first,_⟩ := findIdx?_eq_some_iff_getElem.mp found
  obtain ⟨_,second,_⟩ := findIdx?_eq_some_iff_getElem.mp found'
  have index : i = j := Rat.natCast_inj.mp same
  subst index
  exact others ((of_decide_eq_true first).symm.trans (of_decide_eq_true second))

theorem Addresses.swaps (first : Addresses env a name keeps f) (second : Addresses env b name' keeps' g)
    (others : env.toLowerCase name ≠ env.toLowerCase name') (now : Nat) : Reorder.Swaps (applyOp env now) a b := by
  intro workbook
  have still : ∀ (edit : Edit) (target : Text) (keeps : Bool) (change : SheetData → SheetData),
      Addresses env edit target keeps change → ∀ name, sheetIndexByName env (applyOp env now workbook edit) name =
        sheetIndexByName env workbook name := by
    intro edit target keeps change addresses name
    refine sheetIndexByName_names env name ?_
    rw [addresses.effect]
    split
    · rw [rebuilt_sheets]
      exact mapSheet_names addresses.named workbook _
    · rfl
  rw [second.effect now (applyOp env now workbook a),first.effect now (applyOp env now workbook b),
    still a name keeps f first,still b name' keeps' g second,first.effect,second.effect]
  cases found : sheetIndexByName env workbook name with
  | none => rfl
  | some i =>
    cases found' : sheetIndexByName env workbook name' with
    | none => rfl
    | some j => exact rebuilt_apart (sheetIndexByName_ne others found found') keeps keeps' workbook f g

-- The ops that change rows, columns or cells of one sheet; a cell edit is none of them,
-- since all formulas are calculated after it.
def changesOneSheet : OpType → Bool
  | .stylePatch | .clearContents | .comment | .hyperlink | .merge | .unmerge
  | .insertRow | .deleteRow | .insertColumn | .deleteColumn => true
  | _ => false

theorem mapSheet_same (workbook : SpreadsheetWorkbook) (index : Rat) :
    mapSheet workbook index (fun sheet => sheet) = workbook.sheets := by
  refine ext_getElem? (fun position => ?_)
  rw [mapSheet,getElem?_mapIdx]
  cases workbook.sheets[position]? <;> simp

-- The shape all these ops have: they do nothing until the sheet is found and what else
-- they need of the payload is there.
theorem addresses_of {α : Type} {name : Text} (parsed : Option α) (change : α → SheetData → SheetData) (keeps : Bool)
    (sheet : nonEmpty (asString (edit.payload.get "sheet")) = some name) (kind : edit.opType ≠ .stateCommit)
    (named : ∀ x sheet, (change x sheet).name = sheet.name)
    (effect : ∀ now workbook, applyCollabOpToWorkbook env now workbook edit = onSheet env workbook edit.payload parsed
      (fun index x => rebuilt keeps workbook (mapSheet workbook index (change x)))) :
    ∃ keeps change, Addresses env edit name keeps change := by
  have target : ∀ workbook, sheetOf env workbook edit.payload = sheetIndexByName env workbook name := by
    intro workbook
    unfold sheetOf
    rw [sheet,Option.bind_some]
  cases parsed with
  | some x =>
    refine ⟨keeps,change x,named x,?_⟩
    intro now workbook
    rw [applyOp,if_neg kind,effect]
    unfold onSheet
    rw [target]
    cases sheetIndexByName env workbook name <;> rfl
  | none =>
    refine ⟨true,fun sheet => sheet,fun _ => rfl,?_⟩
    intro now workbook
    rw [applyOp,if_neg kind,effect]
    unfold onSheet
    rw [target]
    cases sheetIndexByName env workbook name with
    | none => rfl
    | some index =>
      dsimp only
      rw [mapSheet_same]
      rfl

theorem changesOneSheet_addresses (kind : changesOneSheet edit.opType = true)
    (sheet : nonEmpty (asString (edit.payload.get "sheet")) = some name) :
    ∃ keeps change, Addresses env edit name keeps change := by
  obtain ⟨opType,payload⟩ := edit
  have commit : ∀ {opType : OpType}, changesOneSheet opType = true → opType ≠ .stateCommit := by
    intro opType changes same
    rw [same] at changes
    cases changes
  cases opType with
  | insertRow =>
    exact addresses_of (asNumber (payload.get "at")) insertRowInSheet false sheet (commit kind) (fun _ _ => rfl)
      (fun _ _ => rfl)
  | deleteRow =>
    refine addresses_of (asNumber (payload.get "at")) deleteRowInSheet false sheet (commit kind) ?_ (fun _ _ => rfl)
    intro position sheet
    unfold deleteRowInSheet
    split <;> rfl
  | insertColumn =>
    exact addresses_of (asNumber (payload.get "at")) insertColumnInSheet false sheet (commit kind) (fun _ _ => rfl)
      (fun _ _ => rfl)
  | deleteColumn =>
    exact addresses_of (asNumber (payload.get "at")) deleteColumnInSheet false sheet (commit kind) (fun _ _ => rfl)
      (fun _ _ => rfl)
  | merge =>
    exact addresses_of (asRange payload) (fun range => mergeInSheet (normalizeRange range)) false sheet (commit kind)
      (fun _ _ => rfl) (fun _ _ => rfl)
  | unmerge =>
    exact addresses_of (asRange payload) (fun range => unmergeInSheet (normalizeRange range)) false sheet (commit kind)
      (fun _ _ => rfl) (fun _ _ => rfl)
  | clearContents =>
    exact addresses_of (asRange payload) (fun range => clearInSheet (normalizeRange range)) true sheet (commit kind)
      (fun _ _ => rfl) (fun _ _ => rfl)
  | comment =>
    refine addresses_of (cellOf payload) (fun cell => commentInSheet cell.1 cell.2 (asString (payload.get "comment"))) false
      sheet (commit kind) ?_ (fun _ workbook => ?_)
    · intro cell sheet
      unfold commentInSheet
      rfl
    · exact congrArg (onSheet env workbook payload (cellOf payload)) (funext fun _ => funext fun (_,_) => rfl)
  | hyperlink =>
    refine addresses_of (cellOf payload) (fun cell => hyperlinkInSheet cell.1 cell.2 (asString (payload.get "url"))) true
      sheet (commit kind) ?_ (fun _ workbook => ?_)
    · intro cell sheet
      unfold hyperlinkInSheet
      rfl
    · exact congrArg (onSheet env workbook payload (cellOf payload)) (funext fun _ => funext fun (_,_) => rfl)
  | stylePatch =>
    refine addresses_of (asPatch payload) (fun patch => stylePatchInSheet env patch.1 patch.2) true sheet (commit kind)
      (fun _ _ => rfl) (fun _ workbook => ?_)
    exact congrArg (onSheet env workbook payload (asPatch payload)) (funext fun _ => funext fun (_,_) => rfl)
  | _ => cases kind

theorem sheets_swap (kind : changesOneSheet a.opType = true) (kind' : changesOneSheet b.opType = true)
    (sheet : nonEmpty (asString (a.payload.get "sheet")) = some name)
    (sheet' : nonEmpty (asString (b.payload.get "sheet")) = some name')
    (others : env.toLowerCase name ≠ env.toLowerCase name') (now : Nat) : Reorder.Swaps (applyOp env now) a b := by
  obtain ⟨keeps,change,first⟩ := changesOneSheet_addresses kind sheet
  obtain ⟨keeps',change',second⟩ := changesOneSheet_addresses kind' sheet'
  exact first.swaps second others now

theorem renameSheet_apart (ne : i ≠ j) (workbook : SpreadsheetWorkbook) (name name' : Text) :
    renameSheet (renameSheet workbook i name) j name' = renameSheet (renameSheet workbook j name') i name := by
  unfold renameSheet
  by_cases empty : trim name = []
  · simp [empty]
  · by_cases empty' : trim name' = []
    · simp [empty']
    · simp only [empty,empty',if_false]
      rw [mapSheet_apart ne]

theorem renames_swap (kind : a.opType = .sheetRename) (kind' : b.opType = .sheetRename)
    (others : asNumber (a.payload.get "index") ≠ asNumber (b.payload.get "index")) (now : Nat) :
    Reorder.Swaps (applyOp env now) a b := by
  intro workbook
  rw [applyOp_rename env now kind,applyOp_rename env now kind',applyOp_rename env now kind,applyOp_rename env now kind']
  cases index : asNumber (a.payload.get "index") with
  | none => rfl
  | some i =>
    cases index' : asNumber (b.payload.get "index") with
    | none => rfl
    | some j =>
      have ne : i ≠ j := fun same => others (by rw [index,index',same])
      cases nonEmpty (asString (a.payload.get "name")) with
      | none => rfl
      | some name =>
        cases nonEmpty (asString (b.payload.get "name")) with
        | none => rfl
        | some name' => exact renameSheet_apart ne workbook name name'

def unrelated (env : Env) (a b : Edit) : Bool :=
  if a.opType = .sheetRename ∧ b.opType = .sheetRename then
    decide (asNumber (a.payload.get "index") ≠ asNumber (b.payload.get "index"))
  else changesOneSheet a.opType && changesOneSheet b.opType &&
    match nonEmpty (asString (a.payload.get "sheet")),nonEmpty (asString (b.payload.get "sheet")) with
    | some name,some name' => decide (env.toLowerCase name ≠ env.toLowerCase name')
    | _,_ => false

theorem unrelated_swap (apart : unrelated env a b = true) (now : Nat) : Reorder.Swaps (applyOp env now) a b := by
  unfold unrelated at apart
  split at apart
  · rename_i renames
    exact renames_swap renames.1 renames.2 (of_decide_eq_true apart) now
  · rw [Bool.and_eq_true,Bool.and_eq_true] at apart
    obtain ⟨⟨kind,kind'⟩,others⟩ := apart
    split at others
    · rename_i name name' sheet sheet'
      exact sheets_swap kind kind' sheet sheet' (of_decide_eq_true others) now
    · cases others

namespace Peers
open Collab (OpEnvelope)
open Collab.Client (CollabClient isLocal)

theorem steady_of (kind : edit.opType ≠ .cellEdit) (env : Env) (moment now : Nat) (workbook : SpreadsheetWorkbook) :
    Steady env moment now workbook edit := by
  obtain ⟨opType,payload⟩ := edit
  unfold Steady applyOp applyCollabOpToWorkbook
  cases opType <;> first | rfl | exact absurd rfl kind

-- The next op that may arrive, as far as a client can tell it from its own pending ones.
structure Arrives (env : Env) (client : CollabClient) (op : OpEnvelope) : Prop where
  next : op.seq = client.latestSeq + 1
  apart : ∀ edit ∈ overtaken client op, unrelated env edit (editOf op) = true
  told : isLocal client op = true → ∃ p ∈ client.pendingOps, op.clientOpId = some p.clientOpId
  kind : op.opType ≠ .cellEdit

instance (env : Env) (client : CollabClient) (op : OpEnvelope) : Decidable (Arrives env client op) :=
  decidable_of_iff (op.seq = client.latestSeq + 1 ∧ (∀ edit ∈ overtaken client op, unrelated env edit (editOf op) = true) ∧
      (isLocal client op = true → ∃ p ∈ client.pendingOps, op.clientOpId = some p.clientOpId) ∧ op.opType ≠ .cellEdit)
    ⟨fun ⟨next,apart,told,kind⟩ => ⟨next,apart,told,kind⟩,fun ⟨next,apart,told,kind⟩ => ⟨next,apart,told,kind⟩⟩

-- A run without cell edits, in which what comes late has nothing to do with what is
-- pending.
def Tidy (env : Env) (room : Room) : Event → Prop
  | .edit _ _ edit _ => edit.opType ≠ .cellEdit
  | .refuse _ _ => False
  | .commit _ _ _ _ _ _ | .visit _ => True
  | .broadcast side position _ => ∀ op ∈ room.server.log[position]?,
      let client := (room.peer side).screen.client
      op.seq ≤ client.latestSeq ∨ Arrives env client op
  | .answer side position _ _ => ∀ op ∈ room.server.log[position]?,
      let client := (room.peer side).screen.client
      op.seq ≤ client.latestSeq ∨ Arrives env client op ∧ isLocal client op = true

instance (env : Env) (room : Room) : (event : Event) → Decidable (Tidy env room event)
  | .edit _ _ edit _ => inferInstanceAs (Decidable (edit.opType ≠ .cellEdit))
  | .refuse _ _ => .isFalse False.elim
  | .commit _ _ _ _ _ _ => .isTrue trivial
  | .visit _ => .isTrue trivial
  | .broadcast side position _ => inferInstanceAs (Decidable (∀ op ∈ room.server.log[position]?,
      op.seq ≤ (room.peer side).screen.client.latestSeq ∨ Arrives env (room.peer side).screen.client op))
  | .answer side position _ _ => inferInstanceAs (Decidable (∀ op ∈ room.server.log[position]?,
      op.seq ≤ (room.peer side).screen.client.latestSeq ∨
        Arrives env (room.peer side).screen.client op ∧ isLocal (room.peer side).screen.client op = true))

theorem Arrives.inTurn (arrives : Arrives env client op) (moment base : Nat) (initial : SpreadsheetWorkbook)
    (log : List OpEnvelope) : InTurn env moment base initial log client op :=
  ⟨arrives.next,Reorder.Slides.of_swaps (fun edit member => unrelated_swap (arrives.apart edit member) moment) _⟩

theorem Tidy.orderly (tidy : Tidy env room event) (moment base : Nat) (initial : SpreadsheetWorkbook) :
    Orderly env moment base initial room event := by
  cases event with
  | edit side now edit clientOpId => exact steady_of tidy env moment now _
  | refuse side clientOpId => exact tidy
  | commit side clientOpId prunedAt now opId savedAt => trivial
  | visit c => trivial
  | broadcast side position now =>
    intro op found
    rcases tidy op found with old | arrives
    · exact .inl old
    · refine .inr ⟨arrives.inTurn moment base initial _,arrives.told,?_⟩
      intro _
      have kind : (editOf op).opType ≠ .cellEdit := arrives.kind
      exact steady_of kind env moment now _
  | answer side position now transport =>
    intro op found
    rcases tidy op found with old | ⟨arrives,mine⟩
    · exact .inl old
    · exact .inr ⟨arrives.inTurn moment base initial _,arrives.told mine⟩

end Peers

end Ownly.Sheets
