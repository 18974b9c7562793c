import Ownly.Collab.OtText

namespace Ownly.Collab.Document

def emptySnapshot : DomainSnapshot := ⟨0,[("text",.string []),("html",.string [])]⟩

def seedSnapshot (seed : Option Value) : DomainSnapshot :=
  match seed with
  | none => emptySnapshot
  | some seed =>
    let data := emptySnapshot.data
    let data := match (seed.get "text").bind Value.asStr with
      | some text => data.set "text" (.string text)
      | none => data
    let data := match (seed.get "html").bind Value.asStr with
      | some html => data.set "html" (.string html)
      | none => data
    {emptySnapshot with data := data}

def textOf (snapshot : DomainSnapshot) : Text := ((snapshot.data.get "text").bind Value.asStr).getD []

def parseReplace (payload : Value) : Except CollabError TextReplace :=
  match (payload.get "index").bind Value.asU64 with
  | none => .error (.invalidOp "replace.index required")
  | some index =>
    let delete := ((payload.get "delete").bind Value.asU64).getD 0
    let insert := ((payload.get "insert").bind Value.asStr).getD []
    if delete = 0 ∧ insert = [] then .error (.invalidOp "replace is a no-op")
    else .ok ⟨index,delete,insert⟩

def replaceFromOp (op : OpEnvelope) : Option TextReplace :=
  if op.opType ≠ .replace then none
  else match parseReplace op.payload with
    | .ok replace => some replace
    | .error _ => none

-- The two lock fields, when both are present as unsigned numbers.
def lockOf (presence : Fields) : Option (UInt64 × UInt64) :=
  match (presence.get "lock_start").bind Value.asU64,(presence.get "lock_end").bind Value.asU64 with
  | some ls,some le => some (ls,le)
  | _,_ => none

def rangeBlockedByOthers (participants : Participants) (actor : String) (start stop : UInt32) : Bool :=
  if stop ≤ start then false
  else participants.any (fun id p =>
    if id = actor then false
    else match lockOf p.presence with
      | none => false
      | some (ls,le) => if le ≤ ls then false else decide (start.toUInt64 < le ∧ ls < stop.toUInt64))

def clampReplace (text : Text) (replace : TextReplace) : TextReplace :=
  let len := UInt64.ofNat text.length
  let index := if len < replace.index then len else replace.index
  let delete := if len < index + replace.delete then len - index else replace.delete
  ⟨index,delete,replace.insert⟩

-- What is probed against foreign locks: a pure insert probes one position.
def probeEnd (replace : TextReplace) : UInt32 :=
  if 0 < replace.delete then (replace.index + replace.delete).toUInt32
  else if replace.index.toUInt32 = 4294967295 then 4294967295
  else replace.index.toUInt32 + 1

def replacePayload (replace : TextReplace) : Value :=
  .object [("index",.ofU64 replace.index),("delete",.ofU64 replace.delete),("insert",.string replace.insert)]

def validateAndTransform (snapshot : DomainSnapshot) (intervening : List OpEnvelope) (op : OpEnvelope)
    (actor : String) (participants : Participants) : Except CollabError OpEnvelope :=
  match op.opType with
  | .replace =>
    match parseReplace op.payload with
    | .error e => .error e
    | .ok submitted =>
      let prior := intervening.filterMap replaceFromOp
      let replace := clampReplace (textOf snapshot) (transformReplaceThrough submitted prior)
      if rangeBlockedByOthers participants actor replace.index.toUInt32 (probeEnd replace) then .error .locked
      else .ok {op with payload := replacePayload replace}
  | .formatCommit =>
    match (op.payload.get "html").bind Value.asStr,(op.payload.get "text").bind Value.asStr with
    | none,_ => .error (.invalidOp "format_commit.html required")
    | some _,none => .error (.invalidOp "format_commit.text required")
    | some html,some text =>
      if text ≠ textOf snapshot then .error .textMismatch
      -- Any foreign lock blocks a full-document format.
      else if participants.any (fun id p =>
        if id = actor then false
        else match lockOf p.presence with
          | some (a,b) => decide (a < b)
          | none => false) then .error .locked
      else .ok {op with payload := .object [("html",.string html),("text",.string text)]}
  | .lock =>
    match (op.payload.get "start").bind Value.asU64,(op.payload.get "end").bind Value.asU64 with
    | none,_ => .error (.invalidOp "lock.start required")
    | some _,none => .error (.invalidOp "lock.end required")
    | some start,some stop =>
      if stop.toUInt32 ≤ start.toUInt32 then .error (.invalidOp "lock range must be non-empty")
      else if rangeBlockedByOthers participants actor start.toUInt32 stop.toUInt32 then .error .locked
      else .ok op
  | .unlock => .ok op
  | other => .error (.invalidOp ("unknown document op_type: " ++ other.asStr))

def withText (snapshot : DomainSnapshot) (text : Text) : DomainSnapshot :=
  {snapshot with data := snapshot.data.set "text" (.string text)}

def apply (snapshot : DomainSnapshot) (op : OpEnvelope) : Except CollabError DomainSnapshot :=
  match op.opType with
  | .replace =>
    match parseReplace op.payload with
    | .error e => .error e
    | .ok replace => .ok (withText snapshot (applyReplace (textOf snapshot) replace))
  | .formatCommit =>
    let html := ((op.payload.get "html").bind Value.asStr).getD []
    let text := ((op.payload.get "text").bind Value.asStr).getD []
    .ok {snapshot with data := (snapshot.data.set "html" (.string html)).set "text" (.string text)}
  | .lock => .ok snapshot
  | .unlock => .ok snapshot
  | other => .error (.invalidOp ("unknown document op_type: " ++ other.asStr))

def shiftField (replace : TextReplace) (presence : Fields) (key : String) : Fields :=
  match (presence.get key).bind Value.asU64 with
  | some v => presence.set key (.ofU64 (transformOffset v replace))
  | none => presence

def transformPresence (presence : Fields) (op : OpEnvelope) : Fields :=
  match replaceFromOp op with
  | none => presence
  | some replace =>
    let presence := shiftField replace presence "selection_start"
    let presence := shiftField replace presence "selection_end"
    match lockOf presence with
    | none => presence
    | some (s,e) =>
      match transformRange s e replace with
      | some (ns,ne) => (presence.set "lock_start" (.ofU64 ns)).set "lock_end" (.ofU64 ne)
      | none => (presence.remove "lock_start").remove "lock_end"

def presenceDefaults : Fields :=
  [("selection_start",.null),("selection_end",.null),("lock_start",.null),("lock_end",.null)]

-- Lock and unlock side-effects onto the actor's presence. The numbers are stored
-- as they were sent, not as the truncated ones the lock was checked with.
def applyLockPresence (presence : Fields) (op : OpEnvelope) : Fields :=
  match op.opType with
  | .lock =>
    match (op.payload.get "start").bind Value.asU64,(op.payload.get "end").bind Value.asU64 with
    | some s,some e => (presence.set "lock_start" (.ofU64 s)).set "lock_end" (.ofU64 e)
    | _,_ => presence
  | .unlock => (presence.set "lock_start" .null).set "lock_end" .null
  | _ => presence

@[simp] theorem textOf_emptySnapshot : textOf emptySnapshot = [] := rfl

theorem parseReplace_replacePayload (replace : TextReplace) (real : ¬(replace.delete = 0 ∧ replace.insert = [])) :
    parseReplace (replacePayload replace) = .ok replace := by
  simp only [parseReplace,replacePayload,Value.get_object,Fields.get,List.find?,Option.map,Option.bind,decide_true,
    Value.asU64_ofU64,Value.asStr_string,Option.getD,String.reduceEq,decide_false]
  rw [if_neg real]

theorem parseReplace_empty {replace : TextReplace} (empty : replace.delete = 0 ∧ replace.insert = []) :
    parseReplace (replacePayload replace) = .error (.invalidOp "replace is a no-op") := by
  simp only [parseReplace,replacePayload,Value.get_object,Fields.get,List.find?,Option.map,Option.bind,decide_true,
    Value.asU64_ofU64,Value.asStr_string,Option.getD,String.reduceEq,decide_false]
  rw [if_pos empty]

theorem replaceFromOp_some : replaceFromOp op = some replace ↔ op.opType = .replace ∧ parseReplace op.payload = .ok replace := by
  unfold replaceFromOp
  by_cases kind : op.opType = .replace
  · cases parsed : parseReplace op.payload <;> simp [kind]
  · simp [kind]

theorem validate_envelope (valid : validateAndTransform snapshot intervening op actor participants = .ok out) :
    ∃ payload, out = {op with payload := payload} := by
  unfold validateAndTransform at valid
  split at valid
  · split at valid
    · cases valid
    · dsimp only at valid
      split at valid
      · cases valid
      · cases valid; exact ⟨_,rfl⟩
  · split at valid
    · cases valid
    · cases valid
    · split at valid
      · cases valid
      · split at valid
        · cases valid
        · cases valid; exact ⟨_,rfl⟩
  · split at valid
    · cases valid
    · cases valid
    · split at valid
      · cases valid
      · split at valid
        · cases valid
        · cases valid; exact ⟨_,rfl⟩
  · cases valid; exact ⟨_,rfl⟩
  · cases valid

theorem validate_replace (kind : op.opType = .replace)
    (valid : validateAndTransform snapshot intervening op actor participants = .ok out) :
    ∃ submitted replace, parseReplace op.payload = .ok submitted ∧
      replace = clampReplace (textOf snapshot) (transformReplaceThrough submitted (intervening.filterMap replaceFromOp)) ∧
      rangeBlockedByOthers participants actor replace.index.toUInt32 (probeEnd replace) = false ∧
      out = {op with payload := replacePayload replace} := by
  simp only [validateAndTransform,kind] at valid
  split at valid
  · cases valid
  · rename_i submitted parsed
    split at valid
    · cases valid
    · rename_i free
      cases valid
      exact ⟨submitted,_,parsed,rfl,by simpa using free,by rw [kind]⟩

theorem validate_lock (kind : op.opType = .lock)
    (valid : validateAndTransform snapshot intervening op actor participants = .ok out) :
    ∃ start stop, (op.payload.get "start").bind Value.asU64 = some start ∧
      (op.payload.get "end").bind Value.asU64 = some stop ∧ start.toUInt32 < stop.toUInt32 ∧
      rangeBlockedByOthers participants actor start.toUInt32 stop.toUInt32 = false ∧ out = op := by
  simp only [validateAndTransform,kind] at valid
  split at valid
  · cases valid
  · cases valid
  · rename_i start stop first last
    split at valid
    · cases valid
    · rename_i wide
      split at valid
      · cases valid
      · rename_i free
        cases valid
        exact ⟨start,stop,first,last,UInt32.not_le.mp wide,by simpa using free,rfl⟩

theorem clampReplace_inside (fits : replace.Fits) (small : text.length < 2^62)
    (inside : replace.index.toNat + replace.delete.toNat ≤ text.length) : clampReplace text replace = replace := by
  obtain ⟨span,_⟩ := fits
  have len := MachineInt.toNat_ofNat text.length (by omega)
  have sum := MachineInt.toNat_add replace.index replace.delete (by omega)
  have first : ¬UInt64.ofNat text.length < replace.index := by
    rw [UInt64.lt_iff_toNat_lt,len]; omega
  have second : ¬UInt64.ofNat text.length < replace.index + replace.delete := by
    rw [UInt64.lt_iff_toNat_lt,len,sum]; omega
  simp only [clampReplace,if_neg first,if_neg second]

theorem clamp_cases (text : Text) (op : TextReplace) (short : text.length < 2^64) :
    (clampReplace text op).index.toNat ≤ text.length ∧
      ((clampReplace text op).index.toNat + (clampReplace text op).delete.toNat ≤ text.length ∨
        2^64 ≤ (clampReplace text op).index.toNat + (clampReplace text op).delete.toNat ∧
          (clampReplace text op).delete = op.delete) := by
  have len := MachineInt.toNat_ofNat text.length short
  obtain ⟨index,same⟩ : ∃ index, index = if UInt64.ofNat text.length < op.index then UInt64.ofNat text.length
    else op.index := ⟨_,rfl⟩
  have first : index.toNat ≤ text.length := by
    rw [same]
    split
    · exact Nat.le_of_eq len
    · rename_i low
      have order := UInt64.le_iff_toNat_le.mp (UInt64.not_lt.mp low)
      omega
  simp only [clampReplace,← same]
  refine ⟨first,?_⟩
  by_cases long : UInt64.ofNat text.length < index + op.delete
  · rw [if_pos long,UInt64.toNat_sub_of_le _ _ (UInt64.le_iff_toNat_le.mpr (by omega))]
    exact .inl (by omega)
  · rw [if_neg long]
    have order := UInt64.le_iff_toNat_le.mp (UInt64.not_lt.mp long)
    rw [len] at order
    by_cases wraps : index.toNat + op.delete.toNat < 2^64
    · rw [MachineInt.toNat_add _ _ wraps] at order
      exact .inl order
    · exact .inr ⟨Nat.le_of_not_lt wraps,rfl⟩

def Unlocked (participants : Participants) (actor : String) : Prop :=
  ∀ userId p, participants.get userId = some p → userId ≠ actor → lockOf p.presence = none

theorem unlocked_unblocked (unlocked : Unlocked participants actor) (start stop : UInt32) :
    rangeBlockedByOthers participants actor start stop = false := by
  unfold rangeBlockedByOthers
  split
  · rfl
  · apply Bool.eq_false_iff.mpr
    intro blocked
    obtain ⟨userId,p,found,holds⟩ := KeyMap.any_iff.mp blocked
    split at holds
    · cases holds
    · rename_i other
      rw [unlocked userId p found other] at holds
      cases holds

theorem unblocked_apart (free : rangeBlockedByOthers participants actor start stop = false) (wide : start < stop)
    (found : participants.get userId = some p) (other : userId ≠ actor) (lock : lockOf p.presence = some (ls,le))
    (locked : ls < le) : ¬(start.toUInt64 < le ∧ ls < stop.toUInt64) := by
  intro meets
  rw [rangeBlockedByOthers,if_neg (UInt32.not_le.mpr wide)] at free
  refine Bool.eq_false_iff.mp free (KeyMap.any_iff.mpr ⟨userId,p,found,?_⟩)
  simp only [other,lock,if_neg (UInt64.not_le.mpr locked),if_false,decide_eq_true_eq]
  exact meets

theorem validate_unlocked (kind : op.opType = .replace) (parsed : parseReplace op.payload = .ok submitted)
    (unlocked : Unlocked participants actor) :
    validateAndTransform snapshot intervening op actor participants =
      .ok {op with payload := replacePayload (clampReplace (textOf snapshot)
        (transformReplaceThrough submitted (intervening.filterMap replaceFromOp)))} := by
  simp only [validateAndTransform,kind,parsed,unlocked_unblocked unlocked,Bool.false_eq_true,if_false]

-- A replace that has become empty on its way is refused by `apply`.
theorem apply_replace (kind : op.opType = .replace) (payload : op.payload = replacePayload replace) :
    apply snapshot op =
      if replace.delete = 0 ∧ replace.insert = [] then .error (.invalidOp "replace is a no-op")
      else .ok (withText snapshot (applyReplace (textOf snapshot) replace)) := by
  simp only [apply,kind,payload]
  by_cases empty : replace.delete = 0 ∧ replace.insert = []
  · rw [if_pos empty,parseReplace_empty empty]
  · rw [if_neg empty,parseReplace_replacePayload replace empty]

@[simp] theorem textOf_withText (snapshot : DomainSnapshot) (text : Text) : textOf (withText snapshot text) = text := by
  simp [textOf,withText]

end Ownly.Collab.Document
