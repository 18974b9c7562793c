import Ownly.Collab.Timeline

-- The range locks of a document: who may come to hold one over the range of another.
namespace Ownly.Collab.Locks
open Timeline (step read read_exact step_exact step_frame created Reached)
open Option

structure HeartbeatRequest where
  presence : Option Value
  selectionStart : Option UInt32
  selectionEnd : Option UInt32
  lockStart : Option UInt32
  lockEnd : Option UInt32
  clearLock : Option Bool
  activeCell : Option Text
  sheetName : Option Text

def setNumber (map : Fields) (key : String) : Option UInt32 → Fields
  | some v => map.set key (.ofU64 v.toUInt64)
  | none => map

def setString (map : Fields) (key : String) : Option Text → Fields
  | some v => map.set key (.string v)
  | none => map

-- `merge_presence` over HTTP, `merge_ws_presence` over the socket.
def mergePresence (msg : HeartbeatRequest) : Option Value :=
  let map := match msg.presence.bind Value.asObject with
    | some body => Engine.mergePresence [] body
    | none => []
  let map := setNumber map "selection_start" msg.selectionStart
  let map := setNumber map "selection_end" msg.selectionEnd
  let map :=
    if msg.clearLock = some true then (map.set "lock_start" .null).set "lock_end" .null
    else setNumber (setNumber map "lock_start" msg.lockStart) "lock_end" msg.lockEnd
  let map := setString map "active_cell" msg.activeCell
  let map := setString map "sheet_name" msg.sheetName
  if map.isEmpty then none else some (.object map)

abbrev Range := UInt64 × UInt64

def held (participants : Participants) (userId : String) : Option Range :=
  (participants.get userId).bind (fun p => Document.lockOf p.presence)

def Apart (a b : Range) : Prop := a.1 < a.2 → b.1 < b.2 → a.2 ≤ b.1 ∨ b.2 ≤ a.1

def Exclusive (participants : Participants) : Prop :=
  ∀ u v a b, u ≠ v → held participants u = some a → held participants v = some b → Apart a b

def Clear (participants : Participants) (actor : String) (range : Range) : Prop :=
  ∀ v b, v ≠ actor → held participants v = some b → Apart range b

def committed (session : CollabSession) (baseSeq : Nat) (sent : TextReplace) : TextReplace :=
  Document.clampReplace (Document.textOf session.snapshot)
    (transformReplaceThrough sent ((session.opsAfter baseSeq).filterMap Document.replaceFromOp))

-- A heartbeat writes no range over a foreign lock, a lock op has numbers that fit the
-- 32 bits it is checked with, and no position of a replace wraps.
def Harmless (session : CollabSession) : Call → Prop
  | .join _ _ _ _ _ => True
  | .heartbeat _ userId presence =>
    ∀ p body range, session.participants.get userId = some p → presence.bind Value.asObject = some body →
      Document.lockOf (Engine.mergePresence p.presence body) = some range → Clear session.participants userId range
  | .submitOp _ userId baseSeq opType payload _ =>
    (opType = .lock → ∀ s e, (payload.get "start").bind Value.asU64 = some s →
      (payload.get "end").bind Value.asU64 = some e →
      (s.toNat < 2^32 ∧ e.toNat < 2^32) ∨ Clear session.participants userId (s,e)) ∧
    (opType = .replace → ∀ sent, Document.parseReplace payload = .ok sent →
      (committed session baseSeq sent).index.toNat + (committed session baseSeq sent).delete.toNat < 2^64 ∧
      ∀ v b, held session.participants v = some b → b.2.toNat + sent.insert.length < 2^64)

theorem apart_symm (apart : Apart a b) : Apart b a := fun left right => (apart right left).symm

theorem exclusive_subset (kept : ∀ u range, held after u = some range → held before u = some range)
    (exclusive : Exclusive before) : Exclusive after :=
  fun u v a b ne first second => exclusive u v a b ne (kept u a first) (kept v b second)

theorem exclusive_update (actor : String) (others : ∀ u range, u ≠ actor → held after u = some range → held before u = some range)
    (clear : ∀ range, held after actor = some range → Clear before actor range) (exclusive : Exclusive before) :
    Exclusive after := by
  intro u v a b ne first second
  by_cases left : u = actor
  · subst u
    exact clear a first v b ne.symm (others v b ne.symm second)
  by_cases right : v = actor
  · subst v
    exact apart_symm (clear b second u a left (others u a left first))
  · exact exclusive u v a b ne (others u a left first) (others v b right second)

theorem exclusive_shift (shift : UInt64 → UInt64) (moved : ∀ u range, held after u = some range → ∃ old, held before u = some old ∧
      old.1 < old.2 ∧ range = (shift old.1,shift old.2))
    (mono : ∀ v first range, held before v = some range → range.1 < range.2 → first ≤ range.1 →
      shift first ≤ shift range.1) (exclusive : Exclusive before) : Exclusive after := by
  intro u v a b ne first second _ _
  obtain ⟨oldA,heldA,wideA,rfl⟩ := moved u a first
  obtain ⟨oldB,heldB,wideB,rfl⟩ := moved v b second
  rcases exclusive u v oldA oldB ne heldA heldB wideA wideB with left | right
  · exact .inl (mono v oldA.2 oldB heldB wideB left)
  · exact .inr (mono u oldB.2 oldA heldA wideA right)

theorem read_held (session : CollabSession) (prunedAt : List Nat) (found : held (read session prunedAt).participants u = some range) :
    held session.participants u = some range := by
  obtain ⟨participants,same,kept⟩ := read_exact session prunedAt
  rw [same] at found
  obtain ⟨p,present,lock⟩ := bind_eq_some_iff.mp found
  exact bind_eq_some_iff.mpr ⟨p,kept u p present,lock⟩

theorem lockOf_set (presence : Fields) (value : Value) (first : key ≠ "lock_start") (last : key ≠ "lock_end") :
    Document.lockOf (presence.set key value) = Document.lockOf presence := by
  simp only [Document.lockOf,Fields.get_set_ne _ _ first.symm,Fields.get_set_ne _ _ last.symm]

theorem lockOf_shiftField (replace : TextReplace) (presence : Fields) (first : key ≠ "lock_start")
    (last : key ≠ "lock_end") :
    Document.lockOf (Document.shiftField replace presence key) = Document.lockOf presence := by
  unfold Document.shiftField
  split
  · exact lockOf_set presence _ first last
  · rfl

theorem lockOf_written (presence : Fields) (s e : UInt64) :
    Document.lockOf ((presence.set "lock_start" (.ofU64 s)).set "lock_end" (.ofU64 e)) = some (s,e) := by
  have start : ((presence.set "lock_start" (.ofU64 s)).set "lock_end" (.ofU64 e)).get "lock_start" = some (.ofU64 s) := by
    rw [Fields.get_set_ne _ _ (by decide),Fields.get_set_self]
  simp only [Document.lockOf,start,Fields.get_set_self,bind_some,Value.asU64_ofU64]

theorem lockOf_endless (presence : Fields) (last : (presence.get "lock_end").bind Value.asU64 = none) :
    Document.lockOf presence = none := by
  rw [Document.lockOf,last]
  cases (presence.get "lock_start").bind Value.asU64 with
  | none => rfl
  | some s => rfl

theorem lockOf_removed (presence : Fields) : Document.lockOf ((presence.remove "lock_start").remove "lock_end") = none :=
  lockOf_endless _ (by rw [Fields.get_remove_self,bind_none])

theorem lockOf_nulled (presence : Fields) :
    Document.lockOf ((presence.set "lock_start" .null).set "lock_end" .null) = none :=
  lockOf_endless _ (by rw [Fields.get_set_self,bind_some,Value.asU64_null])

theorem lockOf_transform (presence : Fields) (op : OpEnvelope) :
    Document.lockOf (Document.transformPresence presence op) =
      match Document.replaceFromOp op with
      | none => Document.lockOf presence
      | some replace => (Document.lockOf presence).bind (fun range => transformRange range.1 range.2 replace) := by
  unfold Document.transformPresence
  cases Document.replaceFromOp op with
  | none => rfl
  | some replace =>
    have shifted : Document.lockOf (Document.shiftField replace (Document.shiftField replace presence "selection_start")
        "selection_end") = Document.lockOf presence := by
      rw [lockOf_shiftField _ _ (by decide) (by decide),lockOf_shiftField _ _ (by decide) (by decide)]
    dsimp only
    cases lock : Document.lockOf presence with
    | none =>
      rw [lock] at shifted
      simp only [shifted,bind_none]
    | some range =>
      rw [lock] at shifted
      simp only [shifted,bind_some]
      cases transformRange range.1 range.2 replace with
      | none => exact lockOf_removed _
      | some moved => exact lockOf_written _ moved.1 moved.2

theorem lockOf_lock (kind : op.opType = .lock) (start : (op.payload.get "start").bind Value.asU64 = some s)
    (stop : (op.payload.get "end").bind Value.asU64 = some e) (presence : Fields) :
    Document.lockOf (Document.applyLockPresence presence op) = some (s,e) := by
  simp only [Document.applyLockPresence,kind,start,stop]
  exact lockOf_written _ s e

theorem lockOf_unlock (kind : op.opType = .unlock) (presence : Fields) :
    Document.lockOf (Document.applyLockPresence presence op) = none := by
  simp only [Document.applyLockPresence,kind]
  exact lockOf_nulled _

theorem applied_other (lock : op.opType ≠ .lock) (unlock : op.opType ≠ .unlock) (presence : Fields) :
    Document.applyLockPresence presence op = presence := by
  unfold Document.applyLockPresence
  split
  · exact absurd (by assumption) lock
  · exact absurd (by assumption) unlock
  · rfl

theorem transform_other (kind : op.opType ≠ .replace) (presence : Fields) :
    Document.transformPresence presence op = presence := by
  have none : Document.replaceFromOp op = none := by rw [Document.replaceFromOp,if_pos kind]
  simp only [Document.transformPresence,none]

theorem append_get (document : session.roomKind = .document) (now : Nat) (userId member : String)
    (snapshot : DomainSnapshot) (op : OpEnvelope) :
    held (Engine.append now session userId snapshot op).participants member =
      (session.participants.get member).bind (fun p => Document.lockOf (Document.transformPresence
        (if member = userId then Document.applyLockPresence p.presence op else p.presence) op)) := by
  simp only [held,Engine.append,Engine.movePresence,document,KeyMap.modify,KeyMap.get_mapEntries,KeyMap.get_mapValues]
  cases session.participants.get member with
  | none => rfl
  | some p =>
    by_cases same : member = userId
    · simp [same,Domain.transformPresence]
    · simp [same,Domain.transformPresence]

theorem append_quiet (document : session.roomKind = .document) (replace : op.opType ≠ .replace) (lock : op.opType ≠ .lock)
    (found : held (Engine.append now session userId snapshot op).participants member = some range) :
    held session.participants member = some range := by
  rw [append_get document] at found
  obtain ⟨p,present,after⟩ := bind_eq_some_iff.mp found
  refine bind_eq_some_iff.mpr ⟨p,present,?_⟩
  rw [transform_other replace] at after
  split at after
  · by_cases unlock : op.opType = .unlock
    · rw [lockOf_unlock unlock] at after
      cases after
    · rw [applied_other lock unlock] at after
      exact after
  · exact after

theorem append_lock (document : session.roomKind = .document) (kind : op.opType = .lock)
    (start : (op.payload.get "start").bind Value.asU64 = some s) (stop : (op.payload.get "end").bind Value.asU64 = some e)
    (clear : Clear session.participants userId (s,e)) (exclusive : Exclusive session.participants) :
    Exclusive (Engine.append now session userId snapshot op).participants := by
  have replace : op.opType ≠ .replace := by rw [kind]; decide
  refine exclusive_update userId ?_ ?_ exclusive
  · intro member range other found
    rw [append_get document] at found
    obtain ⟨p,present,after⟩ := bind_eq_some_iff.mp found
    rw [if_neg other,transform_other replace] at after
    exact bind_eq_some_iff.mpr ⟨p,present,after⟩
  · intro range found
    rw [append_get document] at found
    obtain ⟨p,present,after⟩ := bind_eq_some_iff.mp found
    rw [if_pos rfl,transform_other replace,lockOf_lock kind start stop] at after
    cases after
    exact clear

theorem append_replace (document : session.roomKind = .document) (moves : Document.replaceFromOp op = some replace)
    (span : replace.index.toNat + replace.delete.toNat < 2^64)
    (room : ∀ v b, held session.participants v = some b → b.2.toNat + replace.insert.length < 2^64)
    (exclusive : Exclusive session.participants) :
    Exclusive (Engine.append now session userId snapshot op).participants := by
  have kind := (Document.replaceFromOp_some.mp moves).1
  have lock : op.opType ≠ .lock := by rw [kind]; decide
  have unlock : op.opType ≠ .unlock := by rw [kind]; decide
  refine exclusive_shift (fun v => transformOffset v replace) ?_ ?_ exclusive
  · intro member range found
    rw [append_get document] at found
    obtain ⟨p,present,after⟩ := bind_eq_some_iff.mp found
    rw [applied_other lock unlock,ite_self,lockOf_transform,moves] at after
    obtain ⟨old,locked,after⟩ := bind_eq_some_iff.mp after
    refine ⟨old,bind_eq_some_iff.mpr ⟨p,present,locked⟩,?_⟩
    unfold transformRange at after
    split at after
    · cases after
    · rename_i wide
      dsimp only at after
      split at after
      · cases after
        exact ⟨UInt64.not_le.mp wide,rfl⟩
      · cases after
  · intro v first range found wide order
    have bound := room v range found
    have inner := UInt64.lt_iff_toNat_lt.mp wide
    exact transformOffset_mono span (by omega) order

theorem replace_committed (document : session.roomKind = .document)
    (done : Engine.Submitted now opId session userId baseSeq .replace payload clientOpId op next) :
    ∃ sent, Document.parseReplace payload = .ok sent ∧
      Document.replaceFromOp op = some (committed session baseSeq sent) ∧
      (committed session baseSeq sent).insert = sent.insert := by
  obtain ⟨validated,snapshot,valid,applied,rfl,_⟩ := done.passed
  rw [document] at valid applied
  have checked : Document.validateAndTransform session.snapshot (session.opsAfter baseSeq)
      ⟨opId,0,userId,now,baseSeq,.replace,payload,clientOpId⟩ userId session.participants = .ok validated := valid
  obtain ⟨sent,replace,parsed,rfl,_,rfl⟩ := Document.validate_replace rfl checked
  refine ⟨sent,parsed,Document.replaceFromOp_some.mpr ⟨rfl,?_⟩,?_⟩
  · have taken : Document.apply session.snapshot ⟨opId,0,userId,now,baseSeq,.replace,
        Document.replacePayload (committed session baseSeq sent),clientOpId⟩ = .ok snapshot := applied
    rw [Document.apply_replace rfl rfl] at taken
    split at taken
    · cases taken
    · rename_i real
      exact Document.parseReplace_replacePayload _ real
  · exact transformReplaceThrough_insert sent _

theorem toUInt32_small (x : UInt64) (small : x.toNat < 2^32) : x.toUInt32.toUInt64 = x := by
  apply UInt64.toNat_inj.mp
  simp only [UInt32.toNat_toUInt64,UInt64.toNat_toUInt32]
  omega

theorem lock_checked (document : session.roomKind = .document)
    (done : Engine.Submitted now opId session userId baseSeq .lock payload clientOpId op next)
    (fits : ∀ s e, (payload.get "start").bind Value.asU64 = some s → (payload.get "end").bind Value.asU64 = some e →
      (s.toNat < 2^32 ∧ e.toNat < 2^32) ∨ Clear session.participants userId (s,e)) :
    ∃ s e, (op.payload.get "start").bind Value.asU64 = some s ∧ (op.payload.get "end").bind Value.asU64 = some e ∧
      Clear session.participants userId (s,e) := by
  obtain ⟨validated,snapshot,valid,_,rfl,_⟩ := done.passed
  rw [document] at valid
  have checked : Document.validateAndTransform session.snapshot (session.opsAfter baseSeq)
      ⟨opId,0,userId,now,baseSeq,.lock,payload,clientOpId⟩ userId session.participants = .ok validated := valid
  obtain ⟨s,e,start,stop,wide,free,rfl⟩ := Document.validate_lock rfl checked
  refine ⟨s,e,start,stop,?_⟩
  rcases fits s e start stop with ⟨small,little⟩ | clear
  · intro v b other locked _ foreign
    obtain ⟨p,present,lock⟩ := bind_eq_some_iff.mp locked
    have missed := Document.unblocked_apart free wide present other lock foreign
    rw [toUInt32_small s small,toUInt32_small e little] at missed
    by_cases before : e ≤ b.1
    · exact .inl before
    · exact .inr (UInt64.not_lt.mp (fun after => missed ⟨after,UInt64.not_le.mp before⟩))
  · exact clear

theorem compute_exclusive {call : Call} (document : session.roomKind = .document)
    (exclusive : Exclusive session.participants) (harmless : Harmless session call)
    (ran : call.compute now opId session = .ok (added,next)) : Exclusive next.participants := by
  cases call with
  | join kind fileId userId displayName seed =>
    cases ran
    refine exclusive_update userId ?_ ?_ exclusive
    · intro member range other found
      rw [held] at found ⊢
      rw [← found]
      simp only [Engine.join,KeyMap.get_set_ne other]
    · intro range found
      simp only [held,Engine.join,KeyMap.get_set_self,bind_some] at found
      cases kind with
      | document => cases found
      | spreadsheet => cases found
  | heartbeat sessionId userId presence =>
    simp only [Call.compute] at ran
    split at ran
    · cases ran
    · rename_i after beat
      cases ran
      obtain ⟨p,present,rfl⟩ := Engine.heartbeat_exact.mp beat
      refine exclusive_update userId ?_ ?_ exclusive
      · intro member range other found
        rw [held] at found ⊢
        rw [← found]
        simp only [KeyMap.get_set_ne other]
      · intro range found
        simp only [held,KeyMap.get_set_self,bind_some] at found
        cases sent : presence.bind Value.asObject with
        | none =>
          rw [sent] at found
          have locked : held session.participants userId = some range :=
            bind_eq_some_iff.mpr ⟨p,present,found⟩
          exact fun v b other foreign => exclusive userId v range b other.symm locked foreign
        | some body =>
          rw [sent] at found
          exact harmless p body range present sent found
  | submitOp sessionId userId baseSeq opType payload clientOpId =>
    simp only [Call.compute] at ran
    split at ran
    · cases ran
    · rename_i op after done
      cases ran
      have submitted := Engine.submitOp_exact.mp done
      obtain ⟨locks,replaces⟩ := harmless
      obtain ⟨payload',envelope⟩ := submitted.envelope
      have kind : op.opType = opType := by rw [envelope]
      by_cases replace : opType = .replace
      · subst replace
        obtain ⟨sent,parsed,moves,insert⟩ := replace_committed document submitted
        obtain ⟨span,room⟩ := replaces rfl sent parsed
        obtain ⟨validated,snapshot,_,_,_,rfl⟩ := submitted.passed
        exact append_replace document moves span (by rw [insert]; exact room) exclusive
      by_cases lock : opType = .lock
      · subst lock
        obtain ⟨s,e,start,stop,clear⟩ := lock_checked document submitted (locks rfl)
        obtain ⟨validated,snapshot,_,_,_,rfl⟩ := submitted.passed
        exact append_lock document kind start stop clear exclusive
      · obtain ⟨validated,snapshot,_,_,_,rfl⟩ := submitted.passed
        rw [← kind] at replace lock
        exact exclusive_subset (fun member range found => append_quiet document replace lock found) exclusive

theorem step_exclusive (document : t.session.roomKind = .document) (exclusive : Exclusive t.session.participants)
    (harmless : Harmless (read t.session c.prunedAt) c.call) (fired : step t c = some t') :
    Exclusive t'.session.participants := by
  obtain ⟨_,added,next,ran,rfl⟩ := step_exact fired
  have start : Exclusive (read t.session c.prunedAt).participants :=
    exclusive_subset (fun member range found => read_held _ _ found) exclusive
  have kind : (read t.session c.prunedAt).roomKind = .document := (Timeline.read_roomKind _ _).trans document
  have after := compute_exclusive kind start harmless ran
  exact after

theorem locks_exclusive
    (harmless : Schedule.Along step (fun t c => Harmless (read t.session c.prunedAt) c.call)
      (created now sessionId .document fileId seed) commits)
    (ran : Schedule.run step (created now sessionId .document fileId seed) commits = some t) :
    Exclusive t.session.participants := by
  have both := Schedule.run_along
    (motive := fun t => t.session.roomKind = .document ∧ Exclusive t.session.participants) ?_ ?_ harmless ran
  · exact both.2
  · rintro t c t' ⟨document,exclusive⟩ harmless fired
    exact ⟨(step_frame fired).2.1.trans document,step_exclusive document exclusive harmless fired⟩
  · refine ⟨rfl,?_⟩
    intro u v a b _ found
    cases found

def commitOf (call : Call) : Commit := ⟨[],0,"op",call,0⟩

def joinOf (userId : String) : Commit := commitOf (.join .document "f" userId userId none)

def lockOp (userId : String) (start stop : UInt64) : Commit :=
  commitOf (.submitOp "s" userId 0 .lock (.object [("start",.ofU64 start),("end",.ofU64 stop)]) none)

def beatOf (userId : String) (request : HeartbeatRequest) : Commit :=
  commitOf (.heartbeat "s" userId (mergePresence request))

def lockRequest (start stop : UInt32) : HeartbeatRequest :=
  ⟨none,none,none,some start,some stop,none,none,none⟩

theorem lockOp_harmless (session : CollabSession) (userId : String) (start stop : UInt64) (first : start.toNat < 2^32)
    (last : stop.toNat < 2^32) : Harmless session (lockOp userId start stop).call := by
  refine ⟨?_,fun kind => by cases kind⟩
  intro _ s e startsAt stopsAt
  cases startsAt
  cases stopsAt
  exact .inl ⟨first,last⟩

def neighbours : List Commit := [joinOf "u1",joinOf "u2",lockOp "u1" 0 5,lockOp "u2" 5 9]

theorem neighbours_harmless : Schedule.Along step (fun t c => Harmless (read t.session c.prunedAt) c.call)
    (created 0 "s" .document "f" none) neighbours := by
  refine ⟨trivial,fun _ _ => ⟨trivial,fun _ _ => ⟨?_,fun _ _ => ⟨?_,fun _ _ => trivial⟩⟩⟩⟩
  · exact lockOp_harmless _ "u1" 0 5 (by decide) (by decide)
  · exact lockOp_harmless _ "u2" 5 9 (by decide) (by decide)

theorem locks_exclusive_neighbours : ∃ t, Schedule.run step (created 0 "s" .document "f" none) neighbours = some t ∧
    Exclusive t.session.participants := by
  obtain ⟨t,ran⟩ := isSome_iff_exists.mp
    (by decide : (Schedule.run step (created 0 "s" .document "f" none) neighbours).isSome = true)
  exact ⟨t,ran,locks_exclusive neighbours_harmless ran⟩

def heldBy (commits : List Commit) : Option (Option Range × Option Range) :=
  (Schedule.run step (created 0 "s" .document "f" none) commits).map
    (fun t => (held t.session.participants "u1",held t.session.participants "u2"))

theorem heldBy_overlap (range : Range) (both : heldBy commits = some (some range,some range)) (wide : range.1 < range.2) :
    ∃ t, Schedule.run step (created 0 "s" .document "f" none) commits = some t ∧ ¬Exclusive t.session.participants := by
  obtain ⟨t,ran,locks⟩ := map_eq_some_iff.mp both
  obtain ⟨first,second⟩ := Prod.mk.inj locks
  refine ⟨t,ran,?_⟩
  intro exclusive
  rcases exclusive "u1" "u2" range range (by decide) first second wide wide with before | after
  · exact UInt64.not_le.mpr wide before
  · exact UInt64.not_le.mpr wide after

theorem locks_overlap :
    (∃ t, Schedule.run step (created 0 "s" .document "f" none)
      [joinOf "u1",joinOf "u2",lockOp "u1" 0 5,beatOf "u2" (lockRequest 0 5)] = some t ∧
      ¬Exclusive t.session.participants) ∧
    ∃ t, Schedule.run step (created 0 "s" .document "f" none)
      [joinOf "u1",joinOf "u2",lockOp "u1" 4294967296 4294967301,lockOp "u2" 4294967296 4294967301] = some t ∧
      ¬Exclusive t.session.participants := by
  constructor
  · exact heldBy_overlap (0,5) (by decide) (by decide)
  · exact heldBy_overlap (4294967296,4294967301) (by decide) (by decide)

end Ownly.Collab.Locks
