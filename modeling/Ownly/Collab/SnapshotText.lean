import Ownly.Collab.Timeline

-- Which writes of a document session move its text: the ops of its log, and the seed
-- of a join that finds nothing written yet.
namespace Ownly.Collab.SnapshotText
open Timeline (step read created read_exact step_exact step_frame)
open Option

def replay (base : DomainSnapshot) (log : List OpEnvelope) : Except CollabError DomainSnapshot :=
  log.foldlM Document.apply base

def Reseeds (session : CollabSession) : Call → Prop
  | .join kind _ _ _ seed =>
    kind = .document ∧ seed.isSome = true ∧
      match (session.snapshot.data.get "text").bind Value.asStr with
      | some text => text = []
      | none => False
  | _ => False

instance (session : CollabSession) (call : Call) : Decidable (Reseeds session call) := by
  unfold Reseeds
  split
  · have : Decidable (match (session.snapshot.data.get "text").bind Value.asStr with
      | some text => text = []
      | none => False) := by split <;> infer_instance
    infer_instance
  · infer_instance

-- The snapshot of the last state without a committed op: the one the session was
-- created with, or a seed that arrived before anything was written.
def baseSnapshot (t : Timeline) : List Commit → DomainSnapshot
  | [] => t.session.snapshot
  | c :: rest => match step t c with
    | some next => if next.log.isEmpty then baseSnapshot next rest else t.session.snapshot
    | none => t.session.snapshot

theorem reseed_kept (kept : ¬Reseeds session (.join kind fileId userId displayName seed)) :
    Engine.reseed session kind seed = session.snapshot := by
  unfold Engine.reseed
  split
  · rename_i seed found
    split
    · rename_i document
      exact absurd ⟨document,rfl,by rw [found]⟩ kept
    · rfl
  · rfl

-- `apply` reads the data of the snapshot and the kind and payload of the op.
theorem apply_data (seq : Nat) (same : other.data = snapshot.data) (applied : Document.apply snapshot op = .ok after) :
    ∃ after', Document.apply other {op with seq := seq} = .ok after' ∧ after'.data = after.data := by
  have text : Document.textOf other = Document.textOf snapshot := by rw [Document.textOf,same,Document.textOf]
  unfold Document.apply at applied ⊢
  dsimp only
  split at applied
  · split at applied
    · cases applied
    · cases applied
      exact ⟨_,rfl,by rw [Document.withText,Document.withText,text,same]⟩
  · cases applied
    exact ⟨_,rfl,by rw [same]⟩
  · cases applied
    exact ⟨_,rfl,same⟩
  · cases applied
    exact ⟨_,rfl,same⟩
  · cases applied

variable {call : Call}

theorem compute_silent (ran : call.compute now opId session = .ok (none,next))
    (kept : ¬Reseeds session call) : next.snapshot = session.snapshot := by
  cases call with
  | join kind fileId userId displayName seed =>
    cases ran
    exact reseed_kept kept
  | heartbeat sessionId userId presence =>
    simp only [Call.compute] at ran
    split at ran
    · cases ran
    · rename_i after beat
      cases ran
      obtain ⟨participant,_,rfl⟩ := Engine.heartbeat_exact.mp beat
      rfl
  | submitOp sessionId userId baseSeq opType payload clientOpId =>
    simp only [Call.compute] at ran
    split at ran
    · cases ran
    · cases ran

theorem compute_commits (document : session.roomKind = .document)
    (ran : call.compute now opId session = .ok (some op,next)) :
    ∃ after, Document.apply session.snapshot op = .ok after ∧ next.snapshot.data = after.data := by
  cases call with
  | join kind fileId userId displayName seed => cases ran
  | heartbeat sessionId userId presence =>
    simp only [Call.compute] at ran
    split at ran
    · cases ran
    · cases ran
  | submitOp sessionId userId baseSeq opType payload clientOpId =>
    simp only [Call.compute] at ran
    split at ran
    · cases ran
    · rename_i done
      cases ran
      obtain ⟨validated,snapshot,_,applied,rfl,rfl⟩ := (Engine.submitOp_exact.mp done).passed
      rw [document] at applied
      obtain ⟨after,again,agrees⟩ := apply_data session.nextSeq rfl applied
      exact ⟨after,again,agrees.symm⟩

theorem compute_added (ran : call.compute now opId session = .ok (some op,next)) :
    ¬Reseeds session call := by
  cases call with
  | join kind fileId userId displayName seed => cases ran
  | heartbeat sessionId userId presence => exact id
  | submitOp sessionId userId baseSeq opType payload clientOpId => exact id

-- The log replayed on the base gives the data of the session.
def Replays (base : DomainSnapshot) (t : Timeline) : Prop :=
  ∃ final, replay base t.log = .ok final ∧ final.data = t.session.snapshot.data

theorem step_replays (document : t.session.roomKind = .document) (held : Replays base t)
    (kept : ¬Reseeds t.session c.call) (fired : step t c = some t') : Replays base t' := by
  obtain ⟨_,added,next,ran,rfl⟩ := step_exact fired
  obtain ⟨participants,same,_⟩ := read_exact t.session c.prunedAt
  obtain ⟨final,replayed,data⟩ := held
  have snapshot : (read t.session c.prunedAt).snapshot = t.session.snapshot := by rw [same]
  have kind : (read t.session c.prunedAt).roomKind = .document := by rw [same]; exact document
  cases added with
  | none =>
    have unchanged := compute_silent ran (fun again => kept (by rw [same] at again; exact again))
    refine ⟨final,?_,?_⟩
    · rw [toList_none,List.append_nil]
      exact replayed
    · rw [data]
      exact congrArg DomainSnapshot.data (unchanged.trans snapshot).symm
  | some op =>
    obtain ⟨after,applied,result⟩ := compute_commits kind ran
    rw [snapshot] at applied
    obtain ⟨after',again,agrees⟩ := apply_data op.seq data applied
    refine ⟨after',?_,agrees.trans result.symm⟩
    unfold replay at replayed ⊢
    have last : List.foldlM Document.apply final [op] = Document.apply final op := bind_pure _
    rw [toList_some,List.foldlM_append,replayed]
    exact last.trans again

theorem step_log (fired : step t c = some t') (written : t.log ≠ []) : t'.log ≠ [] := by
  obtain ⟨_,added,next,_,rfl⟩ := step_exact fired
  intro empty
  exact written (List.append_eq_nil_iff.mp empty).1

theorem run_replays (document : t.session.roomKind = .document) (written : t.log ≠ []) (held : Replays base t)
    (kept : Schedule.Along step (fun t c => t.log ≠ [] → ¬Reseeds t.session c.call) t commits)
    (ran : Schedule.run step t commits = some final) : Replays base final := by
  have both := Schedule.run_along
    (motive := fun t => t.session.roomKind = .document ∧ t.log ≠ [] ∧ Replays base t) ?_ ⟨document,written,held⟩ kept ran
  · exact both.2.2
  · rintro t c t' ⟨document,written,held⟩ kept fired
    exact ⟨(step_frame fired).2.1.trans document,step_log fired written,
      step_replays document held (kept written) fired⟩

theorem run_base (document : t.session.roomKind = .document) (unwritten : t.log = [])
    (kept : Schedule.Along step (fun t c => t.log ≠ [] → ¬Reseeds t.session c.call) t commits)
    (ran : Schedule.run step t commits = some final) : Replays (baseSnapshot t commits) final := by
  have start : Replays t.session.snapshot t := ⟨t.session.snapshot,by rw [unwritten]; rfl,rfl⟩
  induction commits generalizing t with
  | nil =>
    cases Schedule.run_nil ran
    exact start
  | cons c rest ih =>
    obtain ⟨next,fired,ran⟩ := Schedule.run_cons ran
    have document' : next.session.roomKind = .document := (step_frame fired).2.1.trans document
    simp only [baseSnapshot,fired]
    by_cases silent : next.log = []
    · rw [if_pos (by rw [silent]; rfl)]
      exact ih document' silent (kept.2 next fired) ran ⟨next.session.snapshot,by rw [silent]; rfl,rfl⟩
    · rw [if_neg (by simpa using silent)]
      refine run_replays document' silent (step_replays document start ?_ fired) (kept.2 next fired) ran
      obtain ⟨_,added,after,computed,rfl⟩ := step_exact fired
      obtain ⟨participants,same,_⟩ := read_exact t.session c.prunedAt
      cases added with
      | none => exact absurd (by rw [unwritten]; rfl) silent
      | some op =>
        have still := compute_added computed
        rw [same] at still
        exact still

theorem base_cases (commits : List Commit) (unwritten : t.log = []) :
    baseSnapshot t commits = t.session.snapshot ∨
    ∃ before c rest t' fileId userId displayName value, commits = before ++ c :: rest ∧
      Schedule.run step t before = some t' ∧ t'.log = [] ∧ Reseeds t'.session c.call ∧
      c.call = .join .document fileId userId displayName (some value) ∧
      baseSnapshot t commits = Document.seedSnapshot (some value) := by
  induction commits generalizing t with
  | nil => exact .inl rfl
  | cons c rest ih =>
    cases fired : step t c with
    | none =>
      simp only [baseSnapshot,fired]
      exact .inl trivial
    | some next =>
      simp only [baseSnapshot,fired]
      by_cases silent : next.log = []
      · rw [if_pos (by rw [silent]; rfl)]
        rcases ih silent with same | ⟨before,c',rest',t',fileId,userId,displayName,value,rfl,ran,none,again,call,seeded⟩
        · rw [same]
          obtain ⟨_,added,after,computed,rfl⟩ := step_exact fired
          obtain ⟨participants,pruned,_⟩ := read_exact t.session c.prunedAt
          have added : added = .none := by
            cases added with
            | none => rfl
            | some op => simp at silent
          subst added
          by_cases again : Reseeds t.session c.call
          · refine .inr ⟨[],c,rest,t,?_⟩
            cases call : c.call with
            | join kind fileId userId displayName seed =>
              rw [call] at again computed
              obtain ⟨rfl,given,text⟩ := again
              obtain ⟨value,rfl⟩ := isSome_iff_exists.mp given
              cases computed
              refine ⟨fileId,userId,displayName,value,rfl,rfl,unwritten,⟨rfl,rfl,text⟩,rfl,?_⟩
              simp only [Store.stamped,Engine.join,Engine.reseed,pruned]
              split at text
              · rename_i found
                subst text
                rw [found]
                rfl
              · cases text
            | heartbeat sessionId userId presence => rw [call] at again; exact again.elim
            | submitOp sessionId userId baseSeq opType payload clientOpId => rw [call] at again; exact again.elim
          · left
            have unchanged := compute_silent computed (fun more => again (by rw [pruned] at more; exact more))
            rw [pruned] at unchanged
            exact unchanged
        · right
          refine ⟨c :: before,c',rest',t',fileId,userId,displayName,value,rfl,?_,none,again,call,seeded⟩
          rw [Schedule.run,fired]
          exact ran
      · rw [if_neg (by simpa using silent)]
        exact .inl rfl

theorem join_keeps (fired : step t c = some t') (call : c.call = .join kind fileId userId displayName seed)
    (kept : Document.textOf t.session.snapshot ≠ [] ∨ seed = none) : t'.session.snapshot = t.session.snapshot := by
  obtain ⟨_,added,after,computed,rfl⟩ := step_exact fired
  obtain ⟨participants,pruned,_⟩ := read_exact t.session c.prunedAt
  rw [call,pruned] at computed
  have silent : added = none := by cases computed; rfl
  subst silent
  have unchanged := compute_silent computed ?_
  · exact unchanged
  rintro ⟨_,given,text⟩
  split at text
  · rename_i found
    rcases kept with nonempty | rfl
    · subst text
      exact nonempty (congrArg (fun v => Option.getD v []) found)
    · cases given
  · exact text

theorem text_replays_log (ran : Schedule.run step (created now sessionId .document fileId seed) commits = some t)
    (kept : Schedule.Along step (fun t c => t.log ≠ [] → ¬Reseeds t.session c.call)
      (created now sessionId .document fileId seed) commits) :
    (∃ final, replay (baseSnapshot (created now sessionId .document fileId seed) commits) t.log = .ok final ∧
      Document.textOf final = Document.textOf t.session.snapshot) ∧
    (baseSnapshot (created now sessionId .document fileId seed) commits = Document.seedSnapshot seed ∨
      ∃ before c rest t' fileId' userId displayName value, commits = before ++ c :: rest ∧
        Schedule.run step (created now sessionId .document fileId seed) before = some t' ∧ t'.log = [] ∧
        Reseeds t'.session c.call ∧ c.call = .join .document fileId' userId displayName (some value) ∧
        baseSnapshot (created now sessionId .document fileId seed) commits = Document.seedSnapshot (some value)) ∧
    ∀ c t' kind fileId' userId displayName seed', step t c = some t' →
      c.call = .join kind fileId' userId displayName seed' → t.log ≠ [] →
      (Document.textOf t.session.snapshot ≠ [] ∨ seed' = none) →
      Document.textOf t'.session.snapshot = Document.textOf t.session.snapshot ∧
        t'.session.snapshot.snapshotSeq = t.session.snapshot.snapshotSeq := by
  refine ⟨?_,base_cases commits rfl,?_⟩
  · obtain ⟨final,replayed,data⟩ := run_base rfl rfl kept ran
    exact ⟨final,replayed,by rw [Document.textOf,data,Document.textOf]⟩
  · intro c t' kind fileId' userId displayName seed' fired call _ kept
    have unchanged := join_keeps fired call kept
    exact ⟨congrArg Document.textOf unchanged,congrArg DomainSnapshot.snapshotSeq unchanged⟩

def seedOf (text : Text) : Value := .object [("text",.string text)]

def commitOf (call : Call) : Commit := ⟨[],0,"op",call,0⟩

def joinOf (userId : String) (seed : Option Value) : Commit := commitOf (.join .document "f" userId userId seed)

def replaceOf (userId : String) (replace : TextReplace) : Commit :=
  commitOf (.submitOp "s" userId 0 .replace (Document.replacePayload replace) none)

theorem text_replays_log_seeded : ∃ t final,
    Schedule.run step (created 0 "s" .document "f" none)
      [joinOf "u1" none,joinOf "u2" (some (seedOf ['h','i'])),replaceOf "u1" ⟨2,0,['!']⟩] = some t ∧
    replay (Document.seedSnapshot (some (seedOf ['h','i']))) t.log = .ok final ∧
    Document.textOf final = Document.textOf t.session.snapshot := by
  obtain ⟨t,ran⟩ := isSome_iff_exists.mp (by decide : (Schedule.run step (created 0 "s" .document "f" none)
    [joinOf "u1" none,joinOf "u2" (some (seedOf ['h','i'])),replaceOf "u1" ⟨2,0,['!']⟩]).isSome = true)
  obtain ⟨⟨final,replayed,text⟩,_⟩ := text_replays_log ran (by decide)
  exact ⟨t,final,ran,replayed,text⟩

def replayedText (base : DomainSnapshot) (log : List OpEnvelope) : Option Text :=
  match replay base log with
  | .ok final => some (Document.textOf final)
  | .error _ => none

def bothTexts (seed : Option Value) (commits : List Commit) : Option (Option Text × Text) :=
  (Schedule.run step (created 0 "s" .document "f" seed) commits).map
    (fun t => (replayedText (Document.seedSnapshot seed) t.log,Document.textOf t.session.snapshot))

theorem seeds_move_text :
    bothTexts none [joinOf "u1" none,joinOf "u2" (some (seedOf ['h','i']))] = some (some [],['h','i']) ∧
    bothTexts (some (seedOf ['x'])) [joinOf "u1" none,replaceOf "u1" ⟨0,1,[]⟩,joinOf "u2" (some (seedOf ['y']))] =
      some (some [],['y']) := by
  constructor
  · decide
  · decide

end Ownly.Collab.SnapshotText
