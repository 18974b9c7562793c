import Mathlib.Data.List.TakeWhile
import Ownly.Sheets.Independent

-- Both screens show the committed workbook with the own pending edits on top, as long as
-- what arrives swaps with what it is late for.
namespace Ownly.Sheets.Peers
open Collab (Text OpEnvelope Timeline Commit Logged CollabSession)
open Collab.Client (CollabClient PendingOp isLocal clearPending)
open Collab.Timeline (Reached reached_logged reached_frame step_logged step_frame)
open List

@[simp] theorem server_put (room : Room) (side : Side) (replica : Replica) : (room.put side replica).server = room.server := by
  cases side <;> rfl

@[simp] theorem peer_put (room : Room) (side : Side) (replica : Replica) : (room.put side replica).peer side = replica := by
  cases side <;> rfl

@[simp] theorem peer_server (room : Room) (server : Timeline) (side : Side) :
    ({room with server := server} : Room).peer side = room.peer side := by
  cases side <;> rfl

theorem peer_put_ne (room : Room) (replica : Replica) (ne : side' ≠ side) :
    (room.put side replica).peer side' = room.peer side' := by
  cases side <;> cases side' <;> first | rfl | exact absurd rfl ne

theorem other_ne (side : Side) : side.other ≠ side := by
  cases side <;> decide

theorem other_other (side : Side) : side.other.other = side := by
  cases side <;> rfl

theorem eq_or_other (side side' : Side) : side' = side ∨ side' = side.other := by
  cases side <;> cases side' <;> decide

section Fits
variable {env : Env} {moment base : Nat} {initial : SpreadsheetWorkbook} {log : List OpEnvelope} {replica : Replica}
  {op : OpEnvelope}

structure Fits (env : Env) (moment base : Nat) (initial : SpreadsheetWorkbook) (log : List OpEnvelope) (replica : Replica) :
    Prop where
  lower : base ≤ replica.screen.client.latestSeq
  upper : replica.screen.client.latestSeq ≤ log.length
  shown : replica.screen.workbook = replay env moment
    (seen env moment base initial log replica.screen.client.latestSeq) (pendingEdits replica.screen.client)
  ids : (replica.screen.client.pendingOps.map PendingOp.clientOpId).Nodup
  same : ∀ p ∈ replica.screen.client.pendingOps, ∀ op ∈ log.drop replica.screen.client.latestSeq,
    op.clientOpId = some p.clientOpId → editOf op = editOfPending p
  ahead : ∀ p ∈ replica.screen.client.pendingOps, ∀ seq, (p.clientOpId,seq) ∈ replica.committed →
    replica.screen.client.latestSeq < seq
  logged : ∀ entry ∈ replica.committed, ∃ op, log[entry.2 - 1]? = some op ∧ op.seq = entry.2 ∧
    op.clientOpId = some entry.1
  received : ∀ seq ∈ replica.received, seq ≤ replica.screen.client.latestSeq

theorem Fits.append (fits : Fits env moment base initial log replica)
    (own : ∀ p ∈ replica.screen.client.pendingOps, op.clientOpId = some p.clientOpId → editOf op = editOfPending p) :
    Fits env moment base initial (log ++ [op]) replica := by
  have prefixed : (log ++ [op]).take replica.screen.client.latestSeq = log.take replica.screen.client.latestSeq :=
    take_append_of_le_length fits.upper
  refine ⟨fits.lower,?_,?_,fits.ids,?_,fits.ahead,?_,fits.received⟩
  · rw [length_append]
    exact Nat.le_add_right_of_le fits.upper
  · rw [seen,prefixed]
    exact fits.shown
  · intro p pending later member same
    rw [drop_append_of_le_length fits.upper] at member
    rcases mem_append.mp member with old | new
    · exact fits.same p pending later old same
    · rw [mem_singleton.mp new] at same ⊢
      exact own p pending same
  · intro entry member
    obtain ⟨found,place,rest⟩ := fits.logged entry member
    refine ⟨found,?_,rest⟩
    rw [getElem?_append_left (List.getElem?_eq_some_iff.mp place).1]
    exact place

theorem Fits.committed (fits : Fits env moment base initial log replica) (pending : p ∈ replica.screen.client.pendingOps)
    (edit : editOf op = editOfPending p) (mine : op.clientOpId = some p.clientOpId) (seq : op.seq = log.length + 1) :
    Fits env moment base initial (log ++ [op])
      {replica with committed := replica.committed ++ [(p.clientOpId,log.length + 1)]} := by
  have own : ∀ q ∈ replica.screen.client.pendingOps, op.clientOpId = some q.clientOpId → editOf op = editOfPending q := by
    intro q member same
    rw [mine] at same
    have equal := inj_on_of_nodup_map fits.ids pending member (Option.some.inj same)
    rw [← equal]
    exact edit
  have longer := fits.append own
  refine ⟨longer.lower,longer.upper,longer.shown,longer.ids,longer.same,?_,?_,longer.received⟩
  · intro q member number found
    rcases mem_append.mp found with old | new
    · exact longer.ahead q member number old
    · have last := congrArg Prod.snd (mem_singleton.mp new)
      have upper := fits.upper
      dsimp only at last ⊢
      omega
  · intro entry member
    rcases mem_append.mp member with old | new
    · exact longer.logged entry old
    · rw [mem_singleton.mp new]
      refine ⟨op,?_,seq,mine⟩
      exact getElem?_concat_length

theorem seen_next (lower : base ≤ latestSeq) (found : log[latestSeq]? = some op) :
    seen env moment base initial log (latestSeq + 1) =
      applyOp env moment (seen env moment base initial log latestSeq) (editOf op) := by
  have reach : base ≤ (log.take latestSeq).length := by
    have inside := (List.getElem?_eq_some_iff.mp found).1
    rw [length_take]
    omega
  unfold seen
  rw [take_add_one,found,Option.toList_some,drop_append_of_le_length reach,map_append,replay_append]
  rfl

theorem own_split (own : Own client op) (ids : (client.pendingOps.map PendingOp.clientOpId).Nodup) :
    ∃ before p after, client.pendingOps = before ++ p :: after ∧ op.clientOpId = some p.clientOpId ∧
      overtaken client op = before.map editOfPending ∧
      (clearPending client op.clientOpId).pendingOps = before ++ after := by
  obtain ⟨p,member,mine⟩ := own
  obtain ⟨before,after,split⟩ := append_of_mem member
  rw [split,map_append,map_cons] at ids
  have apart := nodup_middle.mp ids
  have others : ∀ q ∈ before ++ after, q.clientOpId ≠ p.clientOpId := by
    intro q inside same
    refine (nodup_cons.mp apart).1 ?_
    rw [← same,← map_append]
    exact mem_map_of_mem inside
  refine ⟨before,p,after,split,mine,?_,?_⟩
  · have passed : ∀ q ∈ before, decide (op.clientOpId ≠ some q.clientOpId) = true := by
      intro q inside
      rw [mine]
      simpa using (others q (mem_append_left _ inside)).symm
    rw [overtaken,split,takeWhile_append_of_pos passed,takeWhile_cons_of_neg (by simp [mine]),append_nil]
  · have keep : ∀ q ∈ before ++ after, decide (q.clientOpId ≠ p.clientOpId) = true := by
      intro q inside
      simpa using others q inside
    rw [mine]
    show client.pendingOps.filter (fun q => q.clientOpId ≠ p.clientOpId) = before ++ after
    rw [split,filter_append,filter_cons_of_neg (by simp),← filter_append,filter_eq_self.mpr keep]

theorem foreign_pending (foreign : ¬Own client op) : overtaken client op = pendingEdits client ∧
    clearPending client op.clientOpId = client := by
  have others : ∀ p ∈ client.pendingOps, op.clientOpId ≠ some p.clientOpId := fun p member same => foreign ⟨p,member,same⟩
  refine ⟨?_,?_⟩
  · have all : ∀ p ∈ client.pendingOps, decide (op.clientOpId ≠ some p.clientOpId) = true := by
      intro p member
      simpa using others p member
    rw [overtaken,takeWhile_eq_self_iff.mpr all]
    rfl
  · cases given : op.clientOpId with
    | none => rfl
    | some clientOpId =>
      have keep : ∀ p ∈ client.pendingOps, decide (p.clientOpId ≠ clientOpId) = true := by
        intro p member
        have other := others p member
        rw [given] at other
        simpa using fun same : p.clientOpId = clientOpId => other (congrArg some same.symm)
      simp only [clearPending,filter_eq_self.mpr keep]

def past (client : CollabClient) (op : OpEnvelope) : CollabClient :=
  {clearPending client op.clientOpId with latestSeq := max client.latestSeq op.seq}

theorem clearPending_sublist (client : CollabClient) (clientOpId : Option String) :
    (clearPending client clientOpId).pendingOps.Sublist client.pendingOps := by
  cases clientOpId with
  | none => exact List.Sublist.refl _
  | some clientOpId => exact filter_sublist

theorem cleared (member : p ∈ (clearPending client op.clientOpId).pendingOps) : op.clientOpId ≠ some p.clientOpId := by
  intro same
  rw [same] at member
  have kept := (mem_filter.mp member).2
  simp at kept

theorem Fits.next {workbook : SpreadsheetWorkbook} (fits : Fits env moment base initial log replica)
    (found : log[replica.screen.client.latestSeq]? = some op) (seq : op.seq = replica.screen.client.latestSeq + 1)
    (shown : workbook = replay env moment
      (applyOp env moment (seen env moment base initial log replica.screen.client.latestSeq) (editOf op))
      (pendingEdits (past replica.screen.client op))) :
    Fits env moment base initial log
      {replica with screen := ⟨past replica.screen.client op,workbook⟩,received := replica.received ++ [op.seq]} := by
  have inside := (List.getElem?_eq_some_iff.mp found).1
  have latest : (past replica.screen.client op).latestSeq = replica.screen.client.latestSeq + 1 := by
    rw [← seq]
    exact Nat.max_eq_right (by omega)
  have rest : log.drop replica.screen.client.latestSeq = op :: log.drop (replica.screen.client.latestSeq + 1) := by
    rw [drop_eq_getElem_cons inside,(List.getElem?_eq_some_iff.mp found).2]
  have kept : (past replica.screen.client op).pendingOps.Sublist replica.screen.client.pendingOps :=
    clearPending_sublist _ _
  refine ⟨?_,?_,?_,(kept.map _).nodup fits.ids,?_,?_,fits.logged,?_⟩
  · rw [latest]
    exact Nat.le_succ_of_le fits.lower
  · rw [latest]
    exact inside
  · rw [latest,seen_next fits.lower found]
    exact shown
  · intro p member later behind same
    rw [latest] at behind
    exact fits.same p (kept.subset member) later (by rw [rest]; exact mem_cons_of_mem _ behind) same
  · intro p member number entry
    rw [latest]
    have ahead := fits.ahead p (kept.subset member) number entry
    obtain ⟨other,place,_,named⟩ := fits.logged _ entry
    rcases Nat.lt_or_ge (replica.screen.client.latestSeq + 1) number with later | here
    · exact later
    · -- the next op is not one of those that are still pending
      have position : number - 1 = replica.screen.client.latestSeq := by omega
      dsimp only at place named
      rw [position,found] at place
      cases place
      exact absurd named (cleared member)
  · intro number member
    rw [latest]
    rcases mem_append.mp member with old | new
    · exact Nat.le_succ_of_le (fits.received number old)
    · rw [mem_singleton.mp new,seq]

section
variable (fits : Fits env moment base initial log replica)
include fits

theorem Fits.again (old : op.seq ≤ replica.screen.client.latestSeq) :
    Fits env moment base initial log {replica with received := replica.received ++ [op.seq]} := by
  refine ⟨fits.lower,fits.upper,fits.shown,fits.ids,fits.same,fits.ahead,fits.logged,?_⟩
  intro number member
  rcases mem_append.mp member with before | new
  · exact fits.received number before
  · rw [mem_singleton.mp new]
    exact old

section
variable (found : log[replica.screen.client.latestSeq]? = some op) (turn : InTurn env moment base initial log replica.screen.client op)
include found turn

theorem Fits.next_own
    (own : Own replica.screen.client op) :
    Fits env moment base initial log {replica with
      screen := ⟨past replica.screen.client op,replica.screen.workbook⟩,received := replica.received ++ [op.seq]} := by
  refine fits.next found turn.next ?_
  obtain ⟨before,p,after,split,mine,late,rest⟩ := own_split own fits.ids
  have behind : op ∈ log.drop replica.screen.client.latestSeq := by
    have inside := (List.getElem?_eq_some_iff.mp found).1
    rw [drop_eq_getElem_cons inside,(List.getElem?_eq_some_iff.mp found).2]
    exact mem_cons_self
  have edit := fits.same p (by rw [split]; exact mem_append_right _ mem_cons_self) op behind mine
  have slides := turn.slides
  rw [late] at slides
  have remaining : pendingEdits (past replica.screen.client op) = before.map editOfPending ++ after.map editOfPending := by
    rw [← map_append,← rest]
    rfl
  have all : pendingEdits replica.screen.client = before.map editOfPending ++ editOf op :: after.map editOfPending := by
    rw [pendingEdits,split,map_append,map_cons,edit]
  rw [fits.shown,all,remaining]
  exact slides.pulled

theorem Fits.next_foreign
    (foreign : ¬Own replica.screen.client op)
    (steady : Steady env moment now replica.screen.workbook (editOf op)) :
    Fits env moment base initial log {replica with
      screen := ⟨past replica.screen.client op,applyOp env now replica.screen.workbook (editOf op)⟩
      received := replica.received ++ [op.seq]} := by
  refine fits.next found turn.next ?_
  obtain ⟨all,same⟩ := foreign_pending foreign
  have slides := turn.slides
  rw [all] at slides
  have remaining : pendingEdits (past replica.screen.client op) = pendingEdits replica.screen.client := by
    rw [past,same]
    rfl
  rw [steady,fits.shown,remaining]
  exact slides.first

end

theorem Fits.edited (edit : Edit)
    (unused : ∀ p ∈ replica.screen.client.pendingOps, p.clientOpId ≠ clientOpId)
    (unlogged : ∀ op ∈ log, op.clientOpId ≠ some clientOpId)
    (steady : Steady env moment now replica.screen.workbook edit) :
    Fits env moment base initial log {replica with screen :=
      ⟨(Collab.Client.submitOp replica.screen.client edit.opType edit.payload clientOpId).1,
        applyOp env now replica.screen.workbook edit⟩} := by
  have pending : (Collab.Client.submitOp replica.screen.client edit.opType edit.payload clientOpId).1.pendingOps =
      replica.screen.client.pendingOps ++ [⟨clientOpId,replica.screen.client.latestSeq,edit.opType,edit.payload,true⟩] := rfl
  have latest : (Collab.Client.submitOp replica.screen.client edit.opType edit.payload clientOpId).1.latestSeq =
    replica.screen.client.latestSeq := rfl
  refine ⟨fits.lower,fits.upper,?_,?_,?_,?_,fits.logged,fits.received⟩
  · have longer : pendingEdits (Collab.Client.submitOp replica.screen.client edit.opType edit.payload clientOpId).1 =
        pendingEdits replica.screen.client ++ [edit] := by
      rw [pendingEdits,pending,map_append]
      rfl
    rw [latest,longer,replay_append,← fits.shown]
    exact steady
  · rw [pending,map_append]
    refine nodup_append.mpr ⟨fits.ids,nodup_singleton _,?_⟩
    intro old member new last same
    obtain ⟨p,inside,rfl⟩ := mem_map.mp member
    rw [mem_singleton.mp last] at same
    exact unused p inside same
  · intro p member op behind same
    rw [pending] at member
    rcases mem_append.mp member with old | new
    · exact fits.same p old op behind same
    · rw [mem_singleton.mp new] at same
      exact absurd same (unlogged op (mem_of_mem_drop behind))
  · intro p member seq entry
    rw [pending] at member
    rcases mem_append.mp member with old | new
    · exact fits.ahead p old seq entry
    · rw [mem_singleton.mp new] at entry
      obtain ⟨op,place,_,named⟩ := fits.logged _ entry
      exact absurd named (unlogged op (mem_of_getElem? place))

end

end Fits

theorem past_past (client : CollabClient) (op : OpEnvelope) : past (past client op) op = past client op := by
  unfold past Collab.Client.clearPending
  cases op.clientOpId with
  | none => simp
  | some clientOpId => simp [filter_filter]

theorem answered_past (env : Env) (now : Nat) (screen : Screen) {op : OpEnvelope} (kind : op.opType ≠ .replace)
    (transport : Transport) : answered env now screen op transport = ⟨past screen.client op,screen.workbook⟩ := by
  cases transport with
  | http =>
    have forced : ¬(op.seq ≤ screen.client.latestSeq ∧ true = false) := fun both => by cases both.2
    rw [answered,ingest_sheet env now kind forced,Bool.or_true,if_pos rfl]
    rfl
  | ws =>
    have first : Collab.Client.clearPending {screen.client with latestSeq := max screen.client.latestSeq op.seq}
        op.clientOpId = past screen.client op := by
      unfold past Collab.Client.clearPending
      cases op.clientOpId <;> rfl
    have heard : ∀ wasMine, Collab.Client.ingestOp (past screen.client op) op wasMine =
        (past screen.client op,if wasMine then some ⟨op,true⟩ else none) := by
      intro wasMine
      cases wasMine with
      | true =>
        have forced : ¬(op.seq ≤ (past screen.client op).latestSeq ∧ true = false) := fun both => by cases both.2
        rw [ingestOp_sheet kind forced,Bool.or_true]
        exact Prod.ext (past_past screen.client op) rfl
      | false =>
        have old : op.seq ≤ (past screen.client op).latestSeq ∧ false = false := ⟨Nat.le_max_right _ _,rfl⟩
        unfold Collab.Client.ingestOp
        rw [if_pos old]
        rfl
    unfold answered Collab.Client.handleServerMessage
    dsimp only
    rw [first,heard]
    split
    · split
      · simp [onOp_echo]
      · rfl
    · rfl

theorem own_local (own : Own client op) : isLocal client op = true := by
  obtain ⟨p,member,mine⟩ := own
  unfold Collab.Client.isLocal Collab.Client.isPending
  rw [mine,Bool.or_eq_true]
  right
  exact any_eq_true.mpr ⟨p,member,decide_eq_true rfl⟩

theorem known_sheet (known : Collab.Spreadsheet.knownOp kind = true) : kind ≠ .replace := by
  intro same
  rw [same] at known
  cases known

theorem reached_sheets (reached : Reached start sessionId .spreadsheet fileId seed t) :
    ∀ op ∈ t.log, op.opType ≠ .replace := by
  obtain ⟨commits,ran⟩ := reached
  have run := Schedule.run_preserves (motive := fun t : Timeline => t.session.roomKind = .spreadsheet ∧
    ∀ op ∈ t.log, op.opType ≠ .replace) ?_ ⟨rfl,fun _ member => absurd member not_mem_nil⟩ ran
  · exact run.2
  · intro t c t' held fired
    refine ⟨(step_frame fired).2.1.trans held.1,?_⟩
    rcases step_records held.1 fired with ⟨log,_⟩ | ⟨op,recorded⟩
    · rw [log]
      exact held.2
    · intro later member
      rw [recorded.log] at member
      rcases mem_append.mp member with old | new
      · exact held.2 later old
      · rw [mem_singleton.mp new]
        exact known_sheet recorded.known

def Apart (room : Room) (side : Side) : Prop := ∀ p ∈ (room.peer side).screen.client.pendingOps,
  ∀ q ∈ (room.peer side.other).screen.client.pendingOps, p.clientOpId ≠ q.clientOpId

theorem apart_sides (side : Side) (apart : Apart room side) (side' : Side) : Apart room side' := by
  rcases eq_or_other side side' with rfl | rfl
  · exact apart
  · intro p member q there
    rw [other_other] at there
    exact (apart q there p member).symm

structure Holds (env : Env) (moment base : Nat) (initial : SpreadsheetWorkbook) (room : Room) : Prop where
  logged : Logged room.server.session room.server.log
  spreadsheet : room.server.session.roomKind = .spreadsheet
  sheets : ∀ op ∈ room.server.log, op.opType ≠ .replace
  fits : ∀ side, Fits env moment base initial room.server.log (room.peer side)
  apart : ∀ side, Apart room side

theorem opened_holds (env : Env) (moment : Nat) (opened : Opened initial room) :
    Holds env moment room.server.log.length initial room := by
  obtain ⟨⟨start,sessionId,fileId,seed,reached⟩,fresh⟩ := opened
  have logged := reached_logged reached
  refine ⟨logged,(reached_frame reached).2.1,reached_sheets reached,?_,?_⟩
  · intro side
    obtain ⟨userId,localUserId,same⟩ := fresh side
    rw [same,logged.latestSeq]
    refine ⟨Nat.le_refl _,Nat.le_refl _,?_,nodup_nil,fun _ member => (nomatch member),fun _ member => (nomatch member),
      fun _ member => (nomatch member),fun _ member => (nomatch member)⟩
    dsimp only
    rw [seen,drop_eq_nil_of_le (by rw [length_take]; omega)]
    rfl
  · intro side p member
    obtain ⟨userId,localUserId,same⟩ := fresh side
    rw [same] at member
    cases member

section Steps
variable {env : Env} {moment base : Nat} {initial : SpreadsheetWorkbook} {room room' : Room} {side : Side} {replica : Replica}

section
variable (holds : Holds env moment base initial room)
include holds

theorem Holds.put (fits : Fits env moment base initial room.server.log replica)
    (fewer : ∀ p ∈ replica.screen.client.pendingOps, p ∈ (room.peer side).screen.client.pendingOps) :
    Holds env moment base initial (room.put side replica) := by
  refine ⟨by rw [server_put]; exact holds.logged,by rw [server_put]; exact holds.spreadsheet,
    by rw [server_put]; exact holds.sheets,?_,?_⟩
  · intro side'
    rw [server_put]
    rcases eq_or_other side side' with rfl | rfl
    · rw [peer_put]
      exact fits
    · rw [peer_put_ne room replica (other_ne side)]
      exact holds.fits side.other
  · refine apart_sides side ?_
    intro p member q there
    rw [peer_put] at member
    rw [peer_put_ne room replica (other_ne side)] at there
    exact holds.apart side p (fewer p member) q there

theorem step_edit (steady : Steady env moment now (room.peer side).screen.workbook edit)
    (fired : step env room (.edit side now edit clientOpId) = some room') : Holds env moment base initial room' := by
  dsimp only [step] at fired
  split at fired
  · rename_i unused
    cases fired
    unfold fresh at unused
    simp only [Bool.and_eq_true,Bool.not_eq_true',isPending,any_eq_false,all_eq_true,decide_eq_true_eq] at unused
    obtain ⟨⟨left,right⟩,unlogged⟩ := unused
    have free : ∀ side', ∀ p ∈ (room.peer side').screen.client.pendingOps, p.clientOpId ≠ clientOpId := by
      intro side'
      cases side' with
      | left => exact left
      | right => exact right
    refine ⟨by rw [server_put]; exact holds.logged,by rw [server_put]; exact holds.spreadsheet,
      by rw [server_put]; exact holds.sheets,?_,?_⟩
    · intro side'
      rw [server_put]
      rcases eq_or_other side side' with rfl | rfl
      · rw [peer_put]
        exact (holds.fits side').edited edit (free side') unlogged steady
      · rw [peer_put_ne room _ (other_ne side)]
        exact holds.fits side.other
    · refine apart_sides side ?_
      intro p member q there
      rw [peer_put] at member
      rw [peer_put_ne room _ (other_ne side)] at there
      rcases mem_append.mp member with old | new
      · exact holds.apart side p old q there
      · rw [mem_singleton.mp new]
        exact (free side.other q there).symm
  · cases fired

theorem step_commit (fired : step env room (.commit side clientOpId prunedAt now opId savedAt) = some room') :
    Holds env moment base initial room' := by
  dsimp only [step] at fired
  split at fired
  · cases fired
  · rename_i p found
    split at fired
    · cases fired
    obtain ⟨server,saved,rfl⟩ := Option.map_eq_some_iff.mp fired
    have member := mem_of_find?_eq_some found
    have named : p.clientOpId = clientOpId := by simpa using find?_some found
    subst named
    obtain ⟨op,recorded,edit,given⟩ := submit_records holds.spreadsheet saved rfl
    have logged := step_logged holds.logged saved
    have seq : op.seq = room.server.log.length + 1 := recorded.seq.trans holds.logged.next
    have latest : server.session.latestSeq = room.server.log.length + 1 := by
      rw [logged.latestSeq,recorded.log]
      exact length_append
    refine ⟨by rw [server_put]; exact logged,?_,?_,?_,?_⟩
    · rw [server_put]
      exact (step_frame saved).2.1.trans holds.spreadsheet
    · intro later member
      rw [server_put,recorded.log] at member
      rcases mem_append.mp member with old | new
      · exact holds.sheets later old
      · rw [mem_singleton.mp new]
        exact known_sheet recorded.known
    · intro side'
      rw [server_put,recorded.log,latest]
      rcases eq_or_other side side' with rfl | rfl
      · rw [peer_put]
        exact (holds.fits side').committed member edit given seq
      · rw [peer_put_ne _ _ (other_ne side),peer_server]
        refine (holds.fits side.other).append ?_
        intro q there same
        rw [given] at same
        exact absurd (Option.some.inj same) (holds.apart side p member q there)
    · refine apart_sides side ?_
      intro q there q' beyond
      rw [peer_put] at there
      rw [peer_put_ne _ _ (other_ne side),peer_server] at beyond
      exact holds.apart side q there q' beyond

theorem step_visit (fired : step env room (.visit c) = some room') :
    Holds env moment base initial room' := by
  dsimp only [step] at fired
  have other : ∃ server, Timeline.step room.server c = some server ∧ {room with server := server} = room' ∧
      ∀ op, ¬Recorded room.server c op server := by
    split at fired
    · cases fired
    · rename_i call
      obtain ⟨server,saved,same⟩ := Option.map_eq_some_iff.mp fired
      exact ⟨server,saved,same,fun op recorded => by obtain ⟨sessionId,baseSeq,submits⟩ := recorded.call; rw [call] at submits; cases submits⟩
    · rename_i call
      obtain ⟨server,saved,same⟩ := Option.map_eq_some_iff.mp fired
      exact ⟨server,saved,same,fun op recorded => by obtain ⟨sessionId,baseSeq,submits⟩ := recorded.call; rw [call] at submits; cases submits⟩
  obtain ⟨server,saved,rfl,silent⟩ := other
  rcases step_records holds.spreadsheet saved with ⟨log,_⟩ | ⟨op,recorded⟩
  · refine ⟨step_logged holds.logged saved,(step_frame saved).2.1.trans holds.spreadsheet,?_,?_,holds.apart⟩
    · rw [log]
      exact holds.sheets
    · intro side
      rw [log]
      exact holds.fits side
  · exact absurd recorded (silent op)

end

theorem place_of_next {log : List OpEnvelope} {position latestSeq : Nat} (logged : Logged session log) (found : log[position]? = some op) (next : op.seq = latestSeq + 1) :
    log[latestSeq]? = some op := by
  have seq := (logged.seq_at found).1
  have here : position = latestSeq := by omega
  rw [← here]
  exact found

theorem step_broadcast (holds : Holds env moment base initial room)
    (orderly : Orderly env moment base initial room (.broadcast side position now))
    (fired : step env room (.broadcast side position now) = some room') : Holds env moment base initial room' := by
  dsimp only [step] at fired
  cases found : room.server.log[position]? with
  | none =>
    rw [found] at fired
    cases fired
  | some op =>
    rw [found] at fired
    cases fired
    have fits := holds.fits side
    have kind := holds.sheets op (mem_of_getElem? found)
    rcases orderly op found with old | ⟨turn,told,steady⟩
    · rw [ingest_old env now old]
      exact holds.put (fits.again old) (fun _ member => member)
    · have newer : ¬(op.seq ≤ (room.peer side).screen.client.latestSeq ∧ false = false) := by
        have next := turn.next
        omega
      have place := place_of_next holds.logged found turn.next
      have fewer : ∀ p ∈ (past (room.peer side).screen.client op).pendingOps,
        p ∈ (room.peer side).screen.client.pendingOps := (clearPending_sublist _ _).subset
      rw [ingest_sheet env now kind newer,Bool.or_false]
      cases mine : isLocal (room.peer side).screen.client op with
      | true => exact holds.put (fits.next_own place turn (told mine)) fewer
      | false =>
        have foreign : ¬Own (room.peer side).screen.client op := by
          intro own
          rw [own_local own] at mine
          cases mine
        exact holds.put (fits.next_foreign place turn foreign (steady mine)) fewer

theorem step_answer (holds : Holds env moment base initial room)
    (orderly : Orderly env moment base initial room (.answer side position now transport))
    (fired : step env room (.answer side position now transport) = some room') : Holds env moment base initial room' := by
  dsimp only [step] at fired
  cases found : room.server.log[position]? with
  | none =>
    rw [found] at fired
    cases fired
  | some op =>
    rw [found] at fired
    dsimp only at fired
    split at fired
    · rename_i mine
      cases fired
      have fits := holds.fits side
      rw [answered_past env now (room.peer side).screen (holds.sheets op (mem_of_getElem? found))]
      have fewer : ∀ p ∈ (past (room.peer side).screen.client op).pendingOps,
        p ∈ (room.peer side).screen.client.pendingOps := (clearPending_sublist _ _).subset
      refine holds.put ?_ fewer
      rcases orderly op found with old | ⟨turn,own⟩
      · -- the op has let go of its pending entry before
        obtain ⟨clientOpId,given,entry⟩ := (Option.any_eq_true _ _).mp mine
        have foreign : ¬Own (room.peer side).screen.client op := by
          rintro ⟨p,member,same⟩
          rw [given] at same
          cases same
          exact Nat.not_lt.mpr old (fits.ahead p member op.seq (of_decide_eq_true entry))
        have still : past (room.peer side).screen.client op = (room.peer side).screen.client := by
          rw [past,(foreign_pending foreign).2,Nat.max_eq_left old]
        rw [still]
        exact fits.again old
      · exact fits.next_own (place_of_next holds.logged found turn.next) turn own
    · cases fired

theorem step_holds (room : Room) (event : Event) (room' : Room) (holds : Holds env moment base initial room)
    (orderly : Orderly env moment base initial room event) (fired : step env room event = some room') :
    Holds env moment base initial room' := by
  cases event with
  | edit side now edit clientOpId => exact step_edit holds orderly fired
  | commit side clientOpId prunedAt now opId savedAt => exact step_commit holds fired
  | refuse side clientOpId => exact orderly.elim
  | visit c => exact step_visit holds fired
  | broadcast side position now => exact step_broadcast holds orderly fired
  | answer side position now transport => exact step_answer holds orderly fired

theorem Holds.settled (holds : Holds env moment base initial room) (settled : Settled base room) (side : Side) :
    (room.peer side).screen.workbook = replay env moment initial ((room.server.log.drop base).map editOf) := by
  obtain ⟨sent,arrived⟩ := settled side
  have fits := holds.fits side
  have whole : room.server.log.length ≤ (room.peer side).screen.client.latestSeq := by
    have lower := fits.lower
    rcases Nat.lt_or_ge base room.server.log.length with longer | same
    · obtain ⟨op,found⟩ : ∃ op, room.server.log[room.server.log.length - 1]? = some op :=
        ⟨_,getElem?_eq_getElem (by omega)⟩
      have seq := (holds.logged.seq_at found).1
      have member := fits.received op.seq (arrived op (mem_drop holds.logged (mem_of_getElem? found) (by omega)))
      omega
    · omega
  have none : (room.peer side).screen.client.pendingOps = [] := by
    refine eq_nil_iff_forall_not_mem.mpr ?_
    intro p member
    obtain ⟨entry,inside,same⟩ := mem_map.mp (sent p member)
    obtain ⟨op,found,seq,_⟩ := fits.logged entry inside
    have ahead := fits.ahead p member entry.2 (by rw [← same]; exact inside)
    have placed := holds.logged.seq_at found
    omega
  rw [fits.shown,pendingEdits,none,seen,take_of_length_le whole]
  rfl

-- In a run where everything that arrives is in turn, the two editors end up with what
-- the log makes of the workbook they started from.
theorem replicas_converge (opened : Opened initial room)
    (along : Schedule.Along (step env) (Orderly env moment room.server.log.length initial) room events)
    (ran : Schedule.run (step env) room events = some room') (settled : Settled room.server.log.length room') :
    room'.left.screen.workbook = room'.right.screen.workbook ∧ room'.right.screen.workbook =
      replay env moment initial ((room'.server.log.drop room.server.log.length).map editOf) := by
  have holds := Schedule.run_along step_holds (opened_holds env moment opened) along ran
  have left := holds.settled settled .left
  have right := holds.settled settled .right
  exact ⟨left.trans right.symm,right⟩

end Steps

def entering : List Commit := ["ann","bob"].map (fun userId => ⟨[],0,"",.join .spreadsheet "f" userId userId none,0⟩)

def attending : Timeline := (Schedule.run Timeline.step (Timeline.created 0 "s" .spreadsheet "f" none) entering).getD
  (Timeline.created 0 "s" .spreadsheet "f" none)

def twoTabs : SpreadsheetWorkbook := readWorkbook (.object [("sheets",.array
  [.object [("name",.string (textOf "A"))],.object [("name",.string (textOf "B"))]])])

def arriving (userId : String) : Replica := ⟨userId,⟨⟨some userId,0,[]⟩,twoTabs⟩,[],[]⟩

def opening : Room := ⟨attending,arriving "ann",arriving "bob"⟩

def concurrently (first second : Edit) : List Event :=
  [.edit .left 0 first "x",.edit .right 0 second "y",.commit .left "x" [] 0 "1" 0,.commit .right "y" [] 0 "2" 0,
    .broadcast .left 0 0,.broadcast .right 0 0,.broadcast .left 1 0,.broadcast .right 1 0]

theorem opening_opened : Opened twoTabs opening := by
  obtain ⟨t,ran⟩ := Option.isSome_iff_exists.mp (by decide : (Schedule.run Timeline.step
    (Timeline.created 0 "s" .spreadsheet "f" none) entering).isSome = true)
  have same : attending = t := by
    rw [attending,ran]
    rfl
  have latest : attending.session.latestSeq = 0 := by decide
  refine ⟨⟨0,"s","f",none,entering,ran.trans (congrArg some same.symm)⟩,?_⟩
  intro side
  rw [opening,latest]
  cases side with
  | left => exact ⟨"ann",some "ann",rfl⟩
  | right => exact ⟨"bob",some "bob",rfl⟩

structure Outcome where
  names : List Text × List Text
  pending : List String × List String
  seqs : List Nat
  received : List Nat × List Nat
  deriving DecidableEq

def outcome (room : Room) : Outcome :=
  ⟨(room.left.screen.workbook.sheets.map SheetData.name,room.right.screen.workbook.sheets.map SheetData.name),
    (room.left.screen.client.pendingOps.map PendingOp.clientOpId,room.right.screen.client.pendingOps.map PendingOp.clientOpId),
    room.server.log.map OpEnvelope.seq,(room.left.received,room.right.received)⟩

theorem settled_of (same : outcome room = ⟨names,([],[]),seqs,(seqs,seqs)⟩) : Settled 0 room := by
  have pending := congrArg Outcome.pending same
  have received := congrArg Outcome.received same
  have listed : room.server.log.map OpEnvelope.seq = seqs := congrArg Outcome.seqs same
  obtain ⟨left,right⟩ := Prod.mk.inj pending
  obtain ⟨first,second⟩ := Prod.mk.inj received
  have arrived : ∀ op ∈ room.server.log.drop 0, op.seq ∈ seqs := by
    intro op member
    rw [← listed]
    exact mem_map_of_mem member
  have idle : ∀ side, (room.peer side).screen.client.pendingOps = [] ∧ (room.peer side).received = seqs := by
    intro side
    cases side with
    | left => exact ⟨map_eq_nil_iff.mp left,first⟩
    | right => exact ⟨map_eq_nil_iff.mp right,second⟩
  intro side
  obtain ⟨none,all⟩ := idle side
  rw [none,all]
  exact ⟨fun _ member => (nomatch member),arrived⟩

theorem replicas_converge_renames : ∃ room', Opened twoTabs opening ∧
    Schedule.run (step plainEnv) opening (concurrently (renameOf 0 "C") (renameOf 1 "D")) = some room' ∧
    Settled 0 room' ∧ room'.left.screen.workbook = room'.right.screen.workbook ∧ room'.right.screen.workbook =
      replay plainEnv 0 twoTabs ((room'.server.log.drop 0).map editOf) := by
  have tidy : Schedule.Along (step plainEnv) (Tidy plainEnv) opening
    (concurrently (renameOf 0 "C") (renameOf 1 "D")) := by decide +kernel
  have ended : (Schedule.run (step plainEnv) opening (concurrently (renameOf 0 "C") (renameOf 1 "D"))).map outcome =
    some ⟨(["C","D"].map textOf,["C","D"].map textOf),([],[]),[1,2],([1,2],[1,2])⟩ := by decide +kernel
  obtain ⟨room',ran,same⟩ := Option.map_eq_some_iff.mp ended
  have settled := settled_of same
  refine ⟨room',opening_opened,ran,settled,?_⟩
  exact replicas_converge opening_opened (tidy.imp (fun _ _ tidy => tidy.orderly 0 0 twoTabs)) ran settled

theorem renames_crossed : ∃ room', Opened twoTabs opening ∧
    Schedule.run (step plainEnv) opening (concurrently (renameOf 0 "C") (renameOf 0 "D")) = some room' ∧
    Settled 0 room' ∧ room'.left.screen.workbook ≠ room'.right.screen.workbook := by
  have ended : (Schedule.run (step plainEnv) opening (concurrently (renameOf 0 "C") (renameOf 0 "D"))).map outcome =
    some ⟨(["D","B"].map textOf,["C","B"].map textOf),([],[]),[1,2],([1,2],[1,2])⟩ := by decide +kernel
  obtain ⟨room',ran,same⟩ := Option.map_eq_some_iff.mp ended
  refine ⟨room',opening_opened,ran,settled_of same,?_⟩
  intro equal
  have names : (room'.left.screen.workbook.sheets.map SheetData.name,room'.right.screen.workbook.sheets.map SheetData.name) =
    (["D","B"].map textOf,["C","B"].map textOf) := congrArg Outcome.names same
  obtain ⟨left,right⟩ := Prod.mk.inj names
  rw [equal,right] at left
  revert left
  decide

end Ownly.Sheets.Peers
