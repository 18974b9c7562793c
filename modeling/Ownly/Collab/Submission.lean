import Ownly.Collab.Client
import Ownly.Lib.Bag

-- One client's ops on their way to the log, over sockets that close and posts that fail.
namespace Ownly.Collab.Submission
open Client
open Option Function

-- A post the server has not read yet, has refused or has committed. The client may
-- have given it up meanwhile.
structure Post where
  body : ClientOp
  waiting : Bool
  outcome : Option (Option OpEnvelope)

structure Link where
  server : Timeline
  client : CollabClient
  socketOpen : Bool
  -- op messages a socket took, posts, and error frames on their way back
  uplink : List ClientOp
  posts : List Post
  frames : List (String × CollabError)
  submitted : List String
  reported : List String

def start (t : Timeline) (client : CollabClient) : Link := ⟨t,client,false,[],[],[],[],[]⟩

structure Stamp where
  prunedAt : List Nat
  now : Nat
  opId : String
  savedAt : Nat
  contended : Bool

inductive Event where
  | submit (opType : OpType) (payload : Value) (clientOpId : String) (sent : Bool)
  | opened (fails : List String)
  | closed
  | arrive (index : Nat) (stamp : Stamp)
  | uplinkLost (index : Nat)
  | frame (index : Nat)
  | frameLost (index : Nat)
  | postArrive (index : Nat) (stamp : Stamp)
  | postAnswer (index : Nat)
  | postFail (index : Nat)
  | postLost (index : Nat)
  -- an op of a broadcast, a sync reply or a poll, and the session of any message
  | deliver (position : Nat)
  | view (latestSeq : Nat)
  | other (c : Commit)

def logIds (t : Timeline) : List String := t.log.filterMap OpEnvelope.clientOpId

-- `submit_op` at the server, which reads the client's correlation id nowhere.
def serve (t : Timeline) (c : Commit) (contended : Bool) : Except CollabError (Option OpEnvelope × Timeline) :=
  if contended then .error (.conflict "submit_op CAS contention")
  else if c.call.Reaches t.session then
    match c.call.compute c.now c.opId (Timeline.read t.session c.prunedAt) with
    | .error e => .error e
    | .ok (added,next) => .ok (added,⟨Store.stamped c.savedAt next,t.log ++ added.toList⟩)
  else .error .notFound

def serveOp (sessionId userId : String) (t : Timeline) (body : ClientOp) (stamp : Stamp) :
    Except CollabError (Option OpEnvelope × Timeline) :=
  serve t ⟨stamp.prunedAt,stamp.now,stamp.opId,callOf sessionId userId body,stamp.savedAt⟩ stamp.contended

-- Only a locked range and a text mismatch go back with the id of the op.
def frameOf : String × CollabError → ServerMessage
  | (clientOpId,.locked) => .error (some clientOpId) (some "locked")
  | (clientOpId,.textMismatch) => .error (some clientOpId) (some "text_mismatch")
  | _ => .error none (some "client_message")

-- Ids are random: nobody else's op carries one of this client's.
def foreign (submitted : List String) : Call → Bool
  | .submitOp _ _ _ _ _ (some clientOpId) => !submitted.contains clientOpId
  | _ => true

def step (sessionId userId : String) (s : Link) : Event → Option Link
  | .submit opType payload clientOpId sent =>
    if clientOpId ∈ s.submitted ∨ clientOpId ∈ logIds s.server ∨ (sent = true ∧ s.socketOpen = false) then none
    else
      let (client,body) := submitOp s.client opType payload clientOpId
      let s := {s with client := client,submitted := clientOpId :: s.submitted}
      if sent then some {s with uplink := body :: s.uplink} else some {s with posts := ⟨body,true,none⟩ :: s.posts}
  | .opened fails =>
    if s.socketOpen then none
    else
      let (client,sent) := onopen s.client fails
      some {s with client := client,socketOpen := true,uplink := sent ++ s.uplink}
  | .closed => some {s with socketOpen := false}
  | .arrive index stamp =>
    match Bag.pick s.uplink index with
    | none => none
    | some (body,rest) =>
      match serveOp sessionId userId s.server body stamp with
      | .ok (_,server) => some {s with server := server,uplink := rest}
      | .error e => some {s with uplink := rest,frames := (body.clientOpId,e) :: s.frames}
  | .uplinkLost index =>
    match Bag.pick s.uplink index with
    | none => none
    | some (_,rest) => if s.socketOpen then none else some {s with uplink := rest}
  | .frame index =>
    match Bag.pick s.frames index with
    | none => none
    | some (frame,rest) =>
      if s.socketOpen then some {s with
        client := (handleServerMessage s.client (frameOf frame)).1
        frames := rest
        reported := frame.1 :: s.reported}
      else none
  | .frameLost index =>
    match Bag.pick s.frames index with
    | none => none
    | some (_,rest) => if s.socketOpen then none else some {s with frames := rest}
  | .postArrive index stamp =>
    match Bag.pick s.posts index with
    | none => none
    | some (post,rest) =>
      match post.outcome with
      | some _ => none
      | none =>
        match serveOp sessionId userId s.server post.body stamp with
        | .ok (added,server) => some {s with server := server,posts := {post with outcome := some added} :: rest}
        | .error _ => some {s with posts := {post with outcome := some none} :: rest}
  | .postAnswer index =>
    match Bag.pick s.posts index with
    | none => none
    | some (post,rest) =>
      match post.waiting,post.outcome with
      | true,some (some op) => some {s with client := (ingestOp s.client op true).1,posts := rest}
      | _,_ => none
  | .postFail index =>
    match Bag.pick s.posts index with
    | none => none
    | some (post,rest) =>
      if post.waiting then some {s with
        client := postFailed s.client post.body.clientOpId
        posts := {post with waiting := false} :: rest}
      else none
  | .postLost index =>
    match Bag.pick s.posts index with
    | none => none
    | some (post,rest) => if post.waiting then none else some {s with posts := rest}
  | .deliver position =>
    match s.server.log[position]? with
    | some op => some {s with client := (ingestOp s.client op false).1}
    | none => none
  | .view latestSeq =>
    if latestSeq ≤ s.server.session.latestSeq then some {s with client := applySession s.client latestSeq} else none
  | .other c => if foreign s.submitted c.call then (Timeline.step s.server c).map (fun server => {s with server := server}) else none

inductive Fires (sessionId userId : String) (s : Link) : Event → Link → Prop where
  | submitted (opType : OpType) (payload : Value) (sent : Bool) (fresh : clientOpId ∉ s.submitted)
    (unused : clientOpId ∉ logIds s.server) (uplink : List ClientOp) (posts : List Post)
    (way : (uplink = (submitOp s.client opType payload clientOpId).2 :: s.uplink ∧ posts = s.posts) ∨
      (uplink = s.uplink ∧ posts = ⟨(submitOp s.client opType payload clientOpId).2,true,none⟩ :: s.posts)) :
    Fires sessionId userId s (.submit opType payload clientOpId sent) {s with
      client := (submitOp s.client opType payload clientOpId).1
      submitted := clientOpId :: s.submitted
      uplink := uplink
      posts := posts}
  | opened (fails : List String) (shut : s.socketOpen = false) : Fires sessionId userId s (.opened fails) {s with
      client := (onopen s.client fails).1
      socketOpen := true
      uplink := (onopen s.client fails).2 ++ s.uplink}
  | closed : Fires sessionId userId s .closed {s with socketOpen := false}
  | arrived (picked : Bag.pick s.uplink index = some (body,rest))
    (served : serveOp sessionId userId s.server body stamp = .ok (added,server)) :
    Fires sessionId userId s (.arrive index stamp) {s with server := server,uplink := rest}
  | refused (e : CollabError) (picked : Bag.pick s.uplink index = some (body,rest)) :
    Fires sessionId userId s (.arrive index stamp) {s with uplink := rest,frames := (body.clientOpId,e) :: s.frames}
  | uplinkLost (picked : Bag.pick s.uplink index = some (body,rest)) :
    Fires sessionId userId s (.uplinkLost index) {s with uplink := rest}
  | frame (picked : Bag.pick s.frames index = some (frame,rest)) : Fires sessionId userId s (.frame index) {s with
      client := (handleServerMessage s.client (frameOf frame)).1
      frames := rest
      reported := frame.1 :: s.reported}
  | frameLost (picked : Bag.pick s.frames index = some (frame,rest)) :
    Fires sessionId userId s (.frameLost index) {s with frames := rest}
  | postArrived (post : Post) (picked : Bag.pick s.posts index = some (post,rest)) (unread : post.outcome = none)
    (served : serveOp sessionId userId s.server post.body stamp = .ok (added,server)) :
    Fires sessionId userId s (.postArrive index stamp) {s with
      server := server
      posts := {post with outcome := some added} :: rest}
  | postRefused (post : Post) (picked : Bag.pick s.posts index = some (post,rest)) (unread : post.outcome = none) :
    Fires sessionId userId s (.postArrive index stamp) {s with posts := {post with outcome := some none} :: rest}
  | postAnswered (post : Post) (picked : Bag.pick s.posts index = some (post,rest)) (outcome : post.outcome = some (some op)) :
    Fires sessionId userId s (.postAnswer index) {s with client := (ingestOp s.client op true).1,posts := rest}
  | postFailed (post : Post) (picked : Bag.pick s.posts index = some (post,rest)) :
    Fires sessionId userId s (.postFail index) {s with
      client := Client.postFailed s.client post.body.clientOpId
      posts := {post with waiting := false} :: rest}
  | postLost (post : Post) (picked : Bag.pick s.posts index = some (post,rest)) (given : post.waiting = false) :
    Fires sessionId userId s (.postLost index) {s with posts := rest}
  | delivered (found : s.server.log[position]? = some op) :
    Fires sessionId userId s (.deliver position) {s with client := (ingestOp s.client op false).1}
  | viewed (latestSeq : Nat) : Fires sessionId userId s (.view latestSeq) {s with client := applySession s.client latestSeq}
  | other (ran : Timeline.step s.server c = some server) (others : foreign s.submitted c.call = true) :
    Fires sessionId userId s (.other c) {s with server := server}

theorem step_fires (fired : step sessionId userId s event = some s') : Fires sessionId userId s event s' := by
  cases event with
  | submit opType payload clientOpId sent =>
    simp only [step] at fired
    split at fired
    · cases fired
    · rename_i free
      simp only [not_or] at free
      split at fired
      · cases fired
        exact .submitted opType payload sent free.1 free.2.1 _ _ (.inl ⟨rfl,rfl⟩)
      · cases fired
        exact .submitted opType payload sent free.1 free.2.1 _ _ (.inr ⟨rfl,rfl⟩)
  | opened fails =>
    simp only [step] at fired
    split at fired
    · cases fired
    · rename_i shut
      cases fired
      exact .opened fails (by simpa using shut)
  | closed =>
    cases fired
    exact .closed
  | arrive index stamp =>
    simp only [step] at fired
    split at fired
    · cases fired
    · rename_i body rest picked
      split at fired
      · rename_i served
        cases fired
        exact .arrived picked served
      · rename_i e _
        cases fired
        exact .refused e picked
  | uplinkLost index =>
    simp only [step] at fired
    split at fired
    · cases fired
    · rename_i rest picked
      split at fired
      · cases fired
      · cases fired
        exact .uplinkLost picked
  | frame index =>
    simp only [step] at fired
    split at fired
    · cases fired
    · rename_i frame rest picked
      split at fired
      · cases fired
        exact .frame picked
      · cases fired
  | frameLost index =>
    simp only [step] at fired
    split at fired
    · cases fired
    · rename_i rest picked
      split at fired
      · cases fired
      · cases fired
        exact .frameLost picked
  | postArrive index stamp =>
    simp only [step] at fired
    split at fired
    · cases fired
    · rename_i post rest picked
      split at fired
      · cases fired
      · rename_i unread
        split at fired
        · rename_i served
          cases fired
          exact .postArrived post picked unread served
        · cases fired
          exact .postRefused post picked unread
  | postAnswer index =>
    simp only [step] at fired
    split at fired
    · cases fired
    · rename_i post rest picked
      split at fired
      · rename_i op _ outcome
        cases fired
        exact .postAnswered post picked outcome
      · cases fired
  | postFail index =>
    simp only [step] at fired
    split at fired
    · cases fired
    · rename_i post rest picked
      split at fired
      · cases fired
        exact .postFailed post picked
      · cases fired
  | postLost index =>
    simp only [step] at fired
    split at fired
    · cases fired
    · rename_i post rest picked
      split at fired
      · cases fired
      · rename_i given
        cases fired
        exact .postLost post picked (by simpa using given)
  | deliver position =>
    simp only [step] at fired
    split at fired
    · rename_i op found
      cases fired
      exact .delivered found
    · cases fired
  | view latestSeq =>
    simp only [step] at fired
    split at fired
    · cases fired
      exact .viewed latestSeq
    · cases fired
  | other c =>
    simp only [step] at fired
    split at fired
    · rename_i others
      obtain ⟨server,ran,rfl⟩ := map_eq_some_iff.mp fired
      exact .other ran others
    · cases fired

def openPost (post : Post) : Option String := if post.outcome.isNone then some post.body.clientOpId else none

def flights (uplink : List ClientOp) (posts : List Post) (t : Timeline) : List String :=
  uplink.map ClientOp.clientOpId ++ posts.filterMap openPost ++ logIds t

def copies (s : Link) : List String := flights s.uplink s.posts s.server

-- `onopen` sends no op again of which there is a copy at the server or on its way there.
def SingleCopy (s : Link) : Event → Prop
  | .opened _ => ∀ pending ∈ s.client.pendingOps, pending.inFlight = false → pending.clientOpId ∉ copies s
  | _ => True

-- Nothing a socket took or carries back is lost with it, the sends of `onopen` do not
-- throw, and no post fails while the socket is open.
def Lossless (s : Link) : Event → Prop
  | .opened fails => ∀ pending ∈ s.client.pendingOps, pending.inFlight = false → pending.clientOpId ∉ fails
  | .uplinkLost _ => False
  | .frameLost _ => False
  | .postFail _ => s.socketOpen = false
  | _ => True

instance (s : Link) : (event : Event) → Decidable (SingleCopy s event)
  | .opened _ => inferInstanceAs (Decidable (∀ pending ∈ s.client.pendingOps, _))
  | .submit _ _ _ _ | .closed | .arrive _ _ | .uplinkLost _ | .frame _ | .frameLost _ | .postArrive _ _
  | .postAnswer _ | .postFail _ | .postLost _ | .deliver _ | .view _ | .other _ => .isTrue trivial

instance (s : Link) : (event : Event) → Decidable (Lossless s event)
  | .opened _ => inferInstanceAs (Decidable (∀ pending ∈ s.client.pendingOps, _))
  | .uplinkLost _ | .frameLost _ => .isFalse id
  | .postFail _ => inferInstanceAs (Decidable (s.socketOpen = false))
  | .submit _ _ _ _ | .closed | .arrive _ _ | .frame _ | .postArrive _ _
  | .postAnswer _ | .postLost _ | .deliver _ | .view _ | .other _ => .isTrue trivial

def Settled (s : Link) : Prop := s.socketOpen = true ∧ s.uplink = [] ∧ s.posts = [] ∧ s.frames = []

variable {s s' : Link} {t t' : Timeline} {body : ClientOp} {index : Nat} {post : Post}

def keys (client : CollabClient) : List (String × Bool) :=
  client.pendingOps.map (fun pending => (pending.clientOpId,pending.inFlight))

def retried (clientOpId : String) (key : String × Bool) : String × Bool := if key.1 = clientOpId then (key.1,false) else key

def resent (fails : List String) (key : String × Bool) : Option String :=
  if key.2 || fails.contains key.1 then none else some key.1

def reopened (fails : List String) (key : String × Bool) : String × Bool :=
  if key.2 then key else (key.1,!fails.contains key.1)

section
variable (client : CollabClient)
include client

theorem keys_submitOp (opType : OpType) (payload : Value) (clientOpId : String) :
    keys (submitOp client opType payload clientOpId).1 = keys client ++ [(clientOpId,true)] := by
  simp [keys,submitOp]

theorem keys_clearPending (clientOpId : String) :
    keys (clearPending client (some clientOpId)) = (keys client).filter (fun key => key.1 ≠ clientOpId) := by
  simp [keys,clearPending,List.filter_map,comp_def]

theorem keys_rebase (op : OpEnvelope) : keys (rebasePendingThroughRemote client op) = keys client := by
  have same : ∀ remote pending, (rebasePending remote op.seq pending).clientOpId = pending.clientOpId ∧
      (rebasePending remote op.seq pending).inFlight = pending.inFlight := by
    intro remote pending
    unfold rebasePending
    split
    · exact ⟨rfl,rfl⟩
    · split
      · exact ⟨rfl,rfl⟩
      · dsimp only
        split
        · exact ⟨rfl,rfl⟩
        · exact ⟨rfl,rfl⟩
  unfold rebasePendingThroughRemote
  split
  · rfl
  · split
    · rfl
    · rename_i remote _
      simp [keys,comp_def,(same remote _).1,(same remote _).2]

theorem keys_ingestOp (op : OpEnvelope) (fromAck : Bool) :
    keys (ingestOp client op fromAck).1 = keys client ∨ ∃ clientOpId, op.clientOpId = some clientOpId ∧
      keys (ingestOp client op fromAck).1 = (keys client).filter (fun key => key.1 ≠ clientOpId) := by
  have cleared : keys (clearPending client op.clientOpId) = keys client ∨ ∃ clientOpId, op.clientOpId = some clientOpId ∧
      keys (clearPending client op.clientOpId) = (keys client).filter (fun key => key.1 ≠ clientOpId) := by
    cases given : op.clientOpId with
    | none => exact .inl rfl
    | some clientOpId => exact .inr ⟨clientOpId,rfl,keys_clearPending client clientOpId⟩
  unfold ingestOp
  split
  · exact .inl rfl
  · dsimp only
    split
    · have rebased := keys_rebase (clearPending client op.clientOpId) op
      rw [← rebased] at cleared
      exact cleared
    · exact cleared

theorem keys_postFailed (clientOpId : String) :
    keys (postFailed client clientOpId) = (keys client).map (retried clientOpId) := by
  simp only [keys,postFailed,List.map_map]
  refine List.map_congr_left ?_
  intro pending _
  simp only [comp_apply,retried]
  split
  · rfl
  · rfl

theorem onopen_exact (fails : List String) :
    keys (onopen client fails).1 = (keys client).map (reopened fails) ∧
      (onopen client fails).2.map ClientOp.clientOpId = (keys client).filterMap (resent fails) := by
  have each : ∀ pendingOps : List PendingOp,
      (resubmit client.latestSeq fails pendingOps).1.map (fun p => (p.clientOpId,p.inFlight)) =
        (pendingOps.map (fun p => (p.clientOpId,p.inFlight))).map (reopened fails) ∧
      (resubmit client.latestSeq fails pendingOps).2.map ClientOp.clientOpId =
        (pendingOps.map (fun p => (p.clientOpId,p.inFlight))).filterMap (resent fails) := by
    intro pendingOps
    induction pendingOps with
    | nil => exact ⟨rfl,rfl⟩
    | cons pending rest ih =>
      obtain ⟨clientOpId,baseSeq,opType,payload,inFlight⟩ := pending
      cases inFlight with
      | true => simpa [resubmit,reopened,resent] using ih
      | false =>
        by_cases failed : clientOpId ∈ fails
        · simpa [resubmit,reopened,resent,failed] using ih
        · simpa [resubmit,reopened,resent,failed,bodyOf] using ih
  exact each client.pendingOps

end

theorem serveOp_commits (served : serveOp sessionId userId t body stamp = .ok (added,t')) :
    (∃ op, added = some op ∧ op.clientOpId = some body.clientOpId) ∧ logIds t' = logIds t ++ [body.clientOpId] := by
  unfold serveOp serve at served
  split at served
  · cases served
  · split at served
    · split at served
      · cases served
      · rename_i _ _ added next ran
        cases served
        simp only [callOf,Call.compute] at ran
        split at ran
        · cases ran
        · rename_i op after done
          cases ran
          obtain ⟨payload',rfl⟩ := (Engine.submitOp_exact.mp done).envelope
          exact ⟨⟨_,rfl,rfl⟩,by simp [logIds]⟩
    · cases served

theorem step_foreign (fired : Timeline.step t c = some t') (others : foreign submitted c.call = true) :
    ∃ ids, logIds t' = logIds t ++ ids ∧ ∀ clientOpId ∈ ids, clientOpId ∉ submitted := by
  obtain ⟨_,added,next,ran,rfl⟩ := Timeline.step_exact fired
  refine ⟨added.toList.filterMap OpEnvelope.clientOpId,List.filterMap_append,?_⟩
  intro clientOpId member
  obtain ⟨op,inside,mine⟩ := List.mem_filterMap.mp member
  rw [mem_toList] at inside
  cases call : c.call with
  | join kind fileId userId displayName seed =>
    rw [call] at ran
    cases Call.compute_silent_join ran
    cases inside
  | heartbeat sessionId userId presence =>
    rw [call] at ran
    simp only [Call.compute] at ran
    split at ran
    · cases ran
    · cases ran
      cases inside
  | submitOp sessionId userId baseSeq opType payload given =>
    rw [call] at ran others
    simp only [Call.compute] at ran
    split at ran
    · cases ran
    · rename_i done
      cases ran
      obtain ⟨payload',rfl⟩ := (Engine.submitOp_exact.mp done).envelope
      cases Option.some.inj inside
      cases mine
      simpa [foreign] using others

theorem flights_uplink (picked : Bag.pick uplink index = some (body,rest)) (posts : List Post) (t : Timeline) :
    (flights uplink posts t).Perm (body.clientOpId :: flights rest posts t) :=
  (((Bag.pick_perm picked).map ClientOp.clientOpId).append_right _).append_right _

theorem flights_cons_post (uplink : List ClientOp) (post : Post) (posts : List Post) (t : Timeline) :
    (flights uplink (post :: posts) t).Perm ((openPost post).toList ++ flights uplink posts t) := by
  have split : (post :: posts).filterMap openPost = (openPost post).toList ++ posts.filterMap openPost := by
    cases image : openPost post with
    | none => rw [List.filterMap_cons_none image]; rfl
    | some clientOpId => rw [List.filterMap_cons_some image]; rfl
  unfold flights
  rw [split,← List.append_assoc,List.append_assoc _ _ (logIds t)]
  refine (List.perm_append_comm.append_right _).trans ?_
  rw [List.append_assoc,List.append_assoc]

theorem flights_post (picked : Bag.pick posts index = some (post,rest)) (uplink : List ClientOp) (t : Timeline) :
    (flights uplink posts t).Perm ((openPost post).toList ++ flights uplink rest t) :=
  (((Bag.pick_perm picked).filterMap openPost).append_left _ |>.append_right _).trans (flights_cons_post uplink post rest t)

theorem flights_log (grown : logIds t' = logIds t ++ ids) (uplink : List ClientOp) (posts : List Post) :
    (flights uplink posts t').Perm (ids ++ flights uplink posts t) := by
  unfold flights
  rw [grown,← List.append_assoc]
  exact List.perm_append_comm

-- Every id was submitted once, and at most one copy of it is at the server or on its way.
structure Counted (s : Link) : Prop where
  transit : (∀ body ∈ s.uplink, body.clientOpId ∈ s.submitted) ∧ ∀ post ∈ s.posts, post.body.clientOpId ∈ s.submitted
  known : ∀ key ∈ keys s.client, key.1 ∈ s.submitted
  distinct : ((keys s.client).map Prod.fst).Nodup
  once : ∀ clientOpId ∈ s.submitted, (copies s).count clientOpId ≤ 1

theorem Counted.keep (held : Counted s) (submitted : s'.submitted = s.submitted)
    (uplink : ∀ body ∈ s'.uplink, body ∈ s.uplink)
    (posts : ∀ post ∈ s'.posts, ∃ before ∈ s.posts, post.body = before.body)
    (pending : ((keys s'.client).map Prod.fst).Sublist ((keys s.client).map Prod.fst))
    (fewer : ∀ clientOpId ∈ s.submitted, (copies s').count clientOpId ≤ (copies s).count clientOpId) : Counted s' := by
  refine ⟨⟨?_,?_⟩,?_,held.distinct.sublist pending,?_⟩
  · intro body member
    rw [submitted]
    exact held.transit.1 body (uplink body member)
  · intro post member
    obtain ⟨before,inside,same⟩ := posts post member
    rw [submitted,same]
    exact held.transit.2 before inside
  · intro key member
    rw [submitted]
    obtain ⟨before,inside,same⟩ := List.mem_map.mp (pending.subset (List.mem_map_of_mem member))
    rw [← same]
    exact held.known before inside
  · intro clientOpId member
    rw [submitted] at member
    exact Nat.le_trans (fewer clientOpId member) (held.once clientOpId member)

section
variable (client : CollabClient)
include client

theorem ids_filter (clientOpId : String) :
    (((keys client).filter (fun key => key.1 ≠ clientOpId)).map Prod.fst).Sublist ((keys client).map Prod.fst) :=
  List.filter_sublist.map _

theorem ids_ingestOp (op : OpEnvelope) (fromAck : Bool) :
    ((keys (ingestOp client op fromAck).1).map Prod.fst).Sublist ((keys client).map Prod.fst) := by
  rcases keys_ingestOp client op fromAck with same | ⟨clientOpId,_,cleared⟩
  · rw [same]
  · rw [cleared]
    exact ids_filter client clientOpId

theorem ids_postFailed (clientOpId : String) :
    (keys (postFailed client clientOpId)).map Prod.fst = (keys client).map Prod.fst := by
  rw [keys_postFailed,List.map_map]
  refine List.map_congr_left ?_
  intro key _
  simp only [comp_apply,retried]
  split
  · rfl
  · rfl

theorem ids_onopen (fails : List String) :
    (keys (onopen client fails).1).map Prod.fst = (keys client).map Prod.fst := by
  rw [(onopen_exact client fails).1,List.map_map]
  refine List.map_congr_left ?_
  intro key _
  simp only [comp_apply,reopened]
  split
  · rfl
  · rfl

theorem frame_keys (frame : String × CollabError) :
    keys (handleServerMessage client (frameOf frame)).1 = keys client ∨
      keys (handleServerMessage client (frameOf frame)).1 = (keys client).filter (fun key => key.1 ≠ frame.1) := by
  obtain ⟨clientOpId,e⟩ := frame
  cases e with
  | locked => exact .inr (keys_clearPending client clientOpId)
  | textMismatch => exact .inr (keys_clearPending client clientOpId)
  | notFound => exact .inl rfl
  | notParticipant => exact .inl rfl
  | invalidOp message => exact .inl rfl
  | syncRequired => exact .inl rfl
  | conflict message => exact .inl rfl
  | storage message => exact .inl rfl

end

theorem submit_counted (held : Counted s) (opType : OpType) (payload : Value) (fresh : clientOpId ∉ s.submitted)
    (unused : clientOpId ∉ logIds s.server) (uplink : List ClientOp) (posts : List Post)
    (sent : (uplink = (submitOp s.client opType payload clientOpId).2 :: s.uplink ∧ posts = s.posts) ∨
      (uplink = s.uplink ∧ posts = ⟨(submitOp s.client opType payload clientOpId).2,true,none⟩ :: s.posts)) :
    Counted {s with
      client := (submitOp s.client opType payload clientOpId).1
      submitted := clientOpId :: s.submitted
      uplink := uplink
      posts := posts} := by
  have longer := keys_submitOp s.client opType payload clientOpId
  have copy : (flights uplink posts s.server).Perm (clientOpId :: copies s) := by
    rcases sent with ⟨rfl,rfl⟩ | ⟨rfl,rfl⟩
    · exact List.Perm.refl _
    · exact flights_cons_post s.uplink ⟨(submitOp s.client opType payload clientOpId).2,true,none⟩ s.posts s.server
  have none : clientOpId ∉ copies s := by
    unfold copies flights
    simp only [List.mem_append,List.mem_map,List.mem_filterMap,not_or]
    refine ⟨⟨?_,?_⟩,unused⟩
    · rintro ⟨body,member,rfl⟩
      exact fresh (held.transit.1 body member)
    · rintro ⟨post,member,found⟩
      unfold openPost at found
      split at found
      · cases found
        exact fresh (held.transit.2 post member)
      · cases found
  refine ⟨⟨?_,?_⟩,?_,?_,?_⟩
  · intro body member
    rcases sent with ⟨rfl,rfl⟩ | ⟨rfl,rfl⟩
    · rcases List.mem_cons.mp member with rfl | old
      · exact List.mem_cons_self
      · exact List.mem_cons_of_mem _ (held.transit.1 body old)
    · exact List.mem_cons_of_mem _ (held.transit.1 body member)
  · intro post member
    rcases sent with ⟨rfl,rfl⟩ | ⟨rfl,rfl⟩
    · exact List.mem_cons_of_mem _ (held.transit.2 post member)
    · rcases List.mem_cons.mp member with rfl | old
      · exact List.mem_cons_self
      · exact List.mem_cons_of_mem _ (held.transit.2 post old)
  · intro key member
    rw [longer] at member
    rcases List.mem_append.mp member with old | new
    · exact List.mem_cons_of_mem _ (held.known key old)
    · cases List.mem_singleton.mp new
      exact List.mem_cons_self
  · rw [longer,List.map_append]
    refine List.nodup_append.mpr ⟨held.distinct,List.nodup_singleton _,?_⟩
    rintro old member new last rfl
    obtain ⟨key,inside,rfl⟩ := List.mem_map.mp member
    have same : key.1 = clientOpId := by simpa using last
    exact fresh (by rw [← same]; exact held.known key inside)
  · intro other member
    have count : (flights uplink posts s.server).count other = (clientOpId :: copies s).count other := copy.count_eq other
    have total : (copies {s with
      client := (submitOp s.client opType payload clientOpId).1
      submitted := clientOpId :: s.submitted
      uplink := uplink
      posts := posts}).count other = (clientOpId :: copies s).count other := count
    rw [total]
    rcases List.mem_cons.mp member with rfl | old
    · rw [List.count_cons_self,List.count_eq_zero_of_not_mem none]
    · have ne : clientOpId ≠ other := fun same => fresh (by rw [same]; exact old)
      rw [List.count_cons_of_ne ne]
      exact held.once other old

theorem opened_counted (held : Counted s) (single : ∀ pending ∈ s.client.pendingOps, pending.inFlight = false →
      pending.clientOpId ∉ copies s) (fails : List String) :
    Counted {s with
      client := (onopen s.client fails).1
      socketOpen := true
      uplink := (onopen s.client fails).2 ++ s.uplink} := by
  obtain ⟨_,ids⟩ := onopen_exact s.client fails
  have sent : ∀ clientOpId, clientOpId ∈ (onopen s.client fails).2.map ClientOp.clientOpId →
      (clientOpId,false) ∈ keys s.client := by
    intro clientOpId member
    rw [ids] at member
    obtain ⟨⟨name,inFlight⟩,inside,found⟩ := List.mem_filterMap.mp member
    unfold resent at found
    split at found
    · cases found
    · rename_i idle
      cases found
      cases inFlight with
      | true => simp at idle
      | false => exact inside
  have apart : ((onopen s.client fails).2.map ClientOp.clientOpId).Nodup := by
    rw [ids]
    have each : ∀ l : List (String × Bool), (l.filterMap (resent fails)).Sublist (l.map Prod.fst) := by
      intro l
      induction l with
      | nil => exact List.Sublist.refl _
      | cons key rest ih =>
        cases image : resent fails key with
        | none =>
          rw [List.filterMap_cons_none image]
          exact ih.cons _
        | some name =>
          have same : name = key.1 := by
            unfold resent at image
            split at image
            · cases image
            · cases image; rfl
          subst same
          rw [List.filterMap_cons_some image]
          exact ih.cons_cons _
    exact held.distinct.sublist (each _)
  refine ⟨⟨?_,held.transit.2⟩,?_,?_,?_⟩
  · intro body member
    rcases List.mem_append.mp member with new | old
    · exact held.known _ (sent body.clientOpId (List.mem_map_of_mem new))
    · exact held.transit.1 body old
  · intro key member
    have name : key.1 ∈ (keys s.client).map Prod.fst := by
      rw [← ids_onopen s.client fails]
      exact List.mem_map_of_mem member
    obtain ⟨before,inside,same⟩ := List.mem_map.mp name
    rw [← same]
    exact held.known before inside
  · have same := ids_onopen s.client fails
    have distinct := held.distinct
    rw [← same] at distinct
    exact distinct
  · intro clientOpId member
    have split : copies {s with
        client := (onopen s.client fails).1
        socketOpen := true
        uplink := (onopen s.client fails).2 ++ s.uplink} =
        (onopen s.client fails).2.map ClientOp.clientOpId ++ copies s := by
      simp [copies,flights]
    rw [split,List.count_append]
    by_cases again : clientOpId ∈ (onopen s.client fails).2.map ClientOp.clientOpId
    · obtain ⟨pending,inside,same⟩ := List.mem_map.mp (sent clientOpId again)
      obtain ⟨rfl,idle⟩ := Prod.mk.inj same
      rw [List.count_eq_zero_of_not_mem (single pending inside idle)]
      exact List.nodup_iff_count_le_one.mp apart _
    · rw [List.count_eq_zero_of_not_mem again,Nat.zero_add]
      exact held.once clientOpId member

theorem uplink_rest (picked : Bag.pick s.uplink index = some (body,rest)) : ∀ other ∈ rest, other ∈ s.uplink :=
  fun _ member => (Bag.mem_pick picked).mpr (.inr member)

theorem posts_rest {rest : List Post} (picked : Bag.pick s.posts index = some (post,rest)) :
    ∀ other ∈ rest, ∃ before ∈ s.posts, other.body = before.body :=
  fun other member => ⟨other,(Bag.mem_pick picked).mpr (.inr member),rfl⟩

theorem posts_again {post after : Post} {rest : List Post} (picked : Bag.pick s.posts index = some (post,rest))
    (same : after.body = post.body) : ∀ other ∈ after :: rest, ∃ before ∈ s.posts, other.body = before.body := by
  intro other member
  rcases List.mem_cons.mp member with rfl | old
  · exact ⟨post,(Bag.mem_pick picked).mpr (.inl rfl),same⟩
  · exact posts_rest picked other old

theorem arrive_counted (held : Counted s) (picked : Bag.pick s.uplink index = some (body,rest))
    (served : serveOp sessionId userId s.server body stamp = .ok (added,server)) :
    Counted {s with server := server,uplink := rest} := by
  obtain ⟨_,grown⟩ := serveOp_commits served
  refine held.keep rfl (uplink_rest picked) (fun post member => ⟨post,member,rfl⟩) (List.Sublist.refl _) ?_
  intro clientOpId _
  have moved := (flights_log grown rest s.posts).trans (flights_uplink picked s.posts s.server).symm
  exact Nat.le_of_eq (moved.count_eq clientOpId)

theorem uplink_dropped (held : Counted s) (picked : Bag.pick s.uplink index = some (body,rest))
    (frames : List (String × CollabError)) : Counted {s with uplink := rest,frames := frames} := by
  refine held.keep rfl (uplink_rest picked) (fun post member => ⟨post,member,rfl⟩) (List.Sublist.refl _) ?_
  intro clientOpId _
  have counted := (flights_uplink picked s.posts s.server).count_eq clientOpId
  have one : (copies s).count clientOpId = (body.clientOpId :: flights rest s.posts s.server).count clientOpId := counted
  rw [one]
  exact List.count_le_count_cons

section
variable {post : Post} {rest : List Post} (held : Counted s) (picked : Bag.pick s.posts index = some (post,rest))
include held picked

theorem postArrive_counted (unread : post.outcome = none)
    (served : serveOp sessionId userId s.server post.body stamp = .ok (added,server)) :
    Counted {s with server := server,posts := {post with outcome := some added} :: rest} := by
  obtain ⟨_,grown⟩ := serveOp_commits served
  refine held.keep rfl (fun _ member => member) (posts_again picked rfl) (List.Sublist.refl _) ?_
  intro clientOpId _
  have before : openPost post = some post.body.clientOpId := by rw [openPost,unread]; rfl
  have out := flights_post picked s.uplink s.server
  rw [before] at out
  have moved := (flights_log grown s.uplink ({post with outcome := some added} :: rest)).trans
    ((flights_cons_post s.uplink {post with outcome := some added} rest s.server).append_left _)
  exact Nat.le_of_eq ((moved.trans out.symm).count_eq clientOpId)

theorem post_counted (after : Post) (same : after.body = post.body)
    (less : openPost after = openPost post ∨ openPost after = none) (client : CollabClient)
    (pending : ((keys client).map Prod.fst).Sublist ((keys s.client).map Prod.fst)) :
    Counted {s with client := client,posts := after :: rest} := by
  refine held.keep rfl (fun _ member => member) (posts_again picked same) pending ?_
  intro clientOpId _
  have now := (flights_cons_post s.uplink after rest s.server).count_eq clientOpId
  have was := (flights_post picked s.uplink s.server).count_eq clientOpId
  have here : (copies {s with client := client,posts := after :: rest}).count clientOpId =
      ((openPost after).toList ++ flights s.uplink rest s.server).count clientOpId := now
  have there : (copies s).count clientOpId = ((openPost post).toList ++ flights s.uplink rest s.server).count clientOpId := was
  rw [here,there]
  rcases less with equal | none
  · rw [equal]
  · rw [none]
    simp

theorem post_dropped (client : CollabClient)
    (pending : ((keys client).map Prod.fst).Sublist ((keys s.client).map Prod.fst)) :
    Counted {s with client := client,posts := rest} := by
  refine held.keep rfl (fun _ member => member) (posts_rest picked) pending ?_
  intro clientOpId _
  have was := (flights_post picked s.uplink s.server).count_eq clientOpId
  have there : (copies s).count clientOpId = ((openPost post).toList ++ flights s.uplink rest s.server).count clientOpId := was
  rw [there,List.count_append]
  exact Nat.le_add_left _ _

end

theorem client_counted (held : Counted s) (client : CollabClient) (frames : List (String × CollabError)) (reported : List String)
    (pending : ((keys client).map Prod.fst).Sublist ((keys s.client).map Prod.fst)) :
    Counted {s with client := client,frames := frames,reported := reported} :=
  held.keep rfl (fun _ member => member) (fun post member => ⟨post,member,rfl⟩) pending (fun _ _ => Nat.le_refl _)

theorem other_counted (held : Counted s) (fired : Timeline.step s.server c = some server)
    (others : foreign s.submitted c.call = true) : Counted {s with server := server} := by
  obtain ⟨ids,grown,apart⟩ := step_foreign fired others
  refine held.keep rfl (fun _ member => member) (fun post member => ⟨post,member,rfl⟩) (List.Sublist.refl _) ?_
  intro clientOpId known
  have moved := (flights_log grown s.uplink s.posts).count_eq clientOpId
  have here : (copies {s with server := server}).count clientOpId = (ids ++ copies s).count clientOpId := moved
  rw [here,List.count_append,List.count_eq_zero_of_not_mem (fun member => apart clientOpId member known),Nat.zero_add]

theorem step_counted (held : Counted s) (single : SingleCopy s event) (fired : step sessionId userId s event = some s') :
    Counted s' := by
  cases step_fires fired with
  | submitted opType payload sent fresh unused uplink posts way =>
    exact submit_counted held opType payload fresh unused uplink posts way
  | opened fails => exact opened_counted held single fails
  | closed =>
    exact held.keep rfl (fun _ member => member) (fun post member => ⟨post,member,rfl⟩) (List.Sublist.refl _)
      (fun _ _ => Nat.le_refl _)
  | arrived picked served => exact arrive_counted held picked served
  | refused e picked => exact uplink_dropped held picked _
  | uplinkLost picked => exact uplink_dropped held picked s.frames
  | @frame _ frame rest picked =>
    refine client_counted held _ rest _ ?_
    rcases frame_keys s.client frame with same | cleared
    · rw [same]
    · rw [cleared]
      exact ids_filter s.client frame.1
  | frameLost picked => exact client_counted held s.client _ s.reported (List.Sublist.refl _)
  | postArrived post picked unread served => exact postArrive_counted held picked unread served
  | postRefused post picked unread =>
    exact post_counted held picked {post with outcome := some none} rfl (.inr rfl) s.client (List.Sublist.refl _)
  | postAnswered post picked outcome => exact post_dropped held picked _ (ids_ingestOp s.client _ true)
  | postFailed post picked =>
    refine post_counted held picked {post with waiting := false} rfl (.inl rfl) _ ?_
    rw [ids_postFailed]
  | postLost post picked given => exact post_dropped held picked s.client (List.Sublist.refl _)
  | delivered found => exact client_counted held _ s.frames s.reported (ids_ingestOp s.client _ false)
  | viewed latestSeq => exact client_counted held _ s.frames s.reported (List.Sublist.refl _)
  | other ran others => exact other_counted held ran others

def UnderWay (s : Link) (clientOpId : String) : Prop :=
  (∃ body ∈ s.uplink, body.clientOpId = clientOpId) ∨ (∃ frame ∈ s.frames, frame.1 = clientOpId) ∨
    (∃ post ∈ s.posts, post.waiting = true ∧ post.body.clientOpId = clientOpId) ∨
    (s.socketOpen = false ∧ (clientOpId,false) ∈ keys s.client)

-- Where an id can be: in the log, reported, or pending and on its way to one of the two.
def Accounted (s : Link) (clientOpId : String) : Prop :=
  clientOpId ∈ logIds s.server ∨ clientOpId ∈ s.reported ∨
    ((∃ inFlight, (clientOpId,inFlight) ∈ keys s.client) ∧ UnderWay s clientOpId)

structure Placed (s : Link) : Prop where
  answered : ∀ post ∈ s.posts, ∀ op, post.outcome = some (some op) →
    op.clientOpId = some post.body.clientOpId ∧ post.body.clientOpId ∈ logIds s.server
  accounted : ∀ clientOpId ∈ s.submitted, Accounted s clientOpId

theorem Accounted.mono (held : Accounted s clientOpId) (log : ∀ other ∈ logIds s.server, other ∈ logIds s'.server)
    (reported : ∀ other ∈ s.reported, other ∈ s'.reported)
    (under : (∃ inFlight, (clientOpId,inFlight) ∈ keys s.client) → UnderWay s clientOpId → Accounted s' clientOpId) :
    Accounted s' clientOpId := by
  rcases held with logged | told | ⟨pending,way⟩
  · exact .inl (log clientOpId logged)
  · exact .inr (.inl (reported clientOpId told))
  · exact under pending way

theorem keys_kept (cleared : keys after = keys before ∨ keys after = (keys before).filter (fun key => key.1 ≠ gone))
    (other : clientOpId ≠ gone) (member : (clientOpId,inFlight) ∈ keys before) : (clientOpId,inFlight) ∈ keys after := by
  rcases cleared with same | filtered
  · rw [same]
    exact member
  · rw [filtered]
    exact List.mem_filter.mpr ⟨member,by simpa using other⟩

theorem submit_placed (held : Placed s) (opType : OpType) (payload : Value) (clientOpId : String) (uplink : List ClientOp)
    (posts : List Post)
    (sent : (uplink = (submitOp s.client opType payload clientOpId).2 :: s.uplink ∧ posts = s.posts) ∨
      (uplink = s.uplink ∧ posts = ⟨(submitOp s.client opType payload clientOpId).2,true,none⟩ :: s.posts)) :
    Placed {s with
      client := (submitOp s.client opType payload clientOpId).1
      submitted := clientOpId :: s.submitted
      uplink := uplink
      posts := posts} := by
  have longer := keys_submitOp s.client opType payload clientOpId
  have grown : ∀ key ∈ keys s.client, key ∈ keys (submitOp s.client opType payload clientOpId).1 := by
    intro key member
    rw [longer]
    exact List.mem_append_left _ member
  refine ⟨?_,?_⟩
  · intro post member op outcome
    rcases sent with ⟨rfl,rfl⟩ | ⟨rfl,rfl⟩
    · exact held.answered post member op outcome
    · rcases List.mem_cons.mp member with rfl | old
      · cases outcome
      · exact held.answered post old op outcome
  · intro other member
    rcases List.mem_cons.mp member with rfl | old
    · refine .inr (.inr ⟨⟨true,by rw [longer]; exact List.mem_append_right _ List.mem_cons_self⟩,?_⟩)
      rcases sent with ⟨rfl,rfl⟩ | ⟨rfl,rfl⟩
      · exact .inl ⟨_,List.mem_cons_self,rfl⟩
      · exact .inr (.inr (.inl ⟨_,List.mem_cons_self,rfl,rfl⟩))
    · refine (held.accounted other old).mono (fun _ logged => logged) (fun _ told => told) ?_
      rintro ⟨inFlight,pending⟩ way
      refine .inr (.inr ⟨⟨inFlight,grown _ pending⟩,?_⟩)
      rcases way with ⟨body,up,same⟩ | framed | ⟨post,posted,waiting,same⟩ | ⟨shut,idle⟩
      · refine .inl ⟨body,?_,same⟩
        rcases sent with ⟨rfl,rfl⟩ | ⟨rfl,rfl⟩
        · exact List.mem_cons_of_mem _ up
        · exact up
      · exact .inr (.inl framed)
      · refine .inr (.inr (.inl ⟨post,?_,waiting,same⟩))
        rcases sent with ⟨rfl,rfl⟩ | ⟨rfl,rfl⟩
        · exact posted
        · exact List.mem_cons_of_mem _ posted
      · exact .inr (.inr (.inr ⟨shut,grown _ idle⟩))

theorem opened_placed (held : Placed s) (sends : ∀ pending ∈ s.client.pendingOps, pending.inFlight = false →
      pending.clientOpId ∉ fails) :
    Placed {s with
      client := (onopen s.client fails).1
      socketOpen := true
      uplink := (onopen s.client fails).2 ++ s.uplink} := by
  obtain ⟨marked,ids⟩ := onopen_exact s.client fails
  refine ⟨held.answered,?_⟩
  intro clientOpId member
  refine (held.accounted clientOpId member).mono (fun _ logged => logged) (fun _ told => told) ?_
  rintro ⟨inFlight,pending⟩ way
  refine .inr (.inr ⟨?_,?_⟩)
  · have name : clientOpId ∈ (keys (onopen s.client fails).1).map Prod.fst := by
      rw [ids_onopen]
      exact List.mem_map_of_mem pending
    obtain ⟨⟨name,flag⟩,inside,rfl⟩ := List.mem_map.mp name
    exact ⟨flag,inside⟩
  · rcases way with ⟨body,up,same⟩ | framed | posted | ⟨_,idle⟩
    · exact .inl ⟨body,List.mem_append_right _ up,same⟩
    · exact .inr (.inl framed)
    · exact .inr (.inr (.inl posted))
    · have goes : clientOpId ∈ (onopen s.client fails).2.map ClientOp.clientOpId := by
        rw [ids]
        refine List.mem_filterMap.mpr ⟨(clientOpId,false),idle,?_⟩
        obtain ⟨entry,inside,same⟩ := List.mem_map.mp idle
        obtain ⟨rfl,flag⟩ := Prod.mk.inj same
        have taken := sends entry inside flag
        simp [resent,taken]
      obtain ⟨body,sent,same⟩ := List.mem_map.mp goes
      exact .inl ⟨body,List.mem_append_left _ sent,same⟩

theorem closed_placed (held : Placed s) : Placed {s with socketOpen := false} := by
  refine ⟨held.answered,?_⟩
  intro clientOpId member
  refine (held.accounted clientOpId member).mono (fun _ logged => logged) (fun _ told => told) ?_
  rintro pending (up | framed | posted | ⟨_,idle⟩)
  · exact .inr (.inr ⟨pending,.inl up⟩)
  · exact .inr (.inr ⟨pending,.inr (.inl framed)⟩)
  · exact .inr (.inr ⟨pending,.inr (.inr (.inl posted))⟩)
  · exact .inr (.inr ⟨pending,.inr (.inr (.inr ⟨rfl,idle⟩))⟩)

theorem mem_log_append (grown : logIds t' = logIds t ++ ids) : ∀ clientOpId ∈ logIds t, clientOpId ∈ logIds t' := by
  intro clientOpId member
  rw [grown]
  exact List.mem_append_left _ member

section
variable (held : Placed s)
include held

theorem arrive_placed (picked : Bag.pick s.uplink index = some (body,rest))
    (served : serveOp sessionId userId s.server body stamp = .ok (added,server)) :
    Placed {s with server := server,uplink := rest} := by
  obtain ⟨_,grown⟩ := serveOp_commits served
  have kept := mem_log_append grown
  refine ⟨fun post member op outcome => ⟨(held.answered post member op outcome).1,kept _ (held.answered post member op outcome).2⟩,?_⟩
  intro clientOpId member
  refine (held.accounted clientOpId member).mono kept (fun _ told => told) ?_
  rintro pending (⟨other,up,same⟩ | later)
  · rcases (Bag.mem_pick picked).mp up with rfl | stays
    · left
      rw [← same]
      have last : other.clientOpId ∈ logIds server := by
        rw [grown]
        exact List.mem_append_right _ List.mem_cons_self
      exact last
    · exact .inr (.inr ⟨pending,.inl ⟨other,stays,same⟩⟩)
  · exact .inr (.inr ⟨pending,.inr later⟩)

theorem refused_placed (picked : Bag.pick s.uplink index = some (body,rest)) (e : CollabError) :
    Placed {s with uplink := rest,frames := (body.clientOpId,e) :: s.frames} := by
  refine ⟨held.answered,?_⟩
  intro clientOpId member
  refine (held.accounted clientOpId member).mono (fun _ logged => logged) (fun _ told => told) ?_
  rintro pending (⟨other,up,same⟩ | ⟨frame,framed,same⟩ | later)
  · rcases (Bag.mem_pick picked).mp up with rfl | stays
    · exact .inr (.inr ⟨pending,.inr (.inl ⟨_,List.mem_cons_self,same⟩)⟩)
    · exact .inr (.inr ⟨pending,.inl ⟨other,stays,same⟩⟩)
  · exact .inr (.inr ⟨pending,.inr (.inl ⟨frame,List.mem_cons_of_mem _ framed,same⟩)⟩)
  · exact .inr (.inr ⟨pending,.inr (.inr later)⟩)

theorem frame_placed {frame : String × CollabError} {rest : List (String × CollabError)}
    (picked : Bag.pick s.frames index = some (frame,rest)) :
    Placed {s with
      client := (handleServerMessage s.client (frameOf frame)).1
      frames := rest
      reported := frame.1 :: s.reported} := by
  refine ⟨held.answered,?_⟩
  intro clientOpId member
  by_cases told : clientOpId = frame.1
  · exact .inr (.inl (List.mem_cons.mpr (.inl told)))
  refine (held.accounted clientOpId member).mono (fun _ logged => logged) (fun _ known => List.mem_cons_of_mem _ known) ?_
  rintro ⟨inFlight,pending⟩ way
  refine .inr (.inr ⟨⟨inFlight,keys_kept (frame_keys s.client frame) told pending⟩,?_⟩)
  rcases way with up | ⟨other,framed,same⟩ | posted | ⟨shut,idle⟩
  · exact .inl up
  · rcases (Bag.mem_pick picked).mp framed with rfl | stays
    · exact absurd same.symm told
    · exact .inr (.inl ⟨other,stays,same⟩)
  · exact .inr (.inr (.inl posted))
  · exact .inr (.inr (.inr ⟨shut,keys_kept (frame_keys s.client frame) told idle⟩))

theorem postArrive_placed {rest : List Post}
    (picked : Bag.pick s.posts index = some (post,rest))
    (served : serveOp sessionId userId s.server post.body stamp = .ok (added,server)) :
    Placed {s with server := server,posts := {post with outcome := some added} :: rest} := by
  obtain ⟨⟨op,rfl,mine⟩,grown⟩ := serveOp_commits served
  have kept := mem_log_append grown
  have here : post.body.clientOpId ∈ logIds server := by
    rw [grown]
    exact List.mem_append_right _ List.mem_cons_self
  refine ⟨?_,?_⟩
  · intro other member answer outcome
    rcases List.mem_cons.mp member with rfl | old
    · cases outcome
      exact ⟨mine,here⟩
    · have before := held.answered other ((Bag.mem_pick picked).mpr (.inr old)) answer outcome
      exact ⟨before.1,kept _ before.2⟩
  · intro clientOpId member
    refine (held.accounted clientOpId member).mono kept (fun _ told => told) ?_
    rintro pending (up | framed | ⟨other,posted,waiting,same⟩ | idle)
    · exact .inr (.inr ⟨pending,.inl up⟩)
    · exact .inr (.inr ⟨pending,.inr (.inl framed)⟩)
    · rcases (Bag.mem_pick picked).mp posted with rfl | stays
      · left
        rw [← same]
        exact here
      · exact .inr (.inr ⟨pending,.inr (.inr (.inl ⟨other,List.mem_cons_of_mem _ stays,waiting,same⟩))⟩)
    · exact .inr (.inr ⟨pending,.inr (.inr (.inr idle))⟩)

theorem postRefused_placed {rest : List Post}
    (picked : Bag.pick s.posts index = some (post,rest)) :
    Placed {s with posts := {post with outcome := some none} :: rest} := by
  refine ⟨?_,?_⟩
  · intro other member answer outcome
    rcases List.mem_cons.mp member with rfl | old
    · cases outcome
    · exact held.answered other ((Bag.mem_pick picked).mpr (.inr old)) answer outcome
  · intro clientOpId member
    refine (held.accounted clientOpId member).mono (fun _ logged => logged) (fun _ told => told) ?_
    rintro pending (up | framed | ⟨other,posted,waiting,same⟩ | idle)
    · exact .inr (.inr ⟨pending,.inl up⟩)
    · exact .inr (.inr ⟨pending,.inr (.inl framed)⟩)
    · rcases (Bag.mem_pick picked).mp posted with rfl | stays
      · exact .inr (.inr ⟨pending,.inr (.inr (.inl ⟨_,List.mem_cons_self,waiting,same⟩))⟩)
      · exact .inr (.inr ⟨pending,.inr (.inr (.inl ⟨other,List.mem_cons_of_mem _ stays,waiting,same⟩))⟩)
    · exact .inr (.inr ⟨pending,.inr (.inr (.inr idle))⟩)

theorem ingest_placed (logged : ∀ clientOpId, op.clientOpId = some clientOpId → clientOpId ∈ logIds s.server)
    (fromAck : Bool) : Placed {s with client := (ingestOp s.client op fromAck).1} := by
  refine ⟨held.answered,?_⟩
  intro clientOpId member
  rcases keys_ingestOp s.client op fromAck with same | ⟨gone,mine,filtered⟩
  · refine (held.accounted clientOpId member).mono (fun _ logged => logged) (fun _ told => told) ?_
    intro pending way
    refine .inr (.inr ⟨by rw [same]; exact pending,?_⟩)
    rcases way with up | framed | posted | ⟨shut,idle⟩
    · exact .inl up
    · exact .inr (.inl framed)
    · exact .inr (.inr (.inl posted))
    · exact .inr (.inr (.inr ⟨shut,by rw [same]; exact idle⟩))
  · by_cases own : clientOpId = gone
    · subst own
      exact .inl (logged clientOpId mine)
    · refine (held.accounted clientOpId member).mono (fun _ logged => logged) (fun _ told => told) ?_
      rintro ⟨inFlight,pending⟩ way
      refine .inr (.inr ⟨⟨inFlight,keys_kept (.inr filtered) own pending⟩,?_⟩)
      rcases way with up | framed | posted | ⟨shut,idle⟩
      · exact .inl up
      · exact .inr (.inl framed)
      · exact .inr (.inr (.inl posted))
      · exact .inr (.inr (.inr ⟨shut,keys_kept (.inr filtered) own idle⟩))

theorem post_gone_placed {rest : List Post}
    (picked : Bag.pick s.posts index = some (post,rest))
    (done : post.waiting = true → post.body.clientOpId ∈ logIds s.server) : Placed {s with posts := rest} := by
  refine ⟨fun other member => held.answered other ((Bag.mem_pick picked).mpr (.inr member)),?_⟩
  intro clientOpId member
  refine (held.accounted clientOpId member).mono (fun _ logged => logged) (fun _ told => told) ?_
  rintro pending (up | framed | ⟨other,posted,waiting,same⟩ | idle)
  · exact .inr (.inr ⟨pending,.inl up⟩)
  · exact .inr (.inr ⟨pending,.inr (.inl framed)⟩)
  · rcases (Bag.mem_pick picked).mp posted with rfl | stays
    · left
      rw [← same]
      exact done waiting
    · exact .inr (.inr ⟨pending,.inr (.inr (.inl ⟨other,stays,waiting,same⟩))⟩)
  · exact .inr (.inr ⟨pending,.inr (.inr (.inr idle))⟩)

theorem postFail_placed {rest : List Post}
    (picked : Bag.pick s.posts index = some (post,rest)) (shut : s.socketOpen = false) :
    Placed {s with
      client := postFailed s.client post.body.clientOpId
      posts := {post with waiting := false} :: rest} := by
  have marked := keys_postFailed s.client post.body.clientOpId
  refine ⟨?_,?_⟩
  · intro other member answer outcome
    rcases List.mem_cons.mp member with rfl | old
    · exact held.answered post ((Bag.mem_pick picked).mpr (.inl rfl)) answer outcome
    · exact held.answered other ((Bag.mem_pick picked).mpr (.inr old)) answer outcome
  · intro clientOpId member
    refine (held.accounted clientOpId member).mono (fun _ logged => logged) (fun _ told => told) ?_
    rintro ⟨inFlight,pending⟩ way
    have moved : retried post.body.clientOpId (clientOpId,inFlight) ∈ keys (postFailed s.client post.body.clientOpId) := by
      rw [marked]
      exact List.mem_map_of_mem pending
    by_cases own : clientOpId = post.body.clientOpId
    · rw [retried,if_pos own] at moved
      exact .inr (.inr ⟨⟨false,moved⟩,.inr (.inr (.inr ⟨shut,moved⟩))⟩)
    · rw [retried,if_neg own] at moved
      refine .inr (.inr ⟨⟨inFlight,moved⟩,?_⟩)
      rcases way with up | framed | ⟨other,posted,waiting,same⟩ | ⟨_,idle⟩
      · exact .inl up
      · exact .inr (.inl framed)
      · rcases (Bag.mem_pick picked).mp posted with rfl | stays
        · exact absurd same.symm own
        · exact .inr (.inr (.inl ⟨other,List.mem_cons_of_mem _ stays,waiting,same⟩))
      · refine .inr (.inr (.inr ⟨shut,?_⟩))
        have still : retried post.body.clientOpId (clientOpId,false) ∈ keys (postFailed s.client post.body.clientOpId) := by
          rw [marked]
          exact List.mem_map_of_mem idle
        rw [retried,if_neg own] at still
        exact still

theorem other_placed (fired : Timeline.step s.server c = some server)
    (others : foreign s.submitted c.call = true) : Placed {s with server := server} := by
  obtain ⟨ids,grown,_⟩ := step_foreign fired others
  have kept := mem_log_append grown
  refine ⟨fun post member op outcome => ⟨(held.answered post member op outcome).1,kept _ (held.answered post member op outcome).2⟩,?_⟩
  intro clientOpId member
  exact (held.accounted clientOpId member).mono kept (fun _ told => told) (fun pending way => .inr (.inr ⟨pending,way⟩))

theorem step_placed (lossless : Lossless s event) (fired : step sessionId userId s event = some s') :
    Placed s' := by
  cases step_fires fired with
  | submitted opType payload sent fresh unused uplink posts way =>
    exact submit_placed held opType payload _ uplink posts way
  | opened fails => exact opened_placed held lossless
  | closed => exact closed_placed held
  | arrived picked served => exact arrive_placed held picked served
  | refused e picked => exact refused_placed held picked e
  | uplinkLost picked => exact lossless.elim
  | frame picked => exact frame_placed held picked
  | frameLost picked => exact lossless.elim
  | postArrived post picked unread served => exact postArrive_placed held picked served
  | postRefused post picked unread => exact postRefused_placed held picked
  | postAnswered post picked outcome =>
    obtain ⟨mine,logged⟩ := held.answered post ((Bag.mem_pick picked).mpr (.inl rfl)) _ outcome
    have gone := post_gone_placed held picked (fun _ => logged)
    refine ingest_placed gone ?_ true
    intro clientOpId given
    rw [mine] at given
    cases given
    exact logged
  | postFailed post picked => exact postFail_placed held picked lossless
  | postLost post picked given =>
    refine post_gone_placed held picked (fun waiting => ?_)
    rw [given] at waiting
    cases waiting
  | @delivered position op found =>
    refine ingest_placed held ?_ false
    intro clientOpId mine
    exact List.mem_filterMap.mpr ⟨op,List.mem_of_getElem? found,mine⟩
  | viewed latestSeq => exact ⟨held.answered,held.accounted⟩
  | other ran others => exact other_placed held ran others

end

theorem run_counted (held : Counted s) (single : Schedule.Along (step sessionId userId) SingleCopy s events)
    (ran : Schedule.run (step sessionId userId) s events = some final) : Counted final :=
  Schedule.run_along (fun _ _ _ held single fired => step_counted held single fired) held single ran

theorem run_placed (held : Placed s) (lossless : Schedule.Along (step sessionId userId) Lossless s events)
    (ran : Schedule.run (step sessionId userId) s events = some final) : Placed final :=
  Schedule.run_along (fun _ _ _ held lossless fired => step_placed held lossless fired) held lossless ran

theorem start_counted (t : Timeline) (idle : client.pendingOps = []) : Counted (start t client) := by
  have none : keys client = [] := by rw [keys,idle]; rfl
  refine ⟨⟨fun _ member => absurd member List.not_mem_nil,fun _ member => absurd member List.not_mem_nil⟩,?_,?_,
    fun _ member => absurd member List.not_mem_nil⟩
  · intro key member
    have pending : key ∈ keys client := member
    rw [none] at pending
    exact absurd pending List.not_mem_nil
  · have same : (keys (start t client).client).map Prod.fst = [] := by
      have empty : keys (start t client).client = [] := none
      rw [empty]
      rfl
    rw [same]
    exact List.nodup_nil

theorem start_placed (t : Timeline) (client : CollabClient) : Placed (start t client) :=
  ⟨fun _ member => absurd member List.not_mem_nil,fun _ member => absurd member List.not_mem_nil⟩

-- No op is committed twice; and with the socket open and nothing under way each one
-- that was not reported is in the log, once.
theorem submitted_once (t : Timeline) (idle : client.pendingOps = [])
    (ran : Schedule.run (step sessionId userId) (start t client) events = some s)
    (single : Schedule.Along (step sessionId userId) SingleCopy (start t client) events) :
    (∀ clientOpId ∈ s.submitted, (logIds s.server).count clientOpId ≤ 1) ∧
    (Schedule.Along (step sessionId userId) Lossless (start t client) events → Settled s →
      ∀ clientOpId ∈ s.submitted, clientOpId ∉ s.reported → (logIds s.server).count clientOpId = 1) := by
  have counted := run_counted (start_counted t idle) single ran
  have atMost : ∀ clientOpId ∈ s.submitted, (logIds s.server).count clientOpId ≤ 1 := by
    intro clientOpId member
    refine Nat.le_trans ?_ (counted.once clientOpId member)
    rw [copies,flights,List.count_append]
    exact Nat.le_add_left _ _
  refine ⟨atMost,?_⟩
  rintro lossless ⟨isOpen,uplink,posts,frames⟩ clientOpId member unreported
  have placed := run_placed (start_placed t client) lossless ran
  have logged : clientOpId ∈ logIds s.server := by
    rcases placed.accounted clientOpId member with logged | told | ⟨_,way⟩
    · exact logged
    · exact absurd told unreported
    · rcases way with ⟨body,up,_⟩ | ⟨frame,framed,_⟩ | ⟨post,posted,_⟩ | ⟨shut,_⟩
      · rw [uplink] at up
        exact absurd up List.not_mem_nil
      · rw [frames] at framed
        exact absurd framed List.not_mem_nil
      · rw [posts] at posted
        exact absurd posted List.not_mem_nil
      · rw [isOpen] at shut
        cases shut
  exact Nat.le_antisymm (atMost clientOpId member) (List.one_le_count_iff.mpr logged)

def stamp : Stamp := ⟨[],0,"op",0,false⟩

def typeA : Event := .submit .replace (replaceToPayload ⟨0,0,['a']⟩) "a1" false

def sendB : Event := .submit .replace (replaceToPayload ⟨0,0,['b']⟩) "a2" true

def annClient : CollabClient := (editorOf "ann" []).client

def summary (s : Link) : Bool × Nat × List String × List String × List String :=
  (s.socketOpen,s.uplink.length + s.posts.length + s.frames.length,s.submitted,s.reported,logIds s.server)

theorem settled_of_summary (same : summary s = (true,0,submitted,reported,ids)) :
    Settled s ∧ s.submitted = submitted ∧ s.reported = reported := by
  obtain ⟨isOpen,rest⟩ := Prod.mk.inj same
  obtain ⟨none,rest⟩ := Prod.mk.inj rest
  obtain ⟨submitted,rest⟩ := Prod.mk.inj rest
  obtain ⟨reported,_⟩ := Prod.mk.inj rest
  refine ⟨⟨isOpen,?_,?_,?_⟩,submitted,reported⟩
  · exact List.eq_nil_of_length_eq_zero (by omega)
  · exact List.eq_nil_of_length_eq_zero (by omega)
  · exact List.eq_nil_of_length_eq_zero (by omega)

-- A post that never arrives and is sent again by `onopen`, and an op over the socket.
def recovered : List Event := [typeA,.postFail 0,.postLost 0,.opened [],.arrive 0 stamp,sendB,.deliver 0,.arrive 0 stamp]

theorem submitted_once_recovered : ∃ s, Schedule.run (step "s" "ann") (start bothJoined annClient) recovered = some s ∧
    (logIds s.server).count "a1" = 1 ∧ (logIds s.server).count "a2" = 1 := by
  obtain ⟨s,ran⟩ := isSome_iff_exists.mp (by decide :
    (Schedule.run (step "s" "ann") (start bothJoined annClient) recovered).isSome = true)
  have told : (Schedule.run (step "s" "ann") (start bothJoined annClient) recovered).map summary =
      some (true,0,["a2","a1"],[],["a1","a2"]) := by decide
  rw [ran] at told
  obtain ⟨settled,submitted,reported⟩ := settled_of_summary (Option.some.inj told)
  have once := (submitted_once bothJoined rfl ran (by decide)).2 (by decide) settled
  rw [submitted,reported] at once
  exact ⟨s,ran,once "a1" (by decide) (by decide),once "a2" (by decide) (by decide)⟩

theorem submission_fails :
    (Schedule.run (step "s" "ann") (start bothJoined annClient)
      [typeA,.postArrive 0 stamp,.postFail 0,.opened [],.arrive 0 stamp]).map (fun s => logIds s.server) =
        some ["a1","a1"] ∧
    (Schedule.run (step "s" "ann") (start bothJoined annClient) [.opened [],sendB,.closed,.uplinkLost 0,.opened []]).map
      summary = some (true,0,["a2"],[],[]) := by
  constructor
  · decide
  · decide

end Ownly.Collab.Submission
