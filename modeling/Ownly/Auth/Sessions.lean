import Mathlib

-- Session revocation of one user: the audit rows of the logins, and the three
-- settings that `is_token_session_valid` consults.
namespace Ownly.Auth.Sessions
open List

-- An auth.login or auth.register row; `created_at` in microseconds.
structure Login where
  id : String
  createdAt : Int
deriving DecidableEq

-- `auditLogs` has the newest row first. A setting that has no row yet is `none`.
structure Store where
  auditLogs : List Login := []
  revokedSessions : Option (List String) := none
  sessionEpoch : Option Nat := none
  sessionMinIat : Option Int := none
deriving DecidableEq

-- The claims of a JWT that the session check reads.
structure Token where
  sid : Option String
  ver : Nat
  iat : Int
deriving DecidableEq

def maxEpoch : Nat := 18446744073709551615

def loadRevokedSessionIds (store : Store) : List String := store.revokedSessions.getD []

def storeRevokedSessionIds (store : Store) (ids : List String) : Store := { store with revokedSessions := some ids }

def loadSessionEpoch (store : Store) : Nat := store.sessionEpoch.getD 0

def storeSessionEpoch (store : Store) (epoch : Nat) : Store := { store with sessionEpoch := some epoch }

-- `saturating_add(1)` of a u64.
def nextEpoch (epoch : Nat) : Nat := min (epoch + 1) maxEpoch

def bumpSessionEpoch (store : Store) : Store := storeSessionEpoch store (nextEpoch (loadSessionEpoch store))

def storeMinValidIat (store : Store) (minIat : Int) : Store := { store with sessionMinIat := some minIat }

-- ORDER BY created_at DESC LIMIT
def recentLogins (store : Store) (limit : Nat) : List Login :=
  (store.auditLogs.insertionSort (fun one other => other.createdAt ≤ one.createdAt)).take limit

def isLatestLoginSession (store : Store) (sessionId : String) : Bool :=
  match (recentLogins store 1).head? with
  | some latest => latest.id == sessionId
  | none => false

def isTokenSessionValid (store : Store) (sessionId : Option String) (sessionVersion : Nat) (tokenIat : Int) : Bool :=
  if sessionVersion < loadSessionEpoch store then false
  else match sessionId with
    | some sid => !(loadRevokedSessionIds store).contains sid
    -- A token without sid only has its time of issue.
    | none => match store.sessionMinIat with
      | some minIat => !decide (tokenIat < minIat)
      | none => true

-- The first half of `revoke_session_id`: the id is appended where the list lacks it.
def listSession (store : Store) (sessionId : String) : Store :=
  let revoked := loadRevokedSessionIds store
  if revoked.contains sessionId then store else storeRevokedSessionIds store (revoked ++ [sessionId])

def revokeSessionId (store : Store) (sessionId : String) : Store :=
  let listed := listSession store sessionId
  if isLatestLoginSession listed sessionId then bumpSessionEpoch listed else listed

-- The variables of the loop of `revoke_all_except_session`.
structure Sweep where
  revoked : List String
  keptCurrent : Bool := false
  keptCreatedAt : Option Int := none
deriving DecidableEq

def sweepRow (preferredKeep : Option String) (sweep : Sweep) (row : Login) : Sweep :=
  if sweep.revoked.contains row.id then sweep
  else
    let shouldKeep := match preferredKeep with
      | some keepId => row.id == keepId
      | none => !sweep.keptCurrent
    if shouldKeep && !sweep.keptCurrent then { sweep with keptCurrent := true, keptCreatedAt := some row.createdAt }
    else if shouldKeep then sweep
    else if sweep.revoked.contains row.id then sweep
    else { sweep with revoked := sweep.revoked ++ [row.id] }

def preferredKeep (rows : List Login) (revoked : List String) (keepSessionId : Option String) : Option String :=
  keepSessionId.filter (fun sid => rows.any (·.id == sid) && !revoked.contains sid)

def sweepRows (rows : List Login) (revoked : List String) (keepSessionId : Option String) : Sweep :=
  rows.foldl (sweepRow (preferredKeep rows revoked keepSessionId)) { revoked }

def sessionWindow : Nat := 25

-- `DateTime::timestamp`: whole seconds.
def timestamp (createdAt : Int) : Int := createdAt / 1000000

def revokeAllExceptSession (store : Store) (keepSessionId : Option String) : Store :=
  let rows := recentLogins store sessionWindow
  let sweep := sweepRows rows (loadRevokedSessionIds store) keepSessionId
  let stored := storeRevokedSessionIds store sweep.revoked
  match sweep.keptCreatedAt with
  | some createdAt => storeMinValidIat stored (timestamp createdAt)
  | none => stored

def revokeAllOtherSessions (store : Store) : Store := revokeAllExceptSession store none

-- A login: its audit row, and the token with the row's id and the epoch of that time.
def login (store : Store) (id : String) (createdAt : Int) : Store × Token :=
  ({ store with auditLogs := ⟨id,createdAt⟩ :: store.auditLogs },⟨some id,loadSessionEpoch store,timestamp createdAt⟩)

def Ordered (logins : List Login) : Prop := logins.Pairwise (fun newer older => older.createdAt < newer.createdAt)

variable {store : Store}

theorem recentLogins_eq (ordered : Ordered store.auditLogs) (limit : Nat) :
    recentLogins store limit = store.auditLogs.take limit := by
  have sorted : store.auditLogs.insertionSort (fun one other => other.createdAt ≤ one.createdAt) = store.auditLogs :=
    List.Pairwise.insertionSort_eq (ordered.imp Int.le_of_lt)
  rw [recentLogins,sorted]

theorem isLatestLoginSession_iff (ordered : Ordered store.auditLogs) (sessionId : String) :
    isLatestLoginSession store sessionId = true ↔ (store.auditLogs.map (·.id)).head? = some sessionId := by
  rw [isLatestLoginSession,recentLogins_eq ordered]
  cases store.auditLogs with
  | nil => simp
  | cons newest rest => simp

theorem valid_iff (store : Store) (sid : String) (ver : Nat) (iat : Int) :
    isTokenSessionValid store (some sid) ver iat = true ↔
      loadSessionEpoch store ≤ ver ∧ sid ∉ loadRevokedSessionIds store := by
  unfold isTokenSessionValid
  split
  · rename_i below
    simp only [Bool.false_eq_true,false_iff,not_and]
    exact fun above => absurd below (Nat.not_lt.mpr above)
  · rename_i above
    simp only [Bool.not_eq_true',contains_eq_mem,decide_eq_false_iff_not]
    exact ⟨fun unlisted => ⟨Nat.not_lt.mp above,unlisted⟩,And.right⟩

@[simp] theorem storeRevokedSessionIds_list (store : Store) (ids : List String) :
    loadRevokedSessionIds (storeRevokedSessionIds store ids) = ids := rfl
@[simp] theorem storeSessionEpoch_epoch (store : Store) (epoch : Nat) :
    loadSessionEpoch (storeSessionEpoch store epoch) = epoch := rfl
theorem listSession_list (store : Store) (sessionId x : String) :
    x ∈ loadRevokedSessionIds (listSession store sessionId) ↔ x = sessionId ∨ x ∈ loadRevokedSessionIds store := by
  unfold listSession
  dsimp only
  split
  · rename_i already
    have member : sessionId ∈ loadRevokedSessionIds store := by simpa using already
    refine ⟨Or.inr,?_⟩
    rintro (rfl | old)
    · exact member
    · exact old
  · rw [storeRevokedSessionIds_list,mem_append,mem_singleton,or_comm]

@[simp] theorem listSession_logs (store : Store) (sessionId : String) :
    (listSession store sessionId).auditLogs = store.auditLogs := by
  unfold listSession
  dsimp only
  split <;> rfl

@[simp] theorem listSession_epoch (store : Store) (sessionId : String) :
    loadSessionEpoch (listSession store sessionId) = loadSessionEpoch store := by
  unfold listSession
  dsimp only
  split <;> rfl

theorem revokeSessionId_list (store : Store) (sessionId x : String) :
    x ∈ loadRevokedSessionIds (revokeSessionId store sessionId) ↔ x = sessionId ∨ x ∈ loadRevokedSessionIds store := by
  rw [← listSession_list,revokeSessionId]
  split <;> rfl

theorem revokeSessionId_logs (store : Store) (sessionId : String) :
    (revokeSessionId store sessionId).auditLogs = store.auditLogs := by
  rw [← listSession_logs store sessionId,revokeSessionId]
  split <;> rfl

theorem revokeSessionId_epoch (ordered : Ordered store.auditLogs) (sessionId : String) :
    loadSessionEpoch (revokeSessionId store sessionId) =
      if (store.auditLogs.map (·.id)).head? = some sessionId then nextEpoch (loadSessionEpoch store)
      else loadSessionEpoch store := by
  have latest : isLatestLoginSession (listSession store sessionId) sessionId = true ↔
      ((listSession store sessionId).auditLogs.map (·.id)).head? = some sessionId :=
    isLatestLoginSession_iff (by rw [listSession_logs]; exact ordered) sessionId
  rw [listSession_logs] at latest
  unfold revokeSessionId
  dsimp only
  split
  · rename_i newest
    rw [bumpSessionEpoch,storeSessionEpoch_epoch,listSession_epoch,if_pos (latest.mp newest)]
  · rename_i older
    rw [listSession_epoch,if_neg (fun newest => older (latest.mpr newest))]

def spared (preferred : Option String) (revoked : List String) (rows : List Login) : Option String :=
  match preferred with
  | some keepId => some keepId
  | none => (rows.find? (fun row => !revoked.contains row.id)).map (·.id)

variable {rows : List Login} {sweep : Sweep} {x : String}

theorem sweep_preferred (keepId : String) :
    x ∈ (rows.foldl (sweepRow (some keepId)) sweep).revoked ↔
      x ∈ sweep.revoked ∨ x ≠ keepId ∧ x ∈ rows.map (·.id) := by
  induction rows generalizing sweep with
  | nil => simp
  | cons row rest ih =>
    have here : x ∈ (sweepRow (some keepId) sweep row).revoked ↔ x ∈ sweep.revoked ∨ x ≠ keepId ∧ x = row.id := by
      unfold sweepRow
      grind
    rw [foldl_cons,ih,here,map_cons,mem_cons,and_or_left,or_assoc]

theorem sweep_kept (kept : sweep.keptCurrent = true) :
    x ∈ (rows.foldl (sweepRow none) sweep).revoked ↔ x ∈ sweep.revoked ∨ x ∈ rows.map (·.id) := by
  induction rows generalizing sweep with
  | nil => simp
  | cons row rest ih =>
    have here : x ∈ (sweepRow none sweep row).revoked ↔ x ∈ sweep.revoked ∨ x = row.id := by
      unfold sweepRow
      grind
    have still : (sweepRow none sweep row).keptCurrent = true := by
      unfold sweepRow
      grind
    rw [foldl_cons,ih still,here,map_cons,mem_cons,or_assoc]

theorem sweep_newest (fresh : sweep.keptCurrent = false) (distinct : (rows.map (·.id)).Nodup) :
    x ∈ (rows.foldl (sweepRow none) sweep).revoked ↔
      x ∈ sweep.revoked ∨ spared none sweep.revoked rows ≠ some x ∧ x ∈ rows.map (·.id) := by
  induction rows with
  | nil => simp
  | cons row rest ih =>
    obtain ⟨apart,distinct⟩ := nodup_cons.mp (by simpa only [map_cons] using distinct)
    by_cases listed : row.id ∈ sweep.revoked
    · have same : sweepRow none sweep row = sweep := by simp [sweepRow,listed]
      have later : spared none sweep.revoked (row :: rest) = spared none sweep.revoked rest := by
        simp [spared,listed]
      rw [foldl_cons,same,ih distinct,later,map_cons,mem_cons]
      grind
    · have taken : sweepRow none sweep row = { sweep with keptCurrent := true, keptCreatedAt := some row.createdAt } := by
        simp [sweepRow,listed,fresh]
      have first : spared none sweep.revoked (row :: rest) = some row.id := by simp [spared,listed]
      rw [foldl_cons,taken,sweep_kept rfl,first,map_cons,mem_cons]
      constructor
      · rintro (old | late)
        · exact .inl old
        · refine .inr ⟨?_,.inr late⟩
          rintro same
          exact apart ((Option.some.inj same).symm ▸ late)
      · rintro (old | ⟨other,rfl | late⟩)
        · exact .inl old
        · exact absurd rfl other
        · exact .inr late

theorem sweepRows_revoked (revoked : List String) (keepSessionId : Option String) (distinct : (rows.map (·.id)).Nodup) :
    x ∈ (sweepRows rows revoked keepSessionId).revoked ↔
      x ∈ revoked ∨ spared (preferredKeep rows revoked keepSessionId) revoked rows ≠ some x ∧ x ∈ rows.map (·.id) := by
  unfold sweepRows
  cases preferredKeep rows revoked keepSessionId with
  | none => exact sweep_newest rfl distinct
  | some keepId =>
    rw [sweep_preferred,spared]
    simp only [ne_eq,Option.some.injEq,eq_comm]

theorem revokeAllExceptSession_parts (store : Store) (keepSessionId : Option String) :
    loadRevokedSessionIds (revokeAllExceptSession store keepSessionId) =
      (sweepRows (recentLogins store sessionWindow) (loadRevokedSessionIds store) keepSessionId).revoked ∧
    loadSessionEpoch (revokeAllExceptSession store keepSessionId) = loadSessionEpoch store ∧
    (revokeAllExceptSession store keepSessionId).auditLogs = store.auditLogs := by
  unfold revokeAllExceptSession
  dsimp only
  split
  · exact ⟨rfl,rfl,rfl⟩
  · exact ⟨rfl,rfl,rfl⟩

end Ownly.Auth.Sessions
