import Ownly.AppError
import Ownly.Lib.KeyMap
import Mathlib.Algebra.Group.Int.Defs
import Mathlib.Algebra.Group.Nat.Defs
import Mathlib.Tactic.Common

-- backend/src/uploads/store.rs: the rows of resumable uploads, and what each SQL
-- statement makes of the row it meets. BIGINT columns are integers; the casts of
-- the part arithmetic wrap as they do in a release build.
namespace Ownly.Uploads

inductive Status where
  | active
  | completing
  | complete
  | aborted
  deriving DecidableEq, Repr

def Status.asStr : Status → String
  | .active => "active"
  | .completing => "completing"
  | .complete => "complete"
  | .aborted => "aborted"

-- `status IN ('active', 'completing')`
def Status.InFlight (status : Status) : Prop := status = .active ∨ status = .completing

instance (status : Status) : Decidable status.InFlight := inferInstanceAs (Decidable (_ ∨ _))

-- Times are seconds. `isVideo` is what `upload_is_video` says of filename and type.
structure SessionRow where
  id : String
  userId : String
  isVideo : Bool
  totalSize : Int
  chunkSize : Int
  bytesReceived : Int
  status : Status
  expiresAt : Int
  updatedAt : Int
  contentHash : Option String
  quotaOwnerId : String
  quotaReservedBytes : Int
  deriving DecidableEq, Repr

structure PartRow where
  sizeBytes : Int
  contentSha256 : Option String
  signedToken : Option String
  deriving DecidableEq, Repr

def minChunkSize : Int := 1024 * 1024
def maxChunkSize : Int := 32 * 1024 * 1024
def defaultChunkSize : Int := 16 * 1024 * 1024
def sessionTtlSecs : Int := 24 * 3600
def sessionIdleSecs : Int := 6 * 3600

def asI64 (x : Int) : Int := Int.bmod x (2^64)
def asI32 (x : Int) : Int := Int.bmod x (2^32)

def totalParts (totalSize chunkSize : Int) : Int :=
  if totalSize ≤ 0 then 0 else asI32 ((asI64 (totalSize + chunkSize - 1)).tdiv chunkSize)

def expectedPartSize (totalSize chunkSize partNumber : Int) : Except AppError Int :=
  if partNumber < 0 then .error (.badRequest "part_number must be non-negative")
  else if totalParts totalSize chunkSize ≤ partNumber then .error (.badRequest "part_number out of range")
  else .ok (min chunkSize (totalSize - partNumber * chunkSize))

def normalizeChunkSize (value : Option Int) : Except AppError Int :=
  let chunkSize := value.getD defaultChunkSize
  if minChunkSize ≤ chunkSize ∧ chunkSize ≤ maxChunkSize then .ok chunkSize
  else .error (.badRequest s!"chunk_size must be between {minChunkSize} and {maxChunkSize}")

-- The row `insert_session` writes; the other columns take their defaults.
def insertSession (now : Int) (id userId fileOwnerId : String) (isVideo : Bool) (totalSize chunkSize : Int)
    (contentHash : Option String) : SessionRow :=
  ⟨id,userId,isVideo,totalSize,chunkSize,0,.active,now + sessionTtlSecs,now,contentHash,fileOwnerId,totalSize⟩

def ensureSessionActive (now : Int) (session : SessionRow) : Except AppError Unit :=
  if session.status ≠ .active then .error (.conflict ("upload session is " ++ session.status.asStr))
  else if session.expiresAt < now then .error (.conflict "upload session expired")
  else .ok ()

-- What `complete_session` asks of the loaded row and the number of listed parts.
def partsComplete (session : SessionRow) (received : Nat) : Except AppError Unit :=
  let parts := totalParts session.totalSize session.chunkSize
  if asI32 received = parts ∧ session.bytesReceived = session.totalSize then .ok ()
  else if asI32 received ≠ parts then
    .error (.conflict s!"upload incomplete: received {received} of {parts} parts")
  else .error (.conflict "upload bytes_received does not match total_size")

namespace SessionRow

-- `UPDATE upload_sessions SET bytes_received = bytes_received + $2`
def credited (now size : Int) (session : SessionRow) : SessionRow :=
  {session with bytesReceived := session.bytesReceived + size,updatedAt := now}

-- The statements on the status; `none` where the WHERE clause meets no row.
def markCompleting (now : Int) (userId : String) (session : SessionRow) : Option SessionRow :=
  if session.userId = userId ∧ session.status = .active then
    some {session with status := .completing,updatedAt := now}
  else none

def reactivated (now : Int) (session : SessionRow) : SessionRow :=
  {session with status := .active,updatedAt := now}

def markComplete (now : Int) (session : SessionRow) : SessionRow :=
  {session with status := .complete,quotaReservedBytes := 0,updatedAt := now}

def markAborted (now : Int) (userId : String) (session : SessionRow) : Option SessionRow :=
  if session.userId = userId ∧ session.status.InFlight then
    some {session with status := .aborted,quotaReservedBytes := 0,updatedAt := now}
  else none

def Stale (now : Int) (session : SessionRow) : Prop :=
  session.status.InFlight ∧
    (session.expiresAt < now ∨ (session.status = .active ∧ session.updatedAt < now - sessionIdleSecs))

instance (now : Int) (session : SessionRow) : Decidable (session.Stale now) := inferInstanceAs (Decidable (_ ∧ _))

def expireStale (now : Int) (session : SessionRow) : SessionRow :=
  if session.Stale now then {session with status := .aborted,quotaReservedBytes := 0,updatedAt := now} else session

end SessionRow

namespace PartRow

-- `COALESCE($4, content_sha256)`
def upgraded (size : Int) (sha : Option String) (row : PartRow) : PartRow :=
  {row with sizeBytes := size,contentSha256 := sha <|> row.contentSha256}

def stamped (sha : Option String) (row : PartRow) : PartRow := {row with contentSha256 := sha}
def recorded (size : Int) (sha : Option String) : PartRow := ⟨size,sha,none⟩
def signed (token : String) (row : PartRow) : PartRow := {row with signedToken := some token}
-- Token row before the part exists: zero-size placeholder, confirm replaces the size.
def placeholder (token : String) : PartRow := ⟨0,none,some token⟩
-- `SET signed_token = NULL WHERE signed_token = $3`
def consumed (token : String) (row : PartRow) : PartRow :=
  if row.signedToken = some token then {row with signedToken := none} else row

end PartRow

-- What `record_part_with_checksum` does next, by the row its SELECT has shown.
inductive RecordPlan where
  | upgrade
  | stamp
  | keep
  | conflict
  | insert
  deriving DecidableEq, Repr

def recordPlan (existing : Option PartRow) (size : Int) (sha : Option String) : RecordPlan :=
  match existing with
  | none => .insert
  | some row =>
    if row.sizeBytes = 0 ∧ 0 < size then .upgrade
    else if row.sizeBytes = size ∧ (sha = none ∨ row.contentSha256 = sha ∨ row.contentSha256 = none) then
      if sha.isSome ∧ row.contentSha256 = none then .stamp else .keep
    else .conflict

def recordConflict : AppError := .conflict "part already uploaded with a different size or checksum"
def tokenConflict : AppError := .conflict "invalid or already used confirm_token"

section Sizes
variable {session : SessionRow} {x part size : Int}

-- What `create_session` has checked of the two sizes.
structure SessionRow.Sized (session : SessionRow) : Prop where
  positive : 0 < session.totalSize
  word : session.totalSize < 2^63
  least : minChunkSize ≤ session.chunkSize
  most : session.chunkSize ≤ maxChunkSize

theorem normalizeChunkSize_bounds (normal : normalizeChunkSize value = .ok chunkSize) :
    minChunkSize ≤ chunkSize ∧ chunkSize ≤ maxChunkSize := by
  unfold normalizeChunkSize at normal
  dsimp only at normal
  split at normal
  · rename_i bounds
    cases normal
    exact bounds
  · cases normal

theorem asI32_le (nonneg : 0 ≤ x) : asI32 x ≤ x := by
  have word : ((2^32 : Nat) : Int) = 4294967296 := rfl
  rw [asI32,Int.bmod_def,word]
  split
  · omega
  · omega

-- Whatever the casts make of the number of parts, none begins past the end.
theorem part_begins_inside (sized : session.Sized) (inside : part < totalParts session.totalSize session.chunkSize) :
    part * session.chunkSize < session.totalSize := by
  obtain ⟨positive,word,least,most⟩ := sized
  simp only [minChunkSize,maxChunkSize] at least most
  rw [totalParts,if_neg (Int.not_le.mpr positive)] at inside
  by_cases fits : session.totalSize + session.chunkSize - 1 < 2^63
  · have whole : asI64 (session.totalSize + session.chunkSize - 1) = session.totalSize + session.chunkSize - 1 :=
      Int.bmod_eq_of_le (by omega) (by omega)
    have start : 0 ≤ session.totalSize + session.chunkSize - 1 := by omega
    rw [whole,Int.tdiv_eq_ediv_of_nonneg start] at inside
    have quotient : 0 ≤ (session.totalSize + session.chunkSize - 1) / session.chunkSize := Int.ediv_nonneg start (by omega)
    have reach := Int.lt_of_lt_of_le inside (asI32_le quotient)
    have product := (Int.le_ediv_iff_mul_le (by omega : 0 < session.chunkSize)).mp (Int.add_one_le_of_lt reach)
    rw [Int.add_mul] at product
    omega
  · -- the sum has wrapped: what is left of it has 32 bits, and so have the parts
    have small := Int.bmod_lt (x := (asI64 (session.totalSize + session.chunkSize - 1)).tdiv session.chunkSize)
      (by decide : 0 < 2^32)
    have few : part < 2^31 := Int.lt_trans inside (Int.lt_of_lt_of_le small (by decide))
    have product := Int.mul_le_mul (Int.le_of_lt few) most (by omega) (by decide)
    omega

theorem expectedPartSize_ok (expected : expectedPartSize totalSize chunkSize part = .ok size) :
    0 ≤ part ∧ part < totalParts totalSize chunkSize ∧ size = min chunkSize (totalSize - part * chunkSize) := by
  unfold expectedPartSize at expected
  split at expected
  · cases expected
  · rename_i nonneg
    split at expected
    · cases expected
    · rename_i inside
      cases expected
      exact ⟨Int.not_lt.mp nonneg,Int.not_le.mp inside,rfl⟩

theorem expectedPartSize_positive (sized : session.Sized)
    (expected : expectedPartSize session.totalSize session.chunkSize part = .ok size) : 0 < size := by
  obtain ⟨_,inside,rfl⟩ := expectedPartSize_ok expected
  have begins := part_begins_inside sized inside
  have least := sized.least
  simp only [minChunkSize] at least
  omega

end Sizes

end Ownly.Uploads
