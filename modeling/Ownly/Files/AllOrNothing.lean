import Ownly.Files.Finalize

-- When a finaliser leaves either the whole file or nothing of it: the INSERT, the jobs
-- and the placement link are statements of their own, and the session goes back to
-- 'active' under the same file id after each error.
namespace Ownly.Files
open Storage (Key Bytes)
open Option

-- The answers of a call's statements in their order, up to the INSERT and behind it.
structure Answers where
  before : List (Option AppError)
  after : List (Option AppError)
  deriving DecidableEq, Repr

def firstFault : List (Option AppError) → Option AppError
  | [] => none
  | none :: rest => firstFault rest
  | some error :: _ => some error

-- No statement behind the INSERT fails, or one before it has already failed.
def Answers.Clean (answers : Answers) : Prop := firstFault answers.after = none ∨ firstFault answers.before ≠ none

instance (answers : Answers) : Decidable answers.Clean := inferInstanceAs (Decidable (_ ∨ _))

def plainAnswers (faults : Faults) (upload : Upload) : List (Option AppError) :=
  if upload.derives then [faults.enqueue,faults.link] else [faults.link]

def spooledAnswers (sha256 : Bytes → String) (faults : Faults) (tie : Nat) (lib : Library) (upload : Upload) (bytes : Bytes) : Answers :=
  match findDedupSource lib.files tie upload.userId (sha256 bytes) upload.sizeBytes upload.isVideo with
  | some _ => ⟨[faults.quota,faults.hash,faults.find,faults.insert],[faults.link]⟩
  | none =>
    if upload.isVideo then
      ⟨[faults.quota,faults.hash,faults.find,faults.reserve,faults.insert],
        [faults.enqueue,faults.enqueueThumbnail,faults.select,faults.link]⟩
    else ⟨[faults.quota,faults.hash,faults.find,faults.put,faults.insert],plainAnswers faults upload⟩

-- Behind the PUT of a staged upload.
def storedAnswers (sha256 : Bytes → String) (faults : Faults) (tie : Nat) (lib : Library) (upload : Upload) (bytes : Bytes) : Answers :=
  match findDedupSource lib.files tie upload.userId (sha256 bytes) upload.sizeBytes false with
  | some _ => ⟨[faults.put,faults.findAgain,faults.insert],[faults.link]⟩
  | none => ⟨[faults.put,faults.findAgain,faults.insert],plainAnswers faults upload⟩

def Answers.behind (faults : List (Option AppError)) (answers : Answers) : Answers := ⟨faults ++ answers.before,answers.after⟩

-- The finaliser `complete_session` calls.
def finalizerAnswers (sha256 : Bytes → String) (faults : Faults) (tie : Nat) (now : Int) (lib : Library) (sessionId : String)
    (session : Session) : Answers :=
  match instantSource tie lib session with
  | some _ => ⟨[faults.quota,faults.find,faults.insert],[faults.link]⟩
  | none =>
    if session.isVideo then
      spooledAnswers sha256 faults tie lib (session.upload session.totalSize now) ((lib.spools.get session.fileId).getD [])
    else
      (storedAnswers sha256 faults tie lib (session.upload session.totalSize now) ((lib.staged.get sessionId).getD [])).behind
        (faults.quota :: (if session.contentHash.isSome then [faults.find] else []))

def sessionAnswers (sha256 : Bytes → String) (faults : Faults) (tie : Nat) (now : Int) (lib : Library) (sessionId : String)
    (session : Session) : Answers :=
  (finalizerAnswers sha256 faults tie now lib sessionId session).behind
    (if session.contentHash.isSome then [faults.instant] else [])

structure Ready (tie : Nat) (lib : Library) (sessionId : String) (session : Session) : Prop where
  active : session.status = .active
  fresh : lib.files.get session.fileId = none
  positive : 0 < session.totalSize
  source : instantSource tie lib session ≠ none ∨ (session.received = true ∧
    if session.isVideo then ∃ bytes, resolveSessionSource lib session = .ok bytes
    else ∃ bytes, lib.staged.get sessionId = some bytes)

-- Ok leaves exactly one row of the file id, and an error none; then the session can be
-- completed again, and is when nothing fails.
def AllOrNothing (sha256 : Bytes → String) (faults : Faults) (tie : Nat) (now : Int) (lib : Library) (sessionId : String)
    (session : Session) : Prop :=
  ((completeSession sha256 faults tie now lib sessionId session).2.2 = .ok () →
    ∃ row, (completeSession sha256 faults tie now lib sessionId session).1.files = lib.files.set session.fileId row) ∧
  ∀ error, (completeSession sha256 faults tie now lib sessionId session).2.2 = .error error →
    (completeSession sha256 faults tie now lib sessionId session).1.files.get session.fileId = none ∧
      ∀ later, (completeSession sha256 noFaults tie later (completeSession sha256 faults tie now lib sessionId session).1 sessionId
        (completeSession sha256 faults tie now lib sessionId session).2.1).2.2 = .ok ()

-- The same of an upload in one request, which nobody retries under its file id.
def Whole (lib : Library) (fileId : String) (outcome : Outcome) : Prop :=
  (outcome.2 = .ok () → ∃ row, outcome.1.files = lib.files.set fileId row) ∧
    ∀ error, outcome.2 = .error error → outcome.1.files.get fileId = none

def answered : Option AppError → Except AppError Unit
  | none => .ok ()
  | some error => .error error

def Ends (kept : Library → Prop) (files : KeyMap String FileRow) (id : String) (answers : Answers) (outcome : Outcome) : Prop :=
  match firstFault answers.before with
  | some error => kept outcome.1 ∧ outcome.2 = .error error
  | none => (∃ row, outcome.1.files = files.set id row) ∧ outcome.2 = answered (firstFault answers.after)

def Settles (files : KeyMap String FileRow) (after : List (Option AppError)) (outcome : Outcome) : Prop :=
  outcome.1.files = files ∧ outcome.2 = answered (firstFault after)

variable {kept : Library → Prop} {files : KeyMap String FileRow} {id sessionId contentHash : String} {before after more : List (Option AppError)}
  {lib lib' : Library} {outcome : Outcome} {fault : Option AppError} {next : Library → Outcome} {row : FileRow}
  {faults : Faults} {upload : Upload} {session : Session} {tie : Nat} {now : Int} {bytes : Bytes} {source : DedupSource} {answers : Answers}

theorem ends_guarded (keeps : kept lib) (rest : Ends kept files id ⟨before,after⟩ outcome) :
    Ends kept files id ⟨fault :: before,after⟩ (guarded fault lib outcome) := by
  cases fault with
  | none => exact rest
  | some error => exact ⟨keeps,rfl⟩

theorem settles_guarded (same : lib.files = files) (rest : Settles files after outcome) :
    Settles files (fault :: after) (guarded fault lib outcome) := by
  cases fault with
  | none => exact rest
  | some error => exact ⟨same,rfl⟩

theorem settles_ok (same : lib.files = files) : Settles files [] (lib,.ok ()) := ⟨same,rfl⟩

theorem ends_insert (keeps : kept lib) (same : lib.files = files) (fresh : files.get id = none)
    (rest : ∀ lib', lib'.files = files.set id row → Settles (files.set id row) after (next lib')) :
    Ends kept files id ⟨[fault],after⟩ (insertRow fault id row lib next) := by
  cases fault with
  | some error => exact ⟨keeps,rfl⟩
  | none =>
    unfold insertRow guarded
    dsimp only
    rw [same,fresh]
    obtain ⟨left,answer⟩ := rest {lib with files := files.set id row} rfl
    exact ⟨⟨row,left⟩,answer⟩

theorem firstFault_append : firstFault (before ++ after) = (firstFault before).or (firstFault after) := by
  induction before with
  | nil => rfl
  | cons answer rest ih =>
    cases answer with
    | none => exact ih
    | some error => rfl

theorem ends_andThen (first : Ends kept files id ⟨before,after⟩ outcome)
    (rest : ∀ lib' row, lib'.files = files.set id row → Settles (files.set id row) more (next lib')) :
    Ends kept files id ⟨before,after ++ more⟩ (andThen outcome next) := by
  obtain ⟨lib,result⟩ := outcome
  unfold Ends at first ⊢
  dsimp only at first ⊢
  cases early : firstFault before with
  | some error =>
    rw [early] at first
    obtain ⟨keeps,answer⟩ := first
    rw [show result = .error error from answer]
    exact ⟨keeps,rfl⟩
  | none =>
    rw [early] at first
    obtain ⟨⟨row,same⟩,answer⟩ := first
    rw [firstFault_append]
    cases late : firstFault after with
    | some error =>
      rw [late] at answer
      rw [show result = .error error from answer]
      exact ⟨⟨row,same⟩,rfl⟩
    | none =>
      rw [late] at answer
      rw [show result = .ok () from answer]
      obtain ⟨left,last⟩ := rest lib row same
      exact ⟨⟨row,left⟩,last⟩

theorem ends_cleaned {clean : Library → Library} (kind : ∀ lib, (clean lib).files = lib.files) (first : Ends kept files id ⟨before,after⟩ outcome) :
    Ends kept files id ⟨before,after⟩ (andThen outcome (fun lib => (clean lib,.ok ()))) := by
  have ends : Ends kept files id ⟨before,after ++ []⟩ (andThen outcome (fun lib => (clean lib,.ok ()))) := by
    apply ends_andThen first
    intro lib' row left
    exact settles_ok ((kind lib').trans left)
  rw [List.append_nil] at ends
  exact ends

theorem ends_behind (asked : firstFault more = none) (rest : Ends kept files id answers outcome) :
    Ends kept files id (answers.behind more) outcome := by
  unfold Ends Answers.behind at *
  dsimp only
  rw [firstFault_append,asked]
  exact rest

theorem ends_weaken {kept' : Library → Prop} (weaken : ∀ lib, kept lib → kept' lib) (ends : Ends kept files id answers outcome) :
    Ends kept' files id answers outcome := by
  unfold Ends at *
  cases early : firstFault answers.before with
  | some error =>
    rw [early] at ends
    exact ⟨weaken _ ends.1,ends.2⟩
  | none =>
    rw [early] at ends
    exact ends

theorem ends_insertDeduped (keeps : kept lib) (same : lib.files = files) (fresh : files.get upload.fileId = none) :
    Ends kept files upload.fileId ⟨[faults.insert],[faults.link]⟩ (insertDedupedFile faults lib upload contentHash source) := by
  apply ends_insert keeps same fresh
  intro lib' left
  exact settles_guarded left (settles_ok left)

theorem ends_insertNonVideo {spooled : Bool} (keeps : kept lib) (same : lib.files = files) (fresh : files.get upload.fileId = none) :
    Ends kept files upload.fileId ⟨[faults.insert],if upload.derives then [faults.enqueue] else []⟩
      (insertNonVideoFileAndJobs faults lib upload contentHash spooled) := by
  apply ends_insert keeps same fresh
  intro lib' left
  cases upload.derives with
  | true => exact settles_guarded left (settles_ok left)
  | false =>
    cases spooled with
    | true => exact settles_ok left
    | false => exact settles_ok left

theorem ends_plain {spooled : Bool} (keeps : kept lib) (same : lib.files = files) (fresh : files.get upload.fileId = none)
    (linked : ∀ lib' row, lib'.files = files.set upload.fileId row →
      Settles (files.set upload.fileId row) [faults.link] (next lib')) :
    Ends kept files upload.fileId ⟨[faults.insert],plainAnswers faults upload⟩
      (andThen (insertNonVideoFileAndJobs faults lib upload contentHash spooled) next) := by
  have inserted : Ends kept files upload.fileId ⟨[faults.insert],if upload.derives then [faults.enqueue] else []⟩
      (insertNonVideoFileAndJobs faults lib upload contentHash spooled) := ends_insertNonVideo keeps same fresh
  have ends := ends_andThen inserted linked
  unfold plainAnswers
  cases derives : upload.derives with
  | true =>
    rw [derives] at ends
    exact ends
  | false =>
    rw [derives] at ends
    exact ends

section Finalisers
variable {sha256 : Bytes → String}

theorem ends_newBlob (keeps : kept lib) (spoiled : upload.isVideo = false → ∀ lib', lib'.files = lib.files → kept lib')
    (fresh : lib.files.get upload.fileId = none) :
    Ends kept lib.files upload.fileId
      (if upload.isVideo then ⟨[faults.reserve,faults.insert],[faults.enqueue,faults.enqueueThumbnail,faults.select,faults.link]⟩
      else ⟨[faults.put,faults.insert],plainAnswers faults upload⟩)
      (finalizeNewBlobFromSpool faults lib upload contentHash bytes) := by
  unfold finalizeNewBlobFromSpool
  cases video : upload.isVideo with
  | true =>
    rw [if_pos rfl,if_pos rfl]
    refine ends_guarded keeps (ends_insert keeps rfl fresh ?_)
    intro lib' left
    exact settles_guarded left (settles_guarded left (settles_guarded left (settles_guarded left (settles_ok left))))
  | false =>
    rw [if_neg Bool.false_ne_true,if_neg Bool.false_ne_true]
    cases failed : faults.put with
    | some error => exact ⟨spoiled video _ rfl,rfl⟩
    | none =>
      refine ends_plain (spoiled video _ rfl) rfl fresh ?_
      intro lib' row left
      exact settles_guarded left (settles_ok left)

theorem ends_spooled (positive : upload.sizeBytes ≠ 0) (found : lib.spools.get upload.fileId = some bytes) (keeps : kept lib)
    (spoiled : upload.isVideo = false → ∀ lib', lib'.files = lib.files → kept lib') (fresh : lib.files.get upload.fileId = none) :
    Ends kept lib.files upload.fileId (spooledAnswers sha256 faults tie lib upload bytes)
      (finalizeSpooledUpload sha256 faults tie lib upload) := by
  unfold finalizeSpooledUpload spooledAnswers
  rw [if_neg positive,found]
  dsimp only
  cases shared : findDedupSource lib.files tie upload.userId (sha256 bytes) upload.sizeBytes upload.isVideo with
  | some source =>
    have inserted : Ends kept lib.files upload.fileId ⟨[faults.insert],[faults.link]⟩ (insertDedupedFile faults lib upload (sha256 bytes) source) :=
      ends_insertDeduped keeps rfl fresh
    exact ends_guarded keeps (ends_guarded keeps (ends_guarded keeps (ends_cleaned (fun _ => rfl) inserted)))
  | none =>
    have ends : Ends kept lib.files upload.fileId _ (finalizeNewBlobFromSpool faults lib upload (sha256 bytes) bytes) :=
      ends_newBlob keeps spoiled fresh
    cases video : upload.isVideo with
    | true =>
      rw [video,if_pos rfl] at ends
      exact ends_guarded keeps (ends_guarded keeps (ends_guarded keeps ends))
    | false =>
      rw [video,if_neg Bool.false_ne_true] at ends
      exact ends_guarded keeps (ends_guarded keeps (ends_guarded keeps ends))

theorem ends_instant (positive : upload.sizeBytes ≠ 0)
    (shared : findDedupSource lib.files tie upload.userId contentHash upload.sizeBytes upload.isVideo = some source)
    (keeps : kept lib) (fresh : lib.files.get upload.fileId = none) :
    Ends kept lib.files upload.fileId ⟨[faults.quota,faults.find,faults.insert],[faults.link]⟩
      (finalizeInstantDedupUpload faults tie lib upload contentHash) := by
  unfold finalizeInstantDedupUpload
  rw [if_neg positive,shared]
  exact ends_guarded keeps (ends_guarded keeps (ends_insertDeduped keeps rfl fresh))

theorem ends_put (found : lib.staged.get sessionId = some bytes) (keeps : ∀ blobs, kept {lib with blobs := blobs})
    (fresh : lib.files.get upload.fileId = none) :
    Ends kept lib.files upload.fileId (storedAnswers sha256 faults tie lib upload bytes)
      (putStagedUpload sha256 faults tie lib upload sessionId) := by
  unfold putStagedUpload storedAnswers
  rw [found]
  dsimp only
  cases shared : findDedupSource lib.files tie upload.userId (sha256 bytes) upload.sizeBytes false with
  | some source =>
    refine ends_guarded (keeps lib.blobs) (ends_guarded (keeps _) (ends_cleaned (fun _ => rfl) (ends_insertDeduped ?_ ?_ fresh)))
    · cases faults.deleteFails with
      | true => exact keeps _
      | false => exact keeps _
    · cases faults.deleteFails with
      | true => rfl
      | false => rfl
  | none =>
    refine ends_guarded (keeps lib.blobs) (ends_guarded (keeps _) (ends_plain (keeps _) rfl fresh ?_))
    intro lib' row left
    exact settles_guarded left (settles_ok left)

theorem ends_staged {knownContentHash : Option String} (positive : upload.sizeBytes ≠ 0) (plain : upload.isVideo = false)
    (unknown : ∀ hash ∈ knownContentHash, findDedupSource lib.files tie upload.userId hash upload.sizeBytes false = none)
    (found : lib.staged.get sessionId = some bytes) (keeps : ∀ blobs, kept {lib with blobs := blobs})
    (fresh : lib.files.get upload.fileId = none) :
    Ends kept lib.files upload.fileId ((storedAnswers sha256 faults tie lib upload bytes).behind
        (faults.quota :: (if knownContentHash.isSome then [faults.find] else [])))
      (finalizeStagedUpload sha256 faults tie lib upload sessionId knownContentHash) := by
  have stored : Ends kept lib.files upload.fileId (storedAnswers sha256 faults tie lib upload bytes)
      (putStagedUpload sha256 faults tie lib upload sessionId) := ends_put found keeps fresh
  unfold finalizeStagedUpload
  rw [if_neg positive,plain]
  cases knownContentHash with
  | none => exact ends_guarded (keeps lib.blobs) stored
  | some hash =>
    dsimp only
    rw [unknown hash rfl]
    exact ends_guarded (keeps lib.blobs) (ends_guarded (keeps lib.blobs) stored)

-- What a call that fails before its INSERT has left alone.
def Kept (lib lib' : Library) : Prop := lib'.files = lib.files ∧ lib'.staged = lib.staged ∧ lib'.spools = lib.spools

section
variable (ready : Ready tie lib sessionId session)
include ready

theorem ready_kept (same : Kept lib lib') : Ready tie lib' sessionId session := by
  obtain ⟨files,staged,spools⟩ := same
  obtain ⟨active,fresh,positive,source⟩ := ready
  refine ⟨active,by rw [files]; exact fresh,positive,?_⟩
  unfold instantSource resolveSessionSource at *
  rw [files,staged,spools]
  exact source

theorem ends_session :
    Ends (Kept lib) lib.files session.fileId (finalizerAnswers sha256 faults tie now lib sessionId session)
      (finalizeSession sha256 faults tie now lib sessionId session) := by
  obtain ⟨_,fresh,positive,source⟩ := ready
  have filled : session.totalSize ≠ 0 := Int.ne_of_gt positive
  have keeps : ∀ blobs, Kept lib {lib with blobs := blobs} := fun _ => ⟨rfl,rfl,rfl⟩
  unfold finalizeSession finalizerAnswers
  cases instant : instantSource tie lib session with
  | some source =>
    obtain ⟨hash,declared,shared⟩ := bind_eq_some_iff.mp instant
    rw [declared]
    have shares : Ends (Kept lib) lib.files (session.upload session.totalSize now).fileId
        ⟨[faults.quota,faults.find,faults.insert],[faults.link]⟩
        (finalizeInstantDedupUpload faults tie lib (session.upload session.totalSize now) hash) :=
      ends_instant filled shared (keeps lib.blobs) fresh
    refine ends_cleaned ?_ shares
    intro lib
    cases session.isVideo with
    | true => rfl
    | false => rfl
  | none =>
    obtain ⟨_,there⟩ := source.resolve_left (fun known => known instant)
    cases video : session.isVideo with
    | true =>
      rw [video,if_pos rfl] at there
      obtain ⟨bytes,resolved⟩ := there
      obtain ⟨spooled,whole⟩ := resolveSessionSource_ok resolved
      dsimp only
      rw [if_pos rfl,if_pos rfl,resolved,spooled,getD_some]
      dsimp only
      rw [whole]
      refine ends_spooled filled spooled (keeps lib.blobs) ?_ fresh
      intro plain
      rw [show session.isVideo = false from plain] at video
      cases video
    | false =>
      rw [video,if_neg Bool.false_ne_true] at there
      obtain ⟨bytes,staged⟩ := there
      dsimp only
      rw [if_neg Bool.false_ne_true,if_neg Bool.false_ne_true,staged,getD_some]
      refine ends_staged filled video ?_ staged keeps fresh
      intro hash declared
      unfold instantSource at instant
      rw [show session.contentHash = some hash from declared,video] at instant
      exact instant

theorem ends_complete :
    Ends (Kept lib) lib.files session.fileId (sessionAnswers sha256 faults tie now lib sessionId session)
        ((completeSession sha256 faults tie now lib sessionId session).1,
          (completeSession sha256 faults tie now lib sessionId session).2.2) ∧
      ∀ error, (completeSession sha256 faults tie now lib sessionId session).2.2 = .error error →
        (completeSession sha256 faults tie now lib sessionId session).2.1 = session := by
  have ends : Ends (Kept lib) lib.files session.fileId (finalizerAnswers sha256 faults tie now lib sessionId session)
      (finalizeSession sha256 faults tie now lib sessionId session) := ends_session ready
  have there : ¬(instantSource tie lib session = none ∧ session.received = false) := by
    rintro ⟨unknown,missing⟩
    rcases ready.source with known | ⟨received,_⟩
    · exact known unknown
    · rw [received] at missing
      cases missing
  have asked : session.contentHash.bind (fun _ => faults.instant) =
      firstFault (if session.contentHash.isSome then [faults.instant] else []) := by
    cases session.contentHash with
    | none => rfl
    | some hash =>
      rw [isSome_some,if_pos rfl,bind_some]
      cases faults.instant with
      | none => rfl
      | some error => rfl
  unfold completeSession
  rw [if_neg (not_not.mpr ready.active),asked]
  unfold sessionAnswers
  cases early : firstFault (if session.contentHash.isSome then [faults.instant] else []) with
  | some error =>
    refine ⟨?_,fun _ _ => rfl⟩
    unfold Ends Answers.behind
    dsimp only
    rw [firstFault_append,early]
    exact ⟨⟨rfl,rfl,rfl⟩,rfl⟩
  | none =>
    dsimp only
    rw [if_neg there]
    obtain ⟨⟨left,result⟩,finished⟩ : ∃ outcome, finalizeSession sha256 faults tie now lib sessionId session = outcome := ⟨_,rfl⟩
    rw [finished] at ends ⊢
    cases result with
    | ok _ => exact ⟨ends_behind early ends,fun _ same => by cases same⟩
    | error error =>
      refine ⟨ends_behind early ends,?_⟩
      intro _ _
      dsimp only
      rw [← ready.active]

end

def Answers.Quiet (answers : Answers) : Prop := firstFault answers.before = none ∧ firstFault answers.after = none

theorem quiet_behind (asked : firstFault more = none) (quiet : answers.Quiet) : (answers.behind more).Quiet := by
  obtain ⟨before,after⟩ := quiet
  refine ⟨?_,after⟩
  unfold Answers.behind
  rw [firstFault_append,asked]
  exact before

theorem plain_quiet : firstFault (plainAnswers noFaults upload) = none := by
  unfold plainAnswers
  split
  · rfl
  · rfl

theorem spooled_quiet : (spooledAnswers sha256 noFaults tie lib upload bytes).Quiet := by
  unfold spooledAnswers
  split
  · exact ⟨rfl,rfl⟩
  · split
    · exact ⟨rfl,rfl⟩
    · exact ⟨rfl,plain_quiet⟩

theorem stored_quiet : (storedAnswers sha256 noFaults tie lib upload bytes).Quiet := by
  unfold storedAnswers
  split
  · exact ⟨rfl,rfl⟩
  · exact ⟨rfl,plain_quiet⟩

theorem session_quiet : (sessionAnswers sha256 noFaults tie now lib sessionId session).Quiet := by
  have asked : ∀ known : Bool, firstFault (if known then [noFaults.instant] else []) = none := by
    intro known
    cases known with
    | true => rfl
    | false => rfl
  have found : ∀ known : Bool, firstFault (noFaults.quota :: (if known then [noFaults.find] else [])) = none := by
    intro known
    cases known with
    | true => rfl
    | false => rfl
  refine quiet_behind (asked _) ?_
  unfold finalizerAnswers
  split
  · exact ⟨rfl,rfl⟩
  · split
    · exact spooled_quiet
    · exact quiet_behind (found _) stored_quiet

theorem retried (ready : Ready tie lib sessionId session) : (completeSession sha256 noFaults tie now lib sessionId session).2.2 = .ok () := by
  have ends : Ends (Kept lib) lib.files session.fileId (sessionAnswers sha256 noFaults tie now lib sessionId session) _ :=
    (ends_complete ready).1
  obtain ⟨early,late⟩ : (sessionAnswers sha256 noFaults tie now lib sessionId session).Quiet := session_quiet
  unfold Ends at ends
  rw [early,late] at ends
  exact ends.2

theorem whole_iff (fresh : lib.files.get id = none) (ends : Ends (fun lib' => lib'.files = lib.files) lib.files id answers outcome) :
    Whole lib id outcome ↔ answers.Clean := by
  unfold Ends at ends
  unfold Answers.Clean
  cases early : firstFault answers.before with
  | some error =>
    rw [early] at ends
    obtain ⟨same,failed⟩ := ends
    refine iff_of_true ⟨?_,?_⟩ (.inr (fun none => by cases none))
    · intro succeeded
      rw [failed] at succeeded
      cases succeeded
    · intro _ _
      rw [same]
      exact fresh
  | none =>
    rw [early] at ends
    obtain ⟨⟨row,inserted⟩,answer⟩ := ends
    cases late : firstFault answers.after with
    | none =>
      rw [late] at answer
      refine iff_of_true ⟨fun _ => ⟨row,inserted⟩,?_⟩ (.inl rfl)
      intro error failed
      rw [answer] at failed
      cases failed
    | some error =>
      rw [late] at answer
      refine iff_of_false ?_ ?_
      · rintro ⟨_,none⟩
        have missing := none error answer
        rw [inserted,KeyMap.get_set_self] at missing
        cases missing
      · rintro (clean | failed)
        · cases clean
        · exact failed rfl

end Finalisers

-- The whole file or nothing of it, exactly where no statement behind the INSERT is the
-- first to fail: of every session that can be completed, and of every upload in one
-- request.
theorem finalisation_all_or_nothing (sha256 : Bytes → String) (faults : Faults) (tie : Nat) (now : Int) (lib : Library) :
    (∀ sessionId session, Ready tie lib sessionId session →
      (AllOrNothing sha256 faults tie now lib sessionId session ↔
        (sessionAnswers sha256 faults tie now lib sessionId session).Clean)) ∧
    ∀ upload bytes, lib.files.get upload.fileId = none → upload.sizeBytes ≠ 0 → lib.spools.get upload.fileId = some bytes →
      (Whole lib upload.fileId (finalizeSpooledUpload sha256 faults tie lib upload) ↔
        (spooledAnswers sha256 faults tie lib upload bytes).Clean) := by
  refine ⟨?_,?_⟩
  · intro sessionId session ready
    obtain ⟨ends,back⟩ : Ends (Kept lib) lib.files session.fileId (sessionAnswers sha256 faults tie now lib sessionId session) _ ∧ _ :=
      ends_complete ready
    rw [← whole_iff ready.fresh (ends_weaken (fun _ kept => kept.1) ends)]
    refine ⟨fun whole => ⟨whole.1,fun error failed => (whole.2 error failed).1⟩,?_⟩
    intro whole
    refine ⟨whole.1,?_⟩
    intro error failed
    refine ⟨whole.2 error failed,?_⟩
    intro later
    rw [back error failed]
    refine retried (ready_kept ready ?_)
    -- an error with no row was the answer of a statement before the INSERT
    unfold Ends at ends
    split at ends
    · exact ends.1
    · obtain ⟨⟨row,inserted⟩,_⟩ := ends
      have missing := whole.2 error failed
      rw [inserted,KeyMap.get_set_self] at missing
      cases missing
  · intro upload bytes fresh filled spooled
    exact whole_iff fresh (ends_spooled filled spooled rfl (fun _ _ same => same) fresh)

def picture : Bytes := [116,101,115,116]

def pictureDigest : Bytes → String := fun _ => "9f86d081884c7d659a2feaa0c55ad015a3bf4f1b2b0b822cd15d6c15b0f00a08"

def pictureSession : Session := ⟨"u","f","image/png",false,false,4,none,true,.active⟩

def pictureStaged : Library := ⟨KeyMap.empty,KeyMap.empty,KeyMap.empty,KeyMap.empty.set "s" picture,KeyMap.empty⟩

theorem picture_ready : Ready 0 pictureStaged "s" pictureSession :=
  ⟨rfl,rfl,by decide,.inr ⟨rfl,⟨picture,rfl⟩⟩⟩

theorem finalisation_all_or_nothing_insert : (∃ error, (completeSession pictureDigest {noFaults with insert := some (.database "down")} 0 1
      pictureStaged "s" pictureSession).2.2 = .error error) ∧
    AllOrNothing pictureDigest {noFaults with insert := some (.database "down")} 0 1 pictureStaged "s" pictureSession := by
  refine ⟨⟨.database "down",by decide +kernel⟩,?_⟩
  exact ((finalisation_all_or_nothing _ _ _ _ _).1 "s" pictureSession picture_ready).mpr (by decide +kernel)

def jobLimit : Faults := {noFaults with enqueue := some (.rateLimited 60)}

def leftOf (outcome : Library × Session × Except AppError Unit) : Except AppError Unit × Bool × Option Bytes :=
  (outcome.2.2,(outcome.1.files.get "f").isSome,outcome.1.blobs.get (storageKey "u" "f"))

theorem finalisation_half_done : Ready 0 pictureStaged "s" pictureSession ∧
    leftOf (completeSession pictureDigest jobLimit 0 1 pictureStaged "s" pictureSession) =
      (.error (.rateLimited 60),true,some picture) ∧
    leftOf (completeSession pictureDigest noFaults 0 2
      (completeSession pictureDigest jobLimit 0 1 pictureStaged "s" pictureSession).1 "s" pictureSession) =
      (.error duplicateKey,true,none) ∧
    ¬AllOrNothing pictureDigest jobLimit 0 1 pictureStaged "s" pictureSession := by
  have failed : leftOf (completeSession pictureDigest jobLimit 0 1 pictureStaged "s" pictureSession) =
      (.error (.rateLimited 60),true,some picture) := by decide +kernel
  refine ⟨picture_ready,failed,by decide +kernel,?_⟩
  intro whole
  obtain ⟨answer,rest⟩ := Prod.mk.inj failed
  obtain ⟨there,_⟩ := Prod.mk.inj rest
  have missing := (whole.2 _ answer).1
  rw [show (completeSession pictureDigest jobLimit 0 1 pictureStaged "s" pictureSession).1.files.get "f" = none from missing] at there
  cases there

end Ownly.Files
