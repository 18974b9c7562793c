import Ownly.Files.Finalize

-- What the finalisers write, whatever their statements answer: at most one row under
-- the upload's file id, and no object but the one under its own key.
namespace Ownly.Files
open Storage (Key Bytes)
open KeyMap

structure Writes (lib : Library) (upload : Upload) (out : Library) (row : Option FileRow) (own : Option Bytes) : Prop where
  files : out.files = match row with
    | none => lib.files
    | some inserted => lib.files.set upload.fileId inserted
  fresh : row ≠ none → lib.files.get upload.fileId = none
  own : out.blobs.get upload.key = own
  others : ∀ key, key ≠ upload.key → out.blobs.get key = lib.blobs.get key
  bundles : out.bundles = lib.bundles
  staged : ∀ id bytes, out.staged.get id = some bytes → lib.staged.get id = some bytes
  spools : ∀ id bytes, out.spools.get id = some bytes → lib.spools.get id = some bytes

def Leaves (lib : Library) (upload : Upload) (rows : FileRow → Prop) (own : Option Bytes) (outcome : Outcome) : Prop :=
  ∃ row, Writes lib upload outcome.1 row own ∧ (∀ inserted ∈ row, rows inserted) ∧ (outcome.2 = .ok () → row ≠ none)

inductive Filed (sha256 : Bytes → String) (lib : Library) (tie : Nat) (upload : Upload) (bytes : Bytes) (own : Option Bytes) :
    FileRow → Prop where
  | shared (source : DedupSource)
      (found : findDedupSource lib.files tie upload.userId (sha256 bytes) upload.sizeBytes upload.isVideo = some source) :
      Filed sha256 lib tie upload bytes own (dedupedRow upload (sha256 bytes) source.row)
  | plain (still : upload.isVideo = false) (stored : own = some bytes) :
      Filed sha256 lib tie upload bytes own (plainRow upload (sha256 bytes))
  | video (moving : upload.isVideo = true) : Filed sha256 lib tie upload bytes own (videoRow upload (sha256 bytes))

def stagedOwn (sha256 : Bytes → String) (faults : Faults) (tie : Nat) (lib : Library) (upload : Upload) (sessionId : String) :
    Option Bytes :=
  match lib.staged.get sessionId with
  | none => lib.blobs.get upload.key
  | some bytes =>
    if faults.put ≠ none then lib.blobs.get upload.key
    else if faults.findAgain = none ∧ faults.deleteFails = false ∧
        findDedupSource lib.files tie upload.userId (sha256 bytes) upload.sizeBytes false ≠ none then none
    else some bytes

def ReachesPut (faults : Faults) (tie : Nat) (lib : Library) (session : Session) : Prop :=
  session.status = .active ∧ session.isVideo = false ∧ session.received = true ∧ session.totalSize ≠ 0 ∧
    instantSource tie lib session = none ∧ (session.contentHash = none ∨ (faults.instant = none ∧ faults.find = none)) ∧
    faults.quota = none

instance (faults : Faults) (tie : Nat) (lib : Library) (session : Session) : Decidable (ReachesPut faults tie lib session) :=
  inferInstanceAs (Decidable (_ ∧ _))

def completedOwn (sha256 : Bytes → String) (faults : Faults) (tie : Nat) (now : Int) (lib : Library) (sessionId : String)
    (session : Session) : Option Bytes :=
  if ReachesPut faults tie lib session then
    stagedOwn sha256 faults tie lib (session.upload session.totalSize now) sessionId
  else lib.blobs.get (storageKey session.fileOwnerId session.fileId)

variable {lib lib' : Library} {upload : Upload} {rows rows' : FileRow → Prop} {own : Option Bytes} {outcome : Outcome}
  {fault : Option AppError} {faults : Faults} {row : FileRow} {next : Library → Outcome} {contentHash sessionId : String}
  {source : DedupSource} {bytes : Bytes} {tie : Nat} {error : AppError}

theorem staged_cleaned {id : String} {staged : KeyMap String Bytes} (found : (staged.remove sessionId).get id = some bytes) :
    staged.get id = some bytes := by
  by_cases here : id = sessionId
  · rw [here,get_remove_self] at found
    cases found
  · rw [get_remove_ne here] at found
    exact found

theorem writes_nothing : Writes lib upload lib none (lib.blobs.get upload.key) :=
  ⟨rfl,fun some => absurd rfl some,rfl,fun _ _ => rfl,rfl,fun _ _ found => found,fun _ _ found => found⟩

theorem leaves_error (writes : Writes lib upload lib' none own) : Leaves lib upload rows own (lib',.error error) :=
  ⟨none,writes,fun _ member => (by cases member),fun same => by cases same⟩

theorem leaves_filed {result : Except AppError Unit} (writes : Writes lib upload lib' (some row) own) (made : rows row) :
    Leaves lib upload rows own (lib',result) :=
  ⟨some row,writes,fun _ member => (by cases member; exact made),fun _ same => by cases same⟩

theorem leaves_guarded (writes : Writes lib upload lib' none own) (rest : Leaves lib upload rows own outcome) :
    Leaves lib upload rows own (guarded fault lib' outcome) := by
  cases fault with
  | none => exact rest
  | some error => exact leaves_error writes

theorem leaves_behind (writes : Writes lib upload lib' (some row) own) (made : rows row) (rest : Leaves lib upload rows own outcome) :
    Leaves lib upload rows own (guarded fault lib' outcome) := by
  cases fault with
  | none => exact rest
  | some error => exact leaves_filed writes made

theorem leaves_insertRow (before : Writes lib upload lib' none own)
    (rest : ∀ stored, Writes lib upload stored (some row) own → Leaves lib upload rows own (next stored)) :
    Leaves lib upload rows own (insertRow fault upload.fileId row lib' next) := by
  refine leaves_guarded before ?_
  cases found : lib'.files.get upload.fileId with
  | some _ => exact leaves_error before
  | none =>
    have same : lib'.files = lib.files := before.files
    refine rest _ ⟨?_,?_,before.own,before.others,before.bundles,before.staged,before.spools⟩
    · rw [same]
    · intro _
      rw [← same]
      exact found

theorem leaves_andThen (first : Leaves lib upload rows own outcome)
    (rest : ∀ stored row, Writes lib upload stored (some row) own → rows row → Leaves lib upload rows own (next stored)) :
    Leaves lib upload rows own (andThen outcome next) := by
  obtain ⟨stored,result⟩ := outcome
  obtain ⟨row,writes,made,answered⟩ := first
  cases result with
  | error error => exact ⟨row,writes,made,fun same => by cases same⟩
  | ok _ =>
    cases row with
    | none => exact absurd rfl (answered rfl)
    | some inserted => exact rest stored inserted writes (made inserted rfl)

theorem Writes.cleanWorkDir {row : Option FileRow} {fileId : String} (writes : Writes lib upload lib' row own) :
    Writes lib upload (lib'.cleanWorkDir fileId) row own :=
  ⟨writes.files,writes.fresh,writes.own,writes.others,writes.bundles,writes.staged,
    fun id bytes found => writes.spools id bytes (staged_cleaned found)⟩

theorem Writes.cleanStaging {row : Option FileRow} (writes : Writes lib upload lib' row own) :
    Writes lib upload (lib'.cleanStaging sessionId) row own :=
  ⟨writes.files,writes.fresh,writes.own,writes.others,writes.bundles,
    fun id bytes found => writes.staged id bytes (staged_cleaned found),writes.spools⟩

theorem writes_put : Writes lib upload {lib with blobs := lib.blobs.set upload.key bytes} none (some bytes) :=
  ⟨rfl,fun some => absurd rfl some,get_set_self,fun _ ne => get_set_ne ne,rfl,fun _ _ found => found,
    fun _ _ found => found⟩

theorem writes_dropped : Writes lib upload {lib with blobs := (lib.blobs.set upload.key bytes).remove upload.key} none none := by
  refine ⟨rfl,fun some => absurd rfl some,get_remove_self,?_,rfl,fun _ _ found => found,fun _ _ found => found⟩
  intro key ne
  dsimp only
  rw [get_remove_ne ne,get_set_ne ne]

theorem leaves_insertDeduped (before : Writes lib upload lib' none own) (made : rows (dedupedRow upload contentHash source.row)) :
    Leaves lib upload rows own (insertDedupedFile faults lib' upload contentHash source) := by
  apply leaves_insertRow before
  intro stored writes
  exact leaves_behind writes made (leaves_filed writes made)

theorem leaves_insertNonVideo {spooled : Bool} (before : Writes lib upload lib' none own) (made : rows (plainRow upload contentHash)) :
    Leaves lib upload rows own (insertNonVideoFileAndJobs faults lib' upload contentHash spooled) := by
  apply leaves_insertRow before
  intro stored writes
  cases upload.derives with
  | true => exact leaves_behind writes made (leaves_filed writes made)
  | false =>
    cases spooled with
    | true => exact leaves_filed writes.cleanWorkDir made
    | false => exact leaves_filed writes made

section Finalisers
variable {sha256 : Bytes → String} {session : Session} {now : Int}

theorem leaves_newBlob : ∃ own, Leaves lib upload (Filed sha256 lib tie upload bytes own) own
      (finalizeNewBlobFromSpool faults lib upload (sha256 bytes) bytes) ∧
    (upload.isVideo = true → own = lib.blobs.get upload.key) := by
  unfold finalizeNewBlobFromSpool
  cases video : upload.isVideo with
  | true =>
    refine ⟨lib.blobs.get upload.key,?_,fun _ => rfl⟩
    rw [if_pos rfl]
    refine leaves_guarded writes_nothing (leaves_insertRow writes_nothing ?_)
    intro stored writes
    have made : Filed sha256 lib tie upload bytes (lib.blobs.get upload.key) (videoRow upload (sha256 bytes)) := .video video
    exact leaves_behind writes made (leaves_behind writes made (leaves_behind writes made (leaves_behind writes made
      (leaves_filed writes made))))
  | false =>
    cases faults.put with
    | some error =>
      refine ⟨lib.blobs.get upload.key,?_,fun same => by cases same⟩
      rw [if_neg Bool.false_ne_true]
      exact leaves_error writes_nothing.cleanWorkDir
    | none =>
      refine ⟨some bytes,?_,fun same => by cases same⟩
      rw [if_neg Bool.false_ne_true]
      refine leaves_andThen (leaves_insertNonVideo writes_put (.plain video rfl)) ?_
      intro stored row writes made
      exact leaves_behind writes made (leaves_filed writes made)

theorem leaves_spooled (spooled : ∀ found, lib.spools.get upload.fileId = some found → found = bytes) :
    ∃ own, Leaves lib upload (Filed sha256 lib tie upload bytes own) own (finalizeSpooledUpload sha256 faults tie lib upload) ∧
      (upload.isVideo = true → own = lib.blobs.get upload.key) := by
  have refused : ∀ error, ∃ own, Leaves lib upload (Filed sha256 lib tie upload bytes own) own (lib,.error error) ∧
      (upload.isVideo = true → own = lib.blobs.get upload.key) :=
    fun error => ⟨lib.blobs.get upload.key,leaves_error writes_nothing,fun _ => rfl⟩
  unfold finalizeSpooledUpload
  by_cases empty : upload.sizeBytes = 0
  · rw [if_pos empty]
    exact ⟨lib.blobs.get upload.key,leaves_error writes_nothing.cleanWorkDir,fun _ => rfl⟩
  · rw [if_neg empty]
    cases faults.quota with
    | some error => exact refused error
    | none =>
      cases source : lib.spools.get upload.fileId with
      | none => exact refused _
      | some found =>
        obtain rfl := spooled found source
        cases faults.hash with
        | some error => exact refused error
        | none =>
          cases faults.find with
          | some error => exact refused error
          | none =>
            dsimp only [guarded]
            cases shared : findDedupSource lib.files tie upload.userId (sha256 found) upload.sizeBytes upload.isVideo with
            | some source =>
              refine ⟨lib.blobs.get upload.key,?_,fun _ => rfl⟩
              refine leaves_andThen (leaves_insertDeduped writes_nothing (.shared source shared)) ?_
              intro stored row writes made
              exact leaves_filed writes.cleanWorkDir made
            | none => exact leaves_newBlob

theorem leaves_instant (declared : contentHash = sha256 bytes) :
    Leaves lib upload (Filed sha256 lib tie upload bytes (lib.blobs.get upload.key)) (lib.blobs.get upload.key)
      (finalizeInstantDedupUpload faults tie lib upload contentHash) := by
  unfold finalizeInstantDedupUpload
  split
  · exact leaves_error writes_nothing
  · refine leaves_guarded writes_nothing (leaves_guarded writes_nothing ?_)
    cases shared : findDedupSource lib.files tie upload.userId contentHash upload.sizeBytes upload.isVideo with
    | none => exact leaves_error writes_nothing
    | some source =>
      rw [declared] at shared ⊢
      exact leaves_insertDeduped writes_nothing (.shared source shared)

theorem leaves_put (still : upload.isVideo = false) (staged : ∀ found, lib.staged.get sessionId = some found → found = bytes) :
    Leaves lib upload (Filed sha256 lib tie upload bytes (stagedOwn sha256 faults tie lib upload sessionId))
      (stagedOwn sha256 faults tie lib upload sessionId) (putStagedUpload sha256 faults tie lib upload sessionId) := by
  unfold putStagedUpload stagedOwn
  cases there : lib.staged.get sessionId with
  | none => exact leaves_error writes_nothing
  | some found =>
    obtain rfl := staged found there
    dsimp only
    cases faults.put with
    | some error =>
      rw [if_pos (fun same => by cases same)]
      exact leaves_error writes_nothing
    | none =>
      rw [if_neg (fun some => some rfl)]
      cases faults.findAgain with
      | some error =>
        rw [if_neg (fun all => by cases all.1)]
        exact leaves_error writes_put
      | none =>
        dsimp only [guarded]
        cases shared : findDedupSource lib.files tie upload.userId (sha256 found) upload.sizeBytes false with
        | some source =>
          have found' : findDedupSource lib.files tie upload.userId (sha256 found) upload.sizeBytes upload.isVideo = some source := by
            rw [still]
            exact shared
          cases faults.deleteFails with
          | true =>
            rw [if_neg (fun all => by cases all.2.1)]
            refine leaves_andThen (leaves_insertDeduped writes_put (.shared source found')) ?_
            intro stored row writes made
            exact leaves_filed writes.cleanStaging made
          | false =>
            rw [if_pos ⟨rfl,rfl,fun same => by cases same⟩]
            refine leaves_andThen (leaves_insertDeduped writes_dropped (.shared source found')) ?_
            intro stored row writes made
            exact leaves_filed writes.cleanStaging made
        | none =>
          rw [if_neg (fun all => all.2.2 rfl)]
          refine leaves_andThen (leaves_insertNonVideo writes_put (.plain still rfl)) ?_
          intro stored row writes made
          exact leaves_behind writes.cleanStaging made (leaves_filed writes.cleanStaging made)

theorem completedOwn_else (short : ¬ReachesPut faults tie lib session) :
    completedOwn sha256 faults tie now lib sessionId session = lib.blobs.get (session.upload session.totalSize now).key := if_neg short

theorem leaves_staged (session : Session) (still : session.isVideo = false) (active : session.status = .active)
    (received : session.received = true) (unknown : instantSource tie lib session = none)
    (asked : session.contentHash.bind (fun _ => faults.instant) = none)
    (staged : ∀ found, lib.staged.get sessionId = some found → found = bytes) :
    Leaves lib (session.upload session.totalSize now)
      (Filed sha256 lib tie (session.upload session.totalSize now) bytes (completedOwn sha256 faults tie now lib sessionId session))
      (completedOwn sha256 faults tie now lib sessionId session)
      (finalizeStagedUpload sha256 faults tie lib (session.upload session.totalSize now) sessionId session.contentHash) := by
  have puts : (session.contentHash = none ∨ (faults.instant = none ∧ faults.find = none)) → session.totalSize ≠ 0 → faults.quota = none →
      Leaves lib (session.upload session.totalSize now)
        (Filed sha256 lib tie (session.upload session.totalSize now) bytes (completedOwn sha256 faults tie now lib sessionId session))
        (completedOwn sha256 faults tie now lib sessionId session)
        (putStagedUpload sha256 faults tie lib (session.upload session.totalSize now) sessionId) := by
    intro hash filled quota
    have own : completedOwn sha256 faults tie now lib sessionId session =
        stagedOwn sha256 faults tie lib (session.upload session.totalSize now) sessionId :=
      if_pos ⟨active,still,received,filled,unknown,hash,quota⟩
    rw [own]
    exact leaves_put still staged
  have plain : (session.upload session.totalSize now).isVideo = false := still
  unfold finalizeStagedUpload
  by_cases empty : (session.upload session.totalSize now).sizeBytes = 0
  · rw [if_pos empty,completedOwn_else (fun reaches => reaches.2.2.2.1 empty)]
    exact leaves_error writes_nothing.cleanStaging
  · rw [if_neg empty]
    cases quota : faults.quota with
    | some error =>
      rw [completedOwn_else (fun reaches => by have none := reaches.2.2.2.2.2.2; rw [quota] at none; cases none)]
      exact leaves_error writes_nothing
    | none =>
      dsimp only [guarded]
      rw [plain,if_neg Bool.false_ne_true]
      cases declared : session.contentHash with
      | none => exact puts (.inl declared) empty quota
      | some hash =>
        have again : findDedupSource lib.files tie session.fileOwnerId hash session.totalSize false = none := by
          unfold instantSource at unknown
          rw [declared,still] at unknown
          exact unknown
        rw [declared] at asked
        cases find : faults.find with
        | some error =>
          rw [completedOwn_else ?_]
          · exact leaves_error writes_nothing
          · intro reaches
            rcases reaches.2.2.2.2.2.1 with none | both
            · rw [declared] at none
              cases none
            · rw [find] at both
              cases both.2
        | none =>
          dsimp only
          rw [show findDedupSource lib.files tie (session.upload session.totalSize now).userId hash
            (session.upload session.totalSize now).sizeBytes false = none from again]
          exact puts (.inr ⟨asked,find⟩) empty quota

theorem leaves_complete (declared : ∀ hash ∈ session.contentHash, hash = sha256 bytes)
    (staged : ∀ found, lib.staged.get sessionId = some found → found = bytes)
    (spooled : ∀ found, lib.spools.get session.fileId = some found → found = bytes) :
    Leaves lib (session.upload session.totalSize now)
      (Filed sha256 lib tie (session.upload session.totalSize now) bytes (completedOwn sha256 faults tie now lib sessionId session))
      (completedOwn sha256 faults tie now lib sessionId session)
      ((completeSession sha256 faults tie now lib sessionId session).1,(completeSession sha256 faults tie now lib sessionId session).2.2) := by
  unfold completeSession
  by_cases active : session.status = .active
  · rw [if_neg (not_not.mpr active)]
    cases asked : session.contentHash.bind (fun _ => faults.instant) with
    | some error =>
      dsimp only
      rw [completedOwn_else ?_]
      · exact leaves_error writes_nothing
      · intro reaches
        obtain ⟨hash,known,failed⟩ := Option.bind_eq_some_iff.mp asked
        rcases reaches.2.2.2.2.2.1 with none | both
        · rw [known] at none
          cases none
        · rw [both.1] at failed
          cases failed
    | none =>
      dsimp only
      by_cases missing : instantSource tie lib session = none ∧ session.received = false
      · rw [if_pos missing,completedOwn_else ?_]
        · exact leaves_error writes_nothing
        · intro reaches
          have received := reaches.2.2.1
          rw [missing.2] at received
          cases received
      · rw [if_neg missing]
        have finalised : Leaves lib (session.upload session.totalSize now)
            (Filed sha256 lib tie (session.upload session.totalSize now) bytes (completedOwn sha256 faults tie now lib sessionId session))
            (completedOwn sha256 faults tie now lib sessionId session) (finalizeSession sha256 faults tie now lib sessionId session) := by
          unfold finalizeSession
          cases instant : instantSource tie lib session with
          | some source =>
            rw [completedOwn_else (fun reaches => by have none := reaches.2.2.2.2.1; rw [instant] at none; cases none)]
            obtain ⟨hash,known,_⟩ := Option.bind_eq_some_iff.mp instant
            rw [known]
            refine leaves_andThen (leaves_instant (declared hash known)) ?_
            intro stored row writes made
            cases session.isVideo with
            | true => exact leaves_filed writes.cleanWorkDir made
            | false => exact leaves_filed writes.cleanStaging made
          | none =>
            have received : session.received = true := by
              cases all : session.received with
              | true => rfl
              | false => exact absurd ⟨instant,all⟩ missing
            dsimp only
            cases video : session.isVideo with
            | true =>
              rw [if_pos rfl,completedOwn_else (fun reaches => by have none := reaches.2.1; rw [video] at none; cases none)]
              cases resolved : resolveSessionSource lib session with
              | error error => exact leaves_error writes_nothing
              | ok found =>
                dsimp only
                obtain ⟨_,whole⟩ := resolveSessionSource_ok resolved
                rw [whole]
                obtain ⟨own,leaves,same⟩ : ∃ own, Leaves lib (session.upload session.totalSize now)
                    (Filed sha256 lib tie (session.upload session.totalSize now) bytes own) own
                    (finalizeSpooledUpload sha256 faults tie lib (session.upload session.totalSize now)) ∧ _ := leaves_spooled spooled
                rw [same video] at leaves
                exact leaves
            | false =>
              rw [if_neg Bool.false_ne_true]
              exact leaves_staged session video active received instant asked staged
        obtain ⟨⟨left,result⟩,finished⟩ : ∃ outcome, finalizeSession sha256 faults tie now lib sessionId session = outcome := ⟨_,rfl⟩
        rw [finished] at finalised ⊢
        cases result with
        | ok _ => exact finalised
        | error error => exact finalised
  · rw [if_pos active,completedOwn_else (fun reaches => active reaches.1)]
    exact leaves_error writes_nothing

end Finalisers

section Rows
variable {sha256 : Bytes → String} {id : String} {minted : List String} {inserted : Option FileRow}

theorem Writes.row_kept (writes : Writes lib upload lib' inserted own) (found : lib.files.get id = some row) :
    lib'.files.get id = some row := by
  rw [writes.files]
  cases inserted with
  | none => exact found
  | some inserted =>
    have fresh := writes.fresh (fun same => by cases same)
    have other : id ≠ upload.fileId := by
      intro same
      rw [same,fresh] at found
      cases found
    dsimp only
    rw [get_set_ne other]
    exact found

theorem Writes.row_new (writes : Writes lib upload lib' inserted own) (found : lib'.files.get id = some row) :
    lib.files.get id = some row ∨ (id = upload.fileId ∧ inserted = some row) := by
  rw [writes.files] at found
  cases inserted with
  | none => exact .inl found
  | some inserted =>
    dsimp only at found
    rw [get_set] at found
    split at found
    · rename_i here
      exact .inr ⟨here,found⟩
    · exact .inl found

theorem filed_known (filed : Filed sha256 lib tie upload bytes own row) (member : upload.fileId ∈ minted)
    (known : ∀ id row, lib.files.get id = some row → Known minted row.storageKey) : Known minted row.storageKey := by
  cases filed with
  | shared source found => exact known source.id source.row (findDedupSource_some found).1
  | plain _ _ => exact ⟨upload.userId,upload.fileId,rfl,member⟩
  | video _ => exact ⟨upload.userId,upload.fileId,rfl,member⟩

theorem writes_known (writes : Writes lib upload lib' inserted own)
    (made : ∀ row ∈ inserted, Filed sha256 lib tie upload bytes own row) (member : upload.fileId ∈ minted)
    (known : ∀ id row, lib.files.get id = some row → Known minted row.storageKey) :
    ∀ id row, lib'.files.get id = some row → Known minted row.storageKey := by
  intro id row found
  rcases writes.row_new found with before | ⟨_,same⟩
  · exact known id row before
  · exact filed_known (made row same) member known

end Rows

end Ownly.Files
