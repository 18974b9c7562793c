import Ownly.Files.Writes
import Ownly.Lib.Schedule

-- The library of files as its calls leave it, one call after the other: uploads in one
-- request and resumable ones, copy_file, put_file_content, the recycle bin, permanent
-- deletes, and the encoder.
namespace Ownly.Files.Drive
open Storage (Key Bytes)
open List Option KeyMap

structure Resumable where
  session : Session
  bytes : Bytes
  deriving DecidableEq, Repr

-- `minted` has the file ids that were given out.
structure System where
  lib : Library
  sessions : KeyMap String Resumable
  minted : List String

inductive Event where
  | upload (upload : Upload) (bytes : Bytes) (faults : Faults) (tie : Nat)
  | create (sessionId : String) (session : Session) (bytes : Bytes) (declares : Bool)
  | receive (sessionId : String)
  | complete (sessionId : String) (faults : Faults) (tie : Nat) (now : Int)
  | copy (fileId newFileId userId : String) (now : Int) (insert : Option AppError)
  | putContent (fileId : String) (body : Bytes) (put updates : Option AppError)
  | trash (fileId : String) (now : Int)
  | restore (fileId : String)
  | delete (fileIds : List String) (counts : Option AppError)
  | encoded (fileId : String) (bundle : Bytes)
  deriving DecidableEq, Repr

-- `copy_storage_object`: an object that is not there is skipped.
def copyObject (source dest : Key) (objects : KeyMap Key Bytes) : KeyMap Key Bytes :=
  match objects.get source with
  | none => objects
  | some bytes => objects.set dest bytes

def copyStorageArtifacts (source dest : Key) (lib : Library) : Library :=
  {lib with blobs := copyObject source dest lib.blobs,bundles := copyObject source dest lib.bundles}

def copiedRow (userId newFileId : String) (now : Int) (source : FileRow) : FileRow :=
  ⟨userId,storageKey userId newFileId,source.mimeType,source.isVideo,source.sizeBytes,source.contentHash,now,none,
    source.hlsReady,source.hlsEncodeStatus,source.audioWaveformReady,source.audioEncodeStatus⟩

def copyFile (lib : Library) (fileId newFileId userId : String) (now : Int) (insert : Option AppError) : Outcome :=
  match lib.files.get fileId with
  | none => (lib,.error .notFound)
  | some source =>
    if source.Active then
      match ensureFileNotProcessing source with
      | .error error => (lib,.error error)
      | .ok () =>
        insertRow insert newFileId (copiedRow userId newFileId now source)
          (copyStorageArtifacts source.storageKey (storageKey userId newFileId) lib) (fun lib => (lib,.ok ()))
    else (lib,.error .notFound)

-- The hash column stays as it is.
def putFileContent (lib : Library) (fileId : String) (body : Bytes) (put updates : Option AppError) : Outcome :=
  if body = [] then (lib,.error (.badRequest "content body must not be empty"))
  else match lib.files.get fileId with
    | none => (lib,.error .notFound)
    | some row =>
      if row.Active then
        guarded put lib
          (let stored := {lib with blobs := lib.blobs.set row.storageKey body}
          guarded updates stored
            ({stored with files := stored.files.set fileId {row with sizeBytes := body.length}},.ok ()))
      else (lib,.error .notFound)

def updateRow (lib : Library) (fileId : String) (change : FileRow → Option FileRow) : Library :=
  match (lib.files.get fileId).bind change with
  | none => lib
  | some row => {lib with files := lib.files.set fileId row}

-- Deletes the rows, counts what still references their keys, and purges the rest; where
-- the count fails, every key counts as referenced.
def permanentDelete (lib : Library) (fileIds : List String) (counts : Option AppError) : Library :=
  match loadKeysForPurge lib.files fileIds with
  | none => lib
  | some keys =>
    let deleted := {lib with files := lib.files.retain (fun id _ => decide (id ∉ fileIds))}
    match counts with
    | some _ => deleted
    | none => (keys.filter (fun key => !storageKeyStillReferenced deleted.files key)).foldr purgeStorageKeys deleted

-- The rows an encode job was enqueued for and has not ended yet.
def AwaitsEncode (fileId : String) (row : FileRow) : Prop :=
  row.isVideo = true ∧ row.hlsReady = false ∧ row.storageKey = storageKey row.userId fileId

instance (fileId : String) (row : FileRow) : Decidable (AwaitsEncode fileId row) := inferInstanceAs (Decidable (_ ∧ _ ∧ _))

def readyRow (row : FileRow) : FileRow := {row with hlsReady := true,hlsEncodeStatus := some .ready}

def encoded (lib : Library) (fileId : String) (bundle : Bytes) : Library :=
  match lib.files.get fileId with
  | none => lib
  | some row =>
    if AwaitsEncode fileId row then
      {lib with files := lib.files.set fileId (readyRow row),bundles := lib.bundles.set row.storageKey bundle}
    else lib

def received (sessionId : String) (held : Resumable) (lib : Library) : Library :=
  if held.session.isVideo then {lib with spools := lib.spools.set held.session.fileId held.bytes}
  else {lib with staged := lib.staged.set sessionId held.bytes}

def Upload.sized (upload : Upload) (bytes : Bytes) : Upload := {upload with sizeBytes := bytes.length}

def created (sha256 : Bytes → String) (session : Session) (bytes : Bytes) (declares : Bool) : Resumable :=
  ⟨{session with
      totalSize := bytes.length
      contentHash := if declares then some (sha256 bytes) else none
      received := false
      status := .active},bytes⟩

def spool (lib : Library) (fileId : String) (bytes : Bytes) : Library := {lib with spools := lib.spools.set fileId bytes}

def uploaded (sha256 : Bytes → String) (sys : System) (upload : Upload) (bytes : Bytes) (faults : Faults) (tie : Nat) : Outcome :=
  finalizeSpooledUpload sha256 faults tie (spool sys.lib upload.fileId bytes) (Upload.sized upload bytes)

def completed (sha256 : Bytes → String) (sys : System) (sessionId : String) (held : Resumable) (faults : Faults) (tie : Nat) (now : Int) :
    Library × Session × Except AppError Unit :=
  completeSession sha256 faults tie now sys.lib sessionId held.session

def step (sha256 : Bytes → String) (sys : System) : Event → Option System
  | .upload upload bytes faults tie =>
    if upload.fileId ∈ sys.minted then none
    else some ⟨(uploaded sha256 sys upload bytes faults tie).1,sys.sessions,upload.fileId :: sys.minted⟩
  | .create sessionId session bytes declares =>
    if session.fileId ∈ sys.minted ∨ sys.sessions.contains sessionId ∨ bytes = [] then none
    else some ⟨sys.lib,sys.sessions.set sessionId (created sha256 session bytes declares),session.fileId :: sys.minted⟩
  | .receive sessionId =>
    match sys.sessions.get sessionId with
    | none => none
    | some held =>
      if held.session.status = .active then
        some {sys with
          lib := received sessionId held sys.lib
          sessions := sys.sessions.set sessionId ⟨{held.session with received := true},held.bytes⟩}
      else none
  | .complete sessionId faults tie now =>
    match sys.sessions.get sessionId with
    | none => none
    | some held =>
      let ended := completed sha256 sys sessionId held faults tie now
      some {sys with lib := ended.1,sessions := sys.sessions.set sessionId ⟨ended.2.1,held.bytes⟩}
  | .copy fileId newFileId userId now insert =>
    if newFileId ∈ sys.minted then none
    else some {sys with lib := (copyFile sys.lib fileId newFileId userId now insert).1,minted := newFileId :: sys.minted}
  | .putContent fileId body put updates => some {sys with lib := (putFileContent sys.lib fileId body put updates).1}
  | .trash fileId now => some {sys with lib := updateRow sys.lib fileId (trashed now)}
  | .restore fileId => some {sys with lib := updateRow sys.lib fileId restored}
  | .delete fileIds counts => some {sys with lib := permanentDelete sys.lib fileIds counts}
  | .encoded fileId bundle => some {sys with lib := encoded sys.lib fileId bundle}

def empty : System := ⟨⟨KeyMap.empty,KeyMap.empty,KeyMap.empty,KeyMap.empty,KeyMap.empty⟩,KeyMap.empty,[]⟩

-- What every run keeps: keys and spools belong to minted file ids, and what lies staged
-- or spooled for a session are its client's bytes, whose hash the session has if any.
structure Sound (sha256 : Bytes → String) (sys : System) : Prop where
  rows : ∀ id row, sys.lib.files.get id = some row → Known sys.minted row.storageKey
  declared : ∀ sessionId held, sys.sessions.get sessionId = some held →
    (∀ hash ∈ held.session.contentHash, hash = sha256 held.bytes) ∧ held.session.fileId ∈ sys.minted
  alone : ∀ sessionId other held held', sys.sessions.get sessionId = some held → sys.sessions.get other = some held' →
    held.session.fileId = held'.session.fileId → sessionId = other
  staged : ∀ sessionId found, sys.lib.staged.get sessionId = some found →
    ∃ held, sys.sessions.get sessionId = some held ∧ found = held.bytes
  spooled : ∀ fileId found, sys.lib.spools.get fileId = some found → fileId ∈ sys.minted ∧
    ∀ sessionId held, sys.sessions.get sessionId = some held → held.session.fileId = fileId → found = held.bytes

variable {sha256 : Bytes → String} {sys next : System} {lib out : Library} {sessions : KeyMap String Resumable} {minted : List String}
  {upload : Upload} {bytes : Bytes} {row row' : FileRow} {own : Option Bytes} {rows : FileRow → Prop} {outcome : Outcome}
  {id fileId sessionId : String} {held : Resumable} {faults : Faults} {tie : Nat} {now : Int} {key : Key}
  {change : FileRow → Option FileRow} {put updates : Option AppError} {objects : KeyMap Key Bytes} {newFileId userId : String}
  {insert : Option AppError} {counts : Option AppError} {fileIds : List String} {source dest : Key} {session : Session}
  {body : Bytes} {e : Event}

inductive Fired (sha256 : Bytes → String) (sys : System) : Event → System → Prop where
  | upload (upload : Upload) (bytes : Bytes) (faults : Faults) (tie : Nat) (fresh : upload.fileId ∉ sys.minted) :
      Fired sha256 sys (.upload upload bytes faults tie)
        ⟨(uploaded sha256 sys upload bytes faults tie).1,sys.sessions,upload.fileId :: sys.minted⟩
  | create (sessionId : String) (session : Session) (bytes : Bytes) (declares : Bool) (fresh : session.fileId ∉ sys.minted)
      (unused : sys.sessions.get sessionId = none) :
      Fired sha256 sys (.create sessionId session bytes declares)
        ⟨sys.lib,sys.sessions.set sessionId (created sha256 session bytes declares),session.fileId :: sys.minted⟩
  | receive (sessionId : String) (held : Resumable) (found : sys.sessions.get sessionId = some held) :
      Fired sha256 sys (.receive sessionId) {sys with
        lib := received sessionId held sys.lib
        sessions := sys.sessions.set sessionId ⟨{held.session with received := true},held.bytes⟩}
  | complete (sessionId : String) (faults : Faults) (tie : Nat) (now : Int) (held : Resumable)
      (found : sys.sessions.get sessionId = some held) :
      Fired sha256 sys (.complete sessionId faults tie now) {sys with
        lib := (completed sha256 sys sessionId held faults tie now).1
        sessions := sys.sessions.set sessionId ⟨(completed sha256 sys sessionId held faults tie now).2.1,held.bytes⟩}
  | copy (fileId newFileId userId : String) (now : Int) (insert : Option AppError) (fresh : newFileId ∉ sys.minted) :
      Fired sha256 sys (.copy fileId newFileId userId now insert)
        {sys with lib := (copyFile sys.lib fileId newFileId userId now insert).1,minted := newFileId :: sys.minted}
  | putContent (fileId : String) (body : Bytes) (put updates : Option AppError) :
      Fired sha256 sys (.putContent fileId body put updates) {sys with lib := (putFileContent sys.lib fileId body put updates).1}
  | trash (fileId : String) (now : Int) :
      Fired sha256 sys (.trash fileId now) {sys with lib := updateRow sys.lib fileId (trashed now)}
  | restore (fileId : String) : Fired sha256 sys (.restore fileId) {sys with lib := updateRow sys.lib fileId restored}
  | delete (fileIds : List String) (counts : Option AppError) :
      Fired sha256 sys (.delete fileIds counts) {sys with lib := permanentDelete sys.lib fileIds counts}
  | encoded (fileId : String) (bundle : Bytes) :
      Fired sha256 sys (.encoded fileId bundle) {sys with lib := encoded sys.lib fileId bundle}

theorem contains_false (absent : ¬sys.sessions.contains sessionId = true) : sys.sessions.get sessionId = none := by
  unfold KeyMap.contains at absent
  simpa using absent

theorem step_fired (fired : step sha256 sys e = some next) : Fired sha256 sys e next := by
  cases e with
  | upload upload bytes faults tie =>
    dsimp only [step] at fired
    split at fired
    · cases fired
    · rename_i fresh
      cases fired
      exact .upload upload bytes faults tie fresh
  | create sessionId session bytes declares =>
    dsimp only [step] at fired
    split at fired
    · cases fired
    · rename_i free
      cases fired
      exact .create sessionId session bytes declares (fun member => free (.inl member))
        (contains_false (fun used => free (.inr (.inl used))))
  | receive sessionId =>
    dsimp only [step] at fired
    split at fired
    · cases fired
    · rename_i held found
      split at fired
      · cases fired
        exact .receive sessionId held found
      · cases fired
  | complete sessionId faults tie now =>
    dsimp only [step] at fired
    split at fired
    · cases fired
    · rename_i held found
      cases fired
      exact .complete sessionId faults tie now held found
  | copy fileId newFileId userId now insert =>
    dsimp only [step] at fired
    split at fired
    · cases fired
    · rename_i fresh
      cases fired
      exact .copy fileId newFileId userId now insert fresh
  | putContent fileId body put updates =>
    cases fired
    exact .putContent fileId body put updates
  | trash fileId now =>
    cases fired
    exact .trash fileId now
  | restore fileId =>
    cases fired
    exact .restore fileId
  | delete fileIds counts =>
    cases fired
    exact .delete fileIds counts
  | encoded fileId bundle =>
    cases fired
    exact .encoded fileId bundle

theorem received_same : (received sessionId held lib).files = lib.files ∧ (received sessionId held lib).blobs = lib.blobs ∧
    (received sessionId held lib).bundles = lib.bundles := by
  unfold received
  split
  · exact ⟨rfl,rfl,rfl⟩
  · exact ⟨rfl,rfl,rfl⟩

theorem sound_empty : Sound sha256 empty :=
  ⟨fun _ _ found => (by cases found),fun _ _ found => (by cases found),fun _ _ _ _ found => (by cases found),
    fun _ _ found => (by cases found),fun _ _ found => by cases found⟩

theorem complete_session_same (lib : Library) (session : Session) : ∃ status,
    (completeSession sha256 faults tie now lib sessionId session).2.1 = {session with status := status} := by
  unfold completeSession
  split
  · exact ⟨session.status,rfl⟩
  · split
    · exact ⟨session.status,rfl⟩
    · split
      · exact ⟨session.status,rfl⟩
      · split
        · exact ⟨.complete,rfl⟩
        · exact ⟨.active,rfl⟩

theorem Sound.library (sound : Sound sha256 sys) (rows : ∀ id row, lib.files.get id = some row → Known sys.minted row.storageKey)
    (staged : lib.staged = sys.lib.staged) (spools : lib.spools = sys.lib.spools) : Sound sha256 {sys with lib := lib} := by
  refine ⟨rows,sound.declared,sound.alone,?_,?_⟩
  · intro sessionId found present
    dsimp only at present
    rw [staged] at present
    exact sound.staged sessionId found present
  · intro fileId found present
    dsimp only at present
    rw [spools] at present
    exact sound.spooled fileId found present

theorem updateRow_rows (keyed : ∀ row row', change row = some row' → row'.storageKey = row.storageKey)
    (found : (updateRow lib fileId change).files.get id = some row') :
    ∃ row, lib.files.get id = some row ∧ row'.storageKey = row.storageKey := by
  unfold updateRow at found
  split at found
  · exact ⟨row',found,rfl⟩
  · rename_i changed made
    obtain ⟨row,before,same⟩ := bind_eq_some_iff.mp made
    dsimp only at found
    rw [get_set] at found
    split at found
    · rename_i here
      cases found
      exact ⟨row,by rw [here]; exact before,keyed row row' same⟩
    · exact ⟨row',found,rfl⟩

theorem updateRow_objects : (updateRow lib fileId change).blobs = lib.blobs ∧
    (updateRow lib fileId change).bundles = lib.bundles ∧ (updateRow lib fileId change).staged = lib.staged ∧
    (updateRow lib fileId change).spools = lib.spools := by
  unfold updateRow
  split
  · exact ⟨rfl,rfl,rfl,rfl⟩
  · exact ⟨rfl,rfl,rfl,rfl⟩

structure Deleted (lib out : Library) : Prop where
  files : ∀ id row, out.files.get id = some row → lib.files.get id = some row
  blobs : ∀ id row, out.files.get id = some row → out.blobs.get row.storageKey = lib.blobs.get row.storageKey
  bundles : ∀ id row, out.files.get id = some row → out.bundles.get row.storageKey = lib.bundles.get row.storageKey
  staged : out.staged = lib.staged
  spools : out.spools = lib.spools

theorem Deleted.purge (deleted : Deleted lib out) (free : storageKeyStillReferenced out.files key = false) :
    Deleted lib (purgeStorageKeys key out) := by
  have others := unreferenced_iff.mp free
  refine ⟨deleted.files,?_,?_,deleted.staged,deleted.spools⟩
  · intro id row found
    unfold purgeStorageKeys
    dsimp only
    rw [get_remove_ne (others id row found)]
    exact deleted.blobs id row found
  · intro id row found
    unfold purgeStorageKeys
    dsimp only
    rw [get_remove_ne (others id row found)]
    exact deleted.bundles id row found

theorem Deleted.purges {keys : List Key} (deleted : Deleted lib out)
    (free : ∀ key ∈ keys, storageKeyStillReferenced out.files key = false) :
    Deleted lib (keys.foldr purgeStorageKeys out) ∧ (keys.foldr purgeStorageKeys out).files = out.files := by
  induction keys with
  | nil => exact ⟨deleted,rfl⟩
  | cons key rest ih =>
    obtain ⟨purged,same⟩ := ih (fun key member => free key (mem_cons_of_mem _ member))
    refine ⟨purged.purge ?_,same⟩
    rw [same]
    exact free key mem_cons_self

theorem permanentDelete_deleted :
    Deleted lib (permanentDelete lib fileIds counts) := by
  have gone : ∀ fileIds : List String, Deleted lib {lib with files := lib.files.retain (fun id _ => decide (id ∉ fileIds))} := by
    intro fileIds
    refine ⟨?_,fun _ _ _ => rfl,fun _ _ _ => rfl,rfl,rfl⟩
    intro id row found
    rw [get_retain] at found
    exact (filter_eq_some_iff.mp found).1
  unfold permanentDelete
  split
  · exact ⟨fun _ _ found => found,fun _ _ _ => rfl,fun _ _ _ => rfl,rfl,rfl⟩
  · cases counts with
    | some _ => exact gone fileIds
    | none =>
      refine ((gone fileIds).purges ?_).1
      intro key member
      simpa using (mem_filter.mp member).2

inductive Encoded (lib : Library) (fileId : String) (bundle : Bytes) : Library → Prop where
  | refused : Encoded lib fileId bundle lib
  | ended (row : FileRow) (found : lib.files.get fileId = some row) (awaits : AwaitsEncode fileId row) :
      Encoded lib fileId bundle
        {lib with files := lib.files.set fileId (readyRow row),bundles := lib.bundles.set row.storageKey bundle}

theorem encoded_encoded : Encoded lib fileId bytes (encoded lib fileId bytes) := by
  unfold encoded
  cases found : lib.files.get fileId with
  | none => exact .refused
  | some row =>
    dsimp only
    by_cases awaits : AwaitsEncode fileId row
    · rw [if_pos awaits]
      exact .ended row found awaits
    · rw [if_neg awaits]
      exact .refused

theorem Sound.rewritten (sound : Sound sha256 sys) (found : sys.sessions.get sessionId = some held)
    (file : session.fileId = held.session.fileId) (hash : session.contentHash = held.session.contentHash) :
    Sound sha256 {sys with sessions := sys.sessions.set sessionId ⟨session,held.bytes⟩} := by
  have before : ∀ other now, (sys.sessions.set sessionId ⟨session,held.bytes⟩).get other = some now →
      ∃ was, sys.sessions.get other = some was ∧ now.bytes = was.bytes ∧ now.session.fileId = was.session.fileId ∧
        now.session.contentHash = was.session.contentHash := by
    intro other now present
    rw [get_set] at present
    split at present
    · rename_i here
      cases present
      exact ⟨held,by rw [here]; exact found,rfl,file,hash⟩
    · exact ⟨now,present,rfl,rfl,rfl⟩
  refine ⟨sound.rows,?_,?_,?_,?_⟩
  · intro other now present
    obtain ⟨was,old,bytes,file,hash⟩ := before other now present
    obtain ⟨declared,member⟩ := sound.declared other was old
    rw [bytes,file,hash]
    exact ⟨declared,member⟩
  · intro one two held held' first second same
    obtain ⟨was,old,_,file,_⟩ := before one held first
    obtain ⟨was',old',_,file',_⟩ := before two held' second
    exact sound.alone one two was was' old old' (file.symm.trans (same.trans file'))
  · intro other bytes present
    obtain ⟨was,old,same⟩ := sound.staged other bytes present
    by_cases here : other = sessionId
    · rw [here] at old ⊢
      rw [found] at old
      cases old
      exact ⟨_,get_set_self,same⟩
    · exact ⟨was,by rw [get_set_ne here]; exact old,same⟩
  · intro fileId bytes present
    obtain ⟨member,mine⟩ := sound.spooled fileId bytes present
    refine ⟨member,?_⟩
    intro other now there same
    obtain ⟨was,old,bytes,file,_⟩ := before other now there
    rw [bytes]
    exact mine other was old (file.symm.trans same)

theorem uploaded_leaves : ∃ own, Leaves (spool sys.lib upload.fileId bytes) (Upload.sized upload bytes)
    (Filed sha256 (spool sys.lib upload.fileId bytes) tie (Upload.sized upload bytes) bytes own) own
    (uploaded sha256 sys upload bytes faults tie) := by
  have spooled : ∀ found, (spool sys.lib upload.fileId bytes).spools.get (Upload.sized upload bytes).fileId = some found → found = bytes := by
    intro found present
    have same : (sys.lib.spools.set upload.fileId bytes).get upload.fileId = some found := present
    rw [get_set_self] at same
    cases same
    rfl
  obtain ⟨own,leaves,_⟩ := leaves_spooled spooled
  exact ⟨own,leaves⟩

section
variable (sound : Sound sha256 sys)
include sound

theorem completed_leaves (found : sys.sessions.get sessionId = some held) :
    Leaves sys.lib (held.session.upload held.session.totalSize now)
      (Filed sha256 sys.lib tie (held.session.upload held.session.totalSize now) held.bytes
        (completedOwn sha256 faults tie now sys.lib sessionId held.session))
      (completedOwn sha256 faults tie now sys.lib sessionId held.session)
      ((completed sha256 sys sessionId held faults tie now).1,(completed sha256 sys sessionId held faults tie now).2.2) := by
  obtain ⟨declared,_⟩ := sound.declared sessionId held found
  refine leaves_complete declared ?_ ?_
  · intro bytes present
    obtain ⟨held',found',same⟩ := sound.staged sessionId bytes present
    rw [found] at found'
    cases found'
    exact same
  · intro bytes present
    exact (sound.spooled held.session.fileId bytes present).2 sessionId held found rfl

theorem upload_sound (fresh : upload.fileId ∉ sys.minted) :
    Sound sha256 ⟨(uploaded sha256 sys upload bytes faults tie).1,sys.sessions,upload.fileId :: sys.minted⟩ := by
  obtain ⟨own,inserted,writes,made,_⟩ : ∃ own, Leaves (spool sys.lib upload.fileId bytes) (Upload.sized upload bytes)
    (Filed sha256 (spool sys.lib upload.fileId bytes) tie (Upload.sized upload bytes) bytes own) own
    (uploaded sha256 sys upload bytes faults tie) := uploaded_leaves
  refine ⟨?_,?_,sound.alone,?_,?_⟩
  · exact writes_known writes made mem_cons_self (fun id row found => known_more (sound.rows id row found))
  · intro sessionId held found
    obtain ⟨declared,member⟩ := sound.declared sessionId held found
    exact ⟨declared,mem_cons_of_mem _ member⟩
  · intro sessionId found present
    exact sound.staged sessionId found (writes.staged sessionId found present)
  · intro fileId found present
    have old : (sys.lib.spools.set upload.fileId bytes).get fileId = some found := writes.spools fileId found present
    rw [get_set] at old
    split at old
    · rename_i here
      rw [here]
      refine ⟨mem_cons_self,?_⟩
      intro sessionId held there same
      have member := (sound.declared sessionId held there).2
      rw [same] at member
      exact absurd member fresh
    · obtain ⟨member,mine⟩ := sound.spooled fileId found old
      exact ⟨mem_cons_of_mem _ member,mine⟩

theorem create_sound {declares : Bool} (fresh : session.fileId ∉ sys.minted)
    (unused : sys.sessions.get sessionId = none) :
    Sound sha256 ⟨sys.lib,sys.sessions.set sessionId (created sha256 session bytes declares),session.fileId :: sys.minted⟩ := by
  have others : ∀ other held, (sys.sessions.set sessionId (created sha256 session bytes declares)).get other = some held →
      (other = sessionId ∧ held = created sha256 session bytes declares) ∨ sys.sessions.get other = some held := by
    intro other held present
    rw [get_set] at present
    split at present
    · rename_i here
      cases present
      exact .inl ⟨here,rfl⟩
    · exact .inr present
  have apart : ∀ other held, sys.sessions.get other = some held → held.session.fileId ≠ session.fileId := by
    intro other held found same
    have member := (sound.declared other held found).2
    rw [same] at member
    exact fresh member
  refine ⟨fun id row found => known_more (sound.rows id row found),?_,?_,?_,?_⟩
  · intro other held present
    rcases others other held present with ⟨_,rfl⟩ | old
    · refine ⟨?_,mem_cons_self⟩
      intro hash known
      cases declares with
      | true =>
        cases known
        rfl
      | false => cases known
    · obtain ⟨declared,member⟩ := sound.declared other held old
      exact ⟨declared,mem_cons_of_mem _ member⟩
  · intro one two held held' first second same
    rcases others one held first with ⟨here,rfl⟩ | old
    · rcases others two held' second with ⟨there,_⟩ | late
      · rw [here,there]
      · exact absurd same.symm (apart two held' late)
    · rcases others two held' second with ⟨_,rfl⟩ | late
      · exact absurd same (apart one held old)
      · exact sound.alone one two held held' old late same
  · intro other found present
    obtain ⟨held,old,same⟩ := sound.staged other found present
    have ne : other ≠ sessionId := by
      intro here
      rw [here,unused] at old
      cases old
    exact ⟨held,by rw [get_set_ne ne]; exact old,same⟩
  · intro fileId found present
    obtain ⟨member,mine⟩ := sound.spooled fileId found present
    refine ⟨mem_cons_of_mem _ member,?_⟩
    intro other held there same
    rcases others other held there with ⟨_,rfl⟩ | old
    · rw [← same] at member
      exact absurd member fresh
    · exact mine other held old same

theorem receive_sound (found : sys.sessions.get sessionId = some held) :
    Sound sha256 {sys with lib := received sessionId held sys.lib} := by
  unfold received
  cases video : held.session.isVideo with
  | true =>
    rw [if_pos rfl]
    refine ⟨sound.rows,sound.declared,sound.alone,sound.staged,?_⟩
    intro fileId bytes present
    dsimp only at present
    rw [get_set] at present
    split at present
    · rename_i here
      cases present
      rw [here]
      refine ⟨(sound.declared sessionId held found).2,?_⟩
      intro other held' there same
      have one := sound.alone other sessionId held' held there found same
      rw [one,found] at there
      cases there
      rfl
    · exact sound.spooled fileId bytes present
  | false =>
    rw [if_neg Bool.false_ne_true]
    refine ⟨sound.rows,sound.declared,sound.alone,?_,sound.spooled⟩
    intro other bytes present
    dsimp only at present
    rw [get_set] at present
    split at present
    · rename_i here
      cases present
      exact ⟨held,by rw [here]; exact found,rfl⟩
    · exact sound.staged other bytes present

theorem complete_sound (found : sys.sessions.get sessionId = some held) :
    Sound sha256 {sys with
      lib := (completed sha256 sys sessionId held faults tie now).1
      sessions := sys.sessions.set sessionId ⟨(completed sha256 sys sessionId held faults tie now).2.1,held.bytes⟩} := by
  obtain ⟨inserted,writes,made,_⟩ : Leaves sys.lib (held.session.upload held.session.totalSize now) _ _
      ((completed sha256 sys sessionId held faults tie now).1,(completed sha256 sys sessionId held faults tie now).2.2) :=
    completed_leaves sound found
  obtain ⟨status,same⟩ : ∃ status, (completed sha256 sys sessionId held faults tie now).2.1 = {held.session with status := status} :=
    complete_session_same sys.lib held.session
  have ended : Sound sha256 {sys with lib := (completed sha256 sys sessionId held faults tie now).1} := by
    refine ⟨?_,sound.declared,sound.alone,?_,?_⟩
    · exact writes_known writes made (sound.declared sessionId held found).2 sound.rows
    · intro other bytes present
      exact sound.staged other bytes (writes.staged other bytes present)
    · intro fileId bytes present
      exact sound.spooled fileId bytes (writes.spools fileId bytes present)
  rw [same]
  exact ended.rewritten found rfl rfl

end

structure Copied (lib : Library) (fileId newFileId userId : String) (now : Int) (out : Library) : Prop where
  files : out.files = lib.files ∨ ∃ source, lib.files.get fileId = some source ∧ source.Active ∧ lib.files.get newFileId = none ∧
    out.files = lib.files.set newFileId (copiedRow userId newFileId now source) ∧
    ∀ bytes, lib.blobs.get source.storageKey = some bytes → out.blobs.get (storageKey userId newFileId) = some bytes
  blobs : ∀ key, key ≠ storageKey userId newFileId → out.blobs.get key = lib.blobs.get key
  bundles : ∀ key, key ≠ storageKey userId newFileId → out.bundles.get key = lib.bundles.get key
  staged : out.staged = lib.staged
  spools : out.spools = lib.spools

theorem copyObject_ne (ne : key ≠ dest) :
    (copyObject source dest objects).get key = objects.get key := by
  unfold copyObject
  split
  · rfl
  · exact get_set_ne ne

theorem copyObject_dest (there : objects.get source = some bytes) :
    (copyObject source dest objects).get dest = some bytes := by
  unfold copyObject
  rw [there]
  exact get_set_self

theorem copyFile_copied :
    Copied lib fileId newFileId userId now (copyFile lib fileId newFileId userId now insert).1 := by
  have unchanged : Copied lib fileId newFileId userId now lib :=
    ⟨.inl rfl,fun _ _ => rfl,fun _ _ => rfl,rfl,rfl⟩
  have stored : ∀ source : FileRow,
      Copied lib fileId newFileId userId now (copyStorageArtifacts source.storageKey (storageKey userId newFileId) lib) :=
    fun source => ⟨.inl rfl,fun _ ne => copyObject_ne ne,fun _ ne => copyObject_ne ne,rfl,rfl⟩
  unfold copyFile
  cases found : lib.files.get fileId with
  | none => exact unchanged
  | some source =>
    dsimp only
    by_cases active : source.Active
    · rw [if_pos active]
      cases ensureFileNotProcessing source with
      | error error => exact unchanged
      | ok _ =>
        cases insert with
        | some error => exact stored source
        | none =>
          unfold insertRow guarded
          dsimp only
          split
          · exact stored source
          · rename_i fresh
            refine ⟨.inr ⟨source,found,active,fresh,rfl,?_⟩,(stored source).blobs,(stored source).bundles,rfl,rfl⟩
            intro bytes there
            exact copyObject_dest there
    · rw [if_neg active]
      exact unchanged

inductive Replaced (lib : Library) (fileId : String) (body : Bytes) (put : Option AppError) : Library → Prop where
  | refused : Replaced lib fileId body put lib
  | stored (row : FileRow) (files : KeyMap String FileRow) (found : lib.files.get fileId = some row) (active : row.Active)
      (some : body ≠ []) (through : put = none)
      (sized : files = lib.files ∨ files = lib.files.set fileId {row with sizeBytes := body.length}) :
      Replaced lib fileId body put ⟨files,lib.blobs.set row.storageKey body,lib.bundles,lib.staged,lib.spools⟩

theorem putFileContent_replaced :
    Replaced lib fileId body put (putFileContent lib fileId body put updates).1 := by
  unfold putFileContent
  by_cases empty : body = []
  · rw [if_pos empty]
    exact .refused
  · rw [if_neg empty]
    cases found : lib.files.get fileId with
    | none => exact .refused
    | some row =>
      dsimp only
      by_cases active : row.Active
      · rw [if_pos active]
        cases put with
        | some error => exact .refused
        | none =>
          cases updates with
          | some error => exact .stored row lib.files found active empty rfl (.inl rfl)
          | none => exact .stored row _ found active empty rfl (.inr rfl)
      · rw [if_neg active]
        exact .refused

theorem copy_sound (sound : Sound sha256 sys) :
    Sound sha256 {sys with lib := (copyFile sys.lib fileId newFileId userId now insert).1,minted := newFileId :: sys.minted} := by
  obtain ⟨files,_,_,staged,spools⟩ : Copied sys.lib fileId newFileId userId now (copyFile sys.lib fileId newFileId userId now insert).1 :=
    copyFile_copied
  refine ⟨?_,?_,sound.alone,?_,?_⟩
  · intro id row found
    dsimp only at found
    rcases files with same | ⟨source,_,_,_,same,_⟩
    · rw [same] at found
      exact known_more (sound.rows id row found)
    · rw [same,get_set] at found
      split at found
      · cases found
        exact ⟨userId,newFileId,rfl,mem_cons_self⟩
      · exact known_more (sound.rows id row found)
  · intro sessionId held found
    obtain ⟨declared,member⟩ := sound.declared sessionId held found
    exact ⟨declared,mem_cons_of_mem _ member⟩
  · intro sessionId bytes present
    dsimp only at present
    rw [staged] at present
    exact sound.staged sessionId bytes present
  · intro other bytes present
    dsimp only at present
    rw [spools] at present
    obtain ⟨member,mine⟩ := sound.spooled other bytes present
    exact ⟨mem_cons_of_mem _ member,mine⟩

theorem rows_set (known : ∀ id row, lib.files.get id = some row → Known minted row.storageKey) (found : lib.files.get fileId = some row)
    (same : row'.storageKey = row.storageKey) : ∀ id now, (lib.files.set fileId row').get id = some now → Known minted now.storageKey := by
  intro id now present
  rw [get_set] at present
  split at present
  · cases present
    rw [same]
    exact known fileId row found
  · exact known id now present

section
variable (sound : Sound sha256 sys)
include sound

theorem updateRow_sound
    (keyed : ∀ row row', change row = some row' → row'.storageKey = row.storageKey) :
    Sound sha256 {sys with lib := updateRow sys.lib fileId change} := by
  obtain ⟨_,_,staged,spools⟩ : _ ∧ _ ∧ (updateRow sys.lib fileId change).staged = _ ∧ (updateRow sys.lib fileId change).spools = _ :=
    updateRow_objects
  refine sound.library ?_ staged spools
  intro id row' found
  obtain ⟨row,before,same⟩ := updateRow_rows keyed found
  rw [same]
  exact sound.rows id row before

theorem putContent_sound :
    Sound sha256 {sys with lib := (putFileContent sys.lib fileId body put updates).1} := by
  have replaced : Replaced sys.lib fileId body put (putFileContent sys.lib fileId body put updates).1 := putFileContent_replaced
  generalize (putFileContent sys.lib fileId body put updates).1 = out at replaced
  cases replaced with
  | refused => exact sound
  | stored row files found active some through sized =>
    refine sound.library ?_ rfl rfl
    rcases sized with rfl | rfl
    · exact sound.rows
    · exact rows_set sound.rows found rfl

theorem delete_sound :
    Sound sha256 {sys with lib := permanentDelete sys.lib fileIds counts} := by
  have deleted : Deleted sys.lib (permanentDelete sys.lib fileIds counts) := permanentDelete_deleted
  exact sound.library (fun id row found => sound.rows id row (deleted.files id row found)) deleted.staged deleted.spools

theorem encoded_sound : Sound sha256 {sys with lib := encoded sys.lib fileId bytes} := by
  have ended : Encoded sys.lib fileId bytes (encoded sys.lib fileId bytes) := encoded_encoded
  generalize encoded sys.lib fileId bytes = out at ended
  cases ended with
  | refused => exact sound
  | ended row found awaits => exact sound.library (rows_set sound.rows found rfl) rfl rfl

theorem step_sound (fired : step sha256 sys e = some next) : Sound sha256 next := by
  cases step_fired fired with
  | upload upload bytes faults tie fresh => exact upload_sound sound fresh
  | create sessionId session bytes declares fresh unused => exact create_sound sound fresh unused
  | receive sessionId held found => exact (receive_sound sound found).rewritten found rfl rfl
  | complete sessionId faults tie now held found => exact complete_sound sound found
  | copy fileId newFileId userId now insert fresh => exact copy_sound sound
  | putContent fileId body put updates => exact putContent_sound sound
  | trash fileId now => exact updateRow_sound sound (fun _ _ => trashed_keyed)
  | restore fileId => exact updateRow_sound sound (fun _ _ => restored_keyed)
  | delete fileIds counts => exact delete_sound sound
  | encoded fileId bundle => exact encoded_sound sound

end

end Ownly.Files.Drive
