import Ownly.Files.Isolation

-- The rows' hashes and the bytes behind them: as long as the hashes are those of the bytes,
-- what the dedup lookup shares is what was uploaded.
namespace Ownly.Files.Drive
open Storage (Key Bytes)
open Option KeyMap

def HashesServed (sha256 : Bytes → String) (lib : Library) : Prop :=
  ∀ id row, lib.files.get id = some row → row.Active → row.isVideo = false → ∀ hash ∈ row.contentHash,
    ∃ bytes, served lib row = some bytes ∧ hash = sha256 bytes

inductive Answers (sha256 : Bytes → String) (sys : System) : Event → String → Bytes → Prop where
  | upload (upload : Upload) (bytes : Bytes) (faults : Faults) (tie : Nat)
      (ok : (uploaded sha256 sys upload bytes faults tie).2 = .ok ()) :
      Answers sha256 sys (.upload upload bytes faults tie) upload.fileId bytes
  | complete (sessionId : String) (held : Resumable) (faults : Faults) (tie : Nat) (now : Int)
      (found : sys.sessions.get sessionId = some held) (ok : (completed sha256 sys sessionId held faults tie now).2.2 = .ok ()) :
      Answers sha256 sys (.complete sessionId faults tie now) held.session.fileId held.bytes

def Honest (sha256 : Bytes → String) (sys : System) (e : Event) : Prop :=
  ∀ next, step sha256 sys e = some next → HashesServed sha256 next.lib ∧
    ∀ fileId bytes, Answers sha256 sys e fileId bytes →
      ∃ row, next.lib.files.get fileId = some row ∧ (row.isVideo = false → served next.lib row = some bytes)

def HashedUnder (files : KeyMap String FileRow) (key : Key) (hashes : String → Prop) : Prop :=
  ∀ entry ∈ files.entries, entry.2.Active → entry.2.isVideo = false → entry.2.storageKey = key →
    ∀ hash ∈ entry.2.contentHash, hashes hash

def FindsPlain (sha256 : Bytes → String) (tie : Nat) (lib : Library) (userId : String) (bytes : Bytes) (sizeBytes : Int) : Prop :=
  ∀ source ∈ findDedupSource lib.files tie userId (sha256 bytes) sizeBytes false, source.row.isVideo = false

-- Replaced content keeps its hash, restored rows have that of their object, what is no video
-- is shared with no video, and a completion puts no object under a row of other bytes.
def Reliable (sha256 : Bytes → String) (sys : System) : Event → Prop
  | .upload upload bytes _ tie => upload.isVideo = false → FindsPlain sha256 tie sys.lib upload.userId bytes bytes.length
  | .complete sessionId faults tie _ => ∀ held ∈ sys.sessions.get sessionId,
      (held.session.isVideo = false →
        FindsPlain sha256 tie sys.lib held.session.fileOwnerId held.bytes held.session.totalSize) ∧
      (ReachesPut faults tie sys.lib held.session → faults.put = none → ∀ bytes ∈ sys.lib.staged.get sessionId,
        HashedUnder sys.lib.files (storageKey held.session.fileOwnerId held.session.fileId) (fun hash =>
          ¬DropsPut sha256 faults tie sys.lib held.session bytes ∧ hash = sha256 bytes))
  | .putContent fileId body put _ => ∀ row ∈ sys.lib.files.get fileId, row.Active → body ≠ [] → put = none →
      HashedUnder sys.lib.files row.storageKey (· = sha256 body)
  | .restore fileId => ∀ row ∈ sys.lib.files.get fileId, ¬row.Active → row.isVideo = false → ∀ hash ∈ row.contentHash,
      (sys.lib.blobs.get row.storageKey).map sha256 = some hash
  | _ => True

def HashTrue (sha256 : Bytes → String) (lib : Library) (row : FileRow) : Prop :=
  ∀ hash ∈ row.contentHash, ∃ bytes, lib.blobs.get row.storageKey = some bytes ∧ hash = sha256 bytes

structure Truthful (sha256 : Bytes → String) (lib : Library) : Prop where
  plain : ∀ id row, lib.files.get id = some row → row.isVideo = false → row.hlsReady = false
  hashed : ∀ id row, lib.files.get id = some row → row.Active → row.isVideo = false → HashTrue sha256 lib row

def Serves (lib : Library) (fileId : String) (bytes : Bytes) : Prop :=
  ∃ row, lib.files.get fileId = some row ∧ (row.isVideo = false → lib.blobs.get row.storageKey = some bytes)

variable {sha256 : Bytes → String} {sys next : System} {lib out : Library} {row row' : FileRow} {id fileId sessionId userId : String}
  {held : Resumable} {faults : Faults} {tie : Nat} {now : Int} {key : Key} {bytes body : Bytes} {own : Option Bytes}
  {files : KeyMap String FileRow} {upload : Upload} {e : Event} {inserted : Option FileRow} {outcome : Outcome}
  {hashes : String → Prop}

theorem hashedUnder_row (under : HashedUnder files key hashes) (found : files.get id = some row) (active : row.Active)
    (plain : row.isVideo = false) (keyed : row.storageKey = key) : ∀ hash ∈ row.contentHash, hashes hash :=
  under ⟨id,row⟩ (get_eq_some.mp found) active plain keyed

theorem unready_plain (unready : row.hlsReady = false) : isHlsStoredVideo row = false := by
  unfold isHlsStoredVideo
  rw [unready]
  exact Bool.and_false _

theorem Truthful.plainServed (truthful : Truthful sha256 lib) (found : lib.files.get id = some row) (plain : row.isVideo = false) :
    served lib row = lib.blobs.get row.storageKey :=
  served_plain (unready_plain (truthful.plain id row found plain))

theorem Truthful.hashesServed (truthful : Truthful sha256 lib) : HashesServed sha256 lib := by
  intro id row found active plain hash known
  obtain ⟨bytes,there,same⟩ := truthful.hashed id row found active plain hash known
  exact ⟨bytes,(truthful.plainServed found plain).trans there,same⟩

theorem truthful_empty : Truthful sha256 empty.lib :=
  ⟨fun _ _ found => (by cases found),fun _ _ found => by cases found⟩

theorem Truthful.same (truthful : Truthful sha256 lib) (files : out.files = lib.files) (blobs : out.blobs = lib.blobs) :
    Truthful sha256 out := by
  refine ⟨?_,?_⟩
  · intro id row found plain
    rw [files] at found
    exact truthful.plain id row found plain
  · intro id row found active plain hash known
    rw [files] at found
    rw [blobs]
    exact truthful.hashed id row found active plain hash known

section Finalised

def OwnTrue (sha256 : Bytes → String) (lib : Library) (key : Key) (own : Option Bytes) : Prop :=
  HashedUnder lib.files key (fun hash => ∃ bytes, own = some bytes ∧ hash = sha256 bytes)

theorem Truthful.ownTrue (truthful : Truthful sha256 lib) : OwnTrue sha256 lib key (lib.blobs.get key) := by
  rintro ⟨id,row⟩ member active plain rfl hash known
  exact truthful.hashed id row (get_eq_some.mpr member) active plain hash known

theorem writes_hashed (truthful : Truthful sha256 lib) (writes : Writes lib upload out inserted own)
    (under : OwnTrue sha256 lib upload.key own) (found : lib.files.get id = some row) (active : row.Active)
    (plain : row.isVideo = false) : HashTrue sha256 out row := by
  intro hash known
  by_cases here : row.storageKey = upload.key
  · rw [here,writes.own]
    exact hashedUnder_row under found active plain here hash known
  · rw [writes.others row.storageKey here]
    exact truthful.hashed id row found active plain hash known

theorem filed_serves (injective : Function.Injective sha256) (truthful : Truthful sha256 lib)
    (writes : Writes lib upload out inserted own) (under : OwnTrue sha256 lib upload.key own)
    (finds : upload.isVideo = false → FindsPlain sha256 tie lib upload.userId bytes upload.sizeBytes)
    (filed : Filed sha256 lib tie upload bytes own row) (still : row.isVideo = false) :
    row.hlsReady = false ∧ row.contentHash = some (sha256 bytes) ∧ out.blobs.get row.storageKey = some bytes := by
  cases filed with
  | shared source found =>
    have plain : upload.isVideo = false := still
    rw [plain] at found
    have sourcePlain := finds plain source found
    obtain ⟨there,⟨_,known,_,active⟩,_⟩ := findDedupSource_some found
    refine ⟨truthful.plain source.id source.row there sourcePlain,rfl,?_⟩
    obtain ⟨shared,object,same⟩ := writes_hashed truthful writes under there active sourcePlain (sha256 bytes) known
    rw [injective same]
    exact object
  | plain _ stored => exact ⟨rfl,rfl,writes.own.trans stored⟩
  | video moving =>
    have same : upload.isVideo = false := still
    rw [moving] at same
    cases same

theorem finalised_truthful (injective : Function.Injective sha256) (truthful : Truthful sha256 lib)
    (under : OwnTrue sha256 lib upload.key own)
    (finds : upload.isVideo = false → FindsPlain sha256 tie lib upload.userId bytes upload.sizeBytes)
    (leaves : Leaves lib upload (Filed sha256 lib tie upload bytes own) own outcome) :
    Truthful sha256 outcome.1 ∧ (outcome.2 = .ok () → Serves outcome.1 upload.fileId bytes) := by
  obtain ⟨inserted,writes,made,answered⟩ := leaves
  refine ⟨⟨?_,?_⟩,?_⟩
  · intro id row found still
    rcases writes.row_new found with before | ⟨_,same⟩
    · exact truthful.plain id row before still
    · exact (filed_serves injective truthful writes under finds (made row same) still).1
  · intro id row found active still
    rcases writes.row_new found with before | ⟨_,same⟩
    · exact writes_hashed truthful writes under before active still
    · obtain ⟨_,hash,object⟩ := filed_serves injective truthful writes under finds (made row same) still
      intro known declared
      rw [hash] at declared
      cases declared
      exact ⟨bytes,object,rfl⟩
  · intro ok
    cases inserted with
    | none => exact absurd rfl (answered ok)
    | some row =>
      refine ⟨row,?_,?_⟩
      · rw [writes.files]
        exact get_set_self
      · intro still
        exact (filed_serves injective truthful writes under finds (made row rfl) still).2.2

end Finalised

theorem completed_ownTrue (truthful : Truthful sha256 lib)
    (same : ReachesPut faults tie lib held.session → faults.put = none → ∀ bytes ∈ lib.staged.get sessionId,
      HashedUnder lib.files (storageKey held.session.fileOwnerId held.session.fileId) (fun hash =>
        ¬DropsPut sha256 faults tie lib held.session bytes ∧ hash = sha256 bytes)) :
    OwnTrue sha256 lib (storageKey held.session.fileOwnerId held.session.fileId)
      (completedOwn sha256 faults tie now lib sessionId held.session) := by
  by_cases reaches : ReachesPut faults tie lib held.session
  · have own : completedOwn sha256 faults tie now lib sessionId held.session =
        stagedOwn sha256 faults tie lib (held.session.upload held.session.totalSize now) sessionId := if_pos reaches
    rw [own]
    unfold stagedOwn
    cases there : lib.staged.get sessionId with
    | none => exact truthful.ownTrue
    | some bytes =>
      dsimp only
      cases put : faults.put with
      | some error =>
        rw [if_pos (fun same => by cases same)]
        exact truthful.ownTrue
      | none =>
        rw [if_neg (fun some => some rfl)]
        intro entry member active plain keyed hash known
        obtain ⟨stays,here⟩ := same reaches put bytes there entry member active plain keyed hash known
        exact ⟨bytes,if_neg stays,here⟩
  · rw [completedOwn_else reaches]
    exact truthful.ownTrue

section
variable (injective : Function.Injective sha256) (sound : Sound sha256 sys) (truthful : Truthful sha256 sys.lib)
include injective sound truthful

theorem upload_honest
    (fresh : upload.fileId ∉ sys.minted)
    (finds : upload.isVideo = false → FindsPlain sha256 tie sys.lib upload.userId bytes bytes.length) :
    Truthful sha256 (uploaded sha256 sys upload bytes faults tie).1 ∧ ((uploaded sha256 sys upload bytes faults tie).2 = .ok () →
      Serves (uploaded sha256 sys upload bytes faults tie).1 upload.fileId bytes) := by
  obtain ⟨own,leaves⟩ : ∃ own, Leaves (spool sys.lib upload.fileId bytes) (Upload.sized upload bytes)
    (Filed sha256 (spool sys.lib upload.fileId bytes) tie (Upload.sized upload bytes) bytes own) own
    (uploaded sha256 sys upload bytes faults tie) := uploaded_leaves
  have spooled : Truthful sha256 (spool sys.lib upload.fileId bytes) := truthful.same rfl rfl
  have under : OwnTrue sha256 (spool sys.lib upload.fileId bytes) (Upload.sized upload bytes).key own := by
    rintro ⟨id,row⟩ member _ _ keyed
    exact absurd keyed (fresh_unknown fresh (sound.rows id row (get_eq_some.mpr member)))
  have ended := finalised_truthful injective spooled under finds leaves
  exact ended

theorem complete_honest
    (found : sys.sessions.get sessionId = some held) (reliable : Reliable sha256 sys (.complete sessionId faults tie now)) :
    Truthful sha256 (completed sha256 sys sessionId held faults tie now).1 ∧
      ((completed sha256 sys sessionId held faults tie now).2.2 = .ok () →
        Serves (completed sha256 sys sessionId held faults tie now).1 held.session.fileId held.bytes) := by
  obtain ⟨finds,same⟩ := reliable held found
  have leaves : Leaves sys.lib (held.session.upload held.session.totalSize now)
      (Filed sha256 sys.lib tie (held.session.upload held.session.totalSize now) held.bytes
        (completedOwn sha256 faults tie now sys.lib sessionId held.session))
      (completedOwn sha256 faults tie now sys.lib sessionId held.session)
      ((completed sha256 sys sessionId held faults tie now).1,(completed sha256 sys sessionId held faults tie now).2.2) :=
    completed_leaves sound found
  have under : OwnTrue sha256 sys.lib (held.session.upload held.session.totalSize now).key
      (completedOwn sha256 faults tie now sys.lib sessionId held.session) := completed_ownTrue truthful same
  have ended := finalised_truthful injective truthful under finds leaves
  exact ended

end

theorem copy_truthful {newFileId : String} {insert : Option AppError} (sound : Sound sha256 sys) (truthful : Truthful sha256 sys.lib)
    (fresh : newFileId ∉ sys.minted) : Truthful sha256 (copyFile sys.lib fileId newFileId userId now insert).1 := by
  obtain ⟨files,blobs,_,_,_⟩ : Copied sys.lib fileId newFileId userId now (copyFile sys.lib fileId newFileId userId now insert).1 :=
    copyFile_copied
  have kept : ∀ id row, sys.lib.files.get id = some row → row.Active → row.isVideo = false →
      HashTrue sha256 (copyFile sys.lib fileId newFileId userId now insert).1 row := by
    intro id row found active plain hash known
    rw [blobs row.storageKey (fresh_unknown fresh (sound.rows id row found))]
    exact truthful.hashed id row found active plain hash known
  rcases files with same | ⟨source,found,active,_,same,object⟩
  · refine ⟨?_,?_⟩
    · intro id row there
      rw [same] at there
      exact truthful.plain id row there
    · intro id row there
      rw [same] at there
      exact kept id row there
  · refine ⟨?_,?_⟩
    · intro id row there plain
      rw [same,get_set] at there
      split at there
      · cases there
        exact truthful.plain fileId source found plain
      · exact truthful.plain id row there plain
    · intro id row there here plain
      rw [same,get_set] at there
      split at there
      · cases there
        intro hash known
        obtain ⟨bytes,stored,hashed⟩ := truthful.hashed fileId source found active plain hash known
        exact ⟨bytes,object bytes stored,hashed⟩
      · exact kept id row there here plain

section
variable (truthful : Truthful sha256 lib)
include truthful

theorem updateRow_truthful {change : FileRow → Option FileRow}
    (alike : ∀ row row', change row = some row' → row'.isVideo = row.isVideo ∧ row'.hlsReady = row.hlsReady)
    (hashed : ∀ row row', lib.files.get fileId = some row → change row = some row' → row'.Active → row'.isVideo = false →
      HashTrue sha256 lib row') : Truthful sha256 (updateRow lib fileId change) := by
  unfold updateRow
  cases made : (lib.files.get fileId).bind change with
  | none => exact truthful
  | some changed =>
    obtain ⟨before,found,same⟩ := bind_eq_some_iff.mp made
    refine ⟨?_,?_⟩
    · intro id row there plain
      dsimp only at there
      rw [get_set] at there
      split at there
      · cases there
        obtain ⟨video,ready⟩ := alike before changed same
        rw [ready]
        exact truthful.plain fileId before found (video.symm.trans plain)
      · exact truthful.plain id row there plain
    · intro id row there active plain
      dsimp only at there
      rw [get_set] at there
      split at there
      · cases there
        exact hashed before changed found same active plain
      · exact truthful.hashed id row there active plain

theorem trash_truthful : Truthful sha256 (updateRow lib fileId (trashed now)) := by
  refine updateRow_truthful truthful ?_ ?_
  · intro row row' made
    obtain ⟨_,rfl⟩ := trashed_some made
    exact ⟨rfl,rfl⟩
  · intro row row' _ made active
    obtain ⟨_,rfl⟩ := trashed_some made
    cases active

theorem restore_truthful
    (hashed : ∀ row ∈ lib.files.get fileId, ¬row.Active → row.isVideo = false → ∀ hash ∈ row.contentHash,
      (lib.blobs.get row.storageKey).map sha256 = some hash) : Truthful sha256 (updateRow lib fileId restored) := by
  refine updateRow_truthful truthful ?_ ?_
  · intro row row' made
    obtain ⟨_,rfl⟩ := restored_some made
    exact ⟨rfl,rfl⟩
  · intro row row' found made _ plain hash known
    obtain ⟨inactive,rfl⟩ := restored_some made
    obtain ⟨bytes,there,same⟩ := map_eq_some_iff.mp (hashed row found inactive plain hash known)
    exact ⟨bytes,there,same.symm⟩

theorem delete_truthful {fileIds : List String} {counts : Option AppError} :
    Truthful sha256 (permanentDelete lib fileIds counts) := by
  have deleted : Deleted lib (permanentDelete lib fileIds counts) := permanentDelete_deleted
  refine ⟨fun id row there => truthful.plain id row (deleted.files id row there),?_⟩
  intro id row there active plain hash known
  rw [deleted.blobs id row there]
  exact truthful.hashed id row (deleted.files id row there) active plain hash known

theorem putContent_truthful {put updates : Option AppError}
    (same : ∀ row ∈ lib.files.get fileId, row.Active → body ≠ [] → put = none →
      HashedUnder lib.files row.storageKey (· = sha256 body)) :
    Truthful sha256 (putFileContent lib fileId body put updates).1 := by
  have replaced : Replaced lib fileId body put (putFileContent lib fileId body put updates).1 := putFileContent_replaced
  generalize (putFileContent lib fileId body put updates).1 = out at replaced
  cases replaced with
  | refused => exact truthful
  | stored target files found active filled through sized =>
    have before : ∀ id row, files.get id = some row → ∃ old, lib.files.get id = some old ∧
        row.storageKey = old.storageKey ∧ row.isVideo = old.isVideo ∧ row.hlsReady = old.hlsReady ∧
        row.contentHash = old.contentHash ∧ row.deletedAt = old.deletedAt := by
      intro id row there
      rcases sized with rfl | rfl
      · exact ⟨row,there,rfl,rfl,rfl,rfl,rfl⟩
      · rw [get_set] at there
        split at there
        · rename_i here
          cases there
          exact ⟨target,by rw [here]; exact found,rfl,rfl,rfl,rfl,rfl⟩
        · exact ⟨row,there,rfl,rfl,rfl,rfl,rfl⟩
    refine ⟨?_,?_⟩
    · intro id row there plain
      obtain ⟨old,was,_,video,ready,_,_⟩ := before id row there
      rw [ready]
      exact truthful.plain id old was (video.symm.trans plain)
    · intro id row there here plain hash known
      obtain ⟨old,was,keyed,video,_,declared,deleted⟩ := before id row there
      rw [declared] at known
      have wasActive : old.Active := deleted.symm.trans here
      have wasPlain := video.symm.trans plain
      dsimp only
      rw [keyed,get_set]
      split
      · rename_i shared
        exact ⟨body,rfl,hashedUnder_row (same target found active filled through) was wasActive wasPlain shared hash known⟩
      · exact truthful.hashed id old was wasActive wasPlain hash known

theorem encoded_truthful : Truthful sha256 (encoded lib fileId bytes) := by
  have ended : Encoded lib fileId bytes (encoded lib fileId bytes) := encoded_encoded
  generalize encoded lib fileId bytes = out at ended
  cases ended with
  | refused => exact truthful
  | ended target found awaits =>
    -- the row that has changed is a video
    have others : ∀ id row, (lib.files.set fileId (readyRow target)).get id = some row → row.isVideo = false →
        lib.files.get id = some row := by
      intro id row there plain
      rw [get_set] at there
      split at there
      · cases there
        have video : target.isVideo = false := plain
        rw [awaits.1] at video
        cases video
      · exact there
    exact ⟨fun id row there plain => truthful.plain id row (others id row there plain) plain,
      fun id row there active plain => truthful.hashed id row (others id row there plain) active plain⟩

end

theorem step_truthful (injective : Function.Injective sha256) (sound : Sound sha256 sys) (truthful : Truthful sha256 sys.lib)
    (reliable : Reliable sha256 sys e) (fired : step sha256 sys e = some next) :
    Truthful sha256 next.lib ∧ ∀ fileId bytes, Answers sha256 sys e fileId bytes → Serves next.lib fileId bytes := by
  cases step_fired fired with
  | upload upload bytes faults tie fresh =>
    obtain ⟨whole,serves⟩ : Truthful sha256 (uploaded sha256 sys upload bytes faults tie).1 ∧ _ :=
      upload_honest injective sound truthful fresh reliable
    refine ⟨whole,?_⟩
    intro fileId bytes answers
    cases answers with
    | upload _ _ _ _ ok => exact serves ok
  | create sessionId session bytes declares fresh unused => exact ⟨truthful,fun _ _ answers => by cases answers⟩
  | receive sessionId held found =>
    obtain ⟨files,blobs,_⟩ : (received sessionId held sys.lib).files = sys.lib.files ∧
      (received sessionId held sys.lib).blobs = sys.lib.blobs ∧ _ := received_same
    exact ⟨truthful.same files blobs,fun _ _ answers => by cases answers⟩
  | complete sessionId faults tie now held found =>
    obtain ⟨whole,serves⟩ := complete_honest injective sound truthful found reliable
    refine ⟨whole,?_⟩
    intro fileId bytes answers
    cases answers with
    | complete _ held' _ _ _ found' ok =>
      rw [found] at found'
      cases found'
      exact serves ok
  | copy fileId newFileId userId now insert fresh => exact ⟨copy_truthful sound truthful fresh,fun _ _ answers => by cases answers⟩
  | putContent fileId body put updates => exact ⟨putContent_truthful truthful reliable,fun _ _ answers => by cases answers⟩
  | trash fileId now => exact ⟨trash_truthful truthful,fun _ _ answers => by cases answers⟩
  | restore fileId => exact ⟨restore_truthful truthful reliable,fun _ _ answers => by cases answers⟩
  | delete fileIds counts => exact ⟨delete_truthful truthful,fun _ _ answers => by cases answers⟩
  | encoded fileId bundle => exact ⟨encoded_truthful truthful,fun _ _ answers => by cases answers⟩

theorem uploads_read_back (sha256 : Bytes → String) (injective : Function.Injective sha256) (events : List Event)
    (reliable : Schedule.Along (step sha256) (Reliable sha256) empty events) :
    Schedule.Along (step sha256) (Honest sha256) empty events := by
  have start : Sound sha256 empty ∧ Truthful sha256 empty.lib := ⟨sound_empty,truthful_empty⟩
  refine Schedule.along_under (motive := fun sys => Sound sha256 sys ∧ Truthful sha256 sys.lib) ?_ ?_ start reliable
  · rintro sys e ⟨sound,truthful⟩ fits next fired
    obtain ⟨whole,serves⟩ := step_truthful injective sound truthful fits fired
    refine ⟨whole.hashesServed,?_⟩
    intro fileId bytes answers
    obtain ⟨row,found,object⟩ := serves fileId bytes answers
    refine ⟨row,found,?_⟩
    intro plain
    rw [whole.plainServed found plain]
    exact object plain
  · rintro sys e next ⟨sound,truthful⟩ fits fired
    exact ⟨step_sound sound fired,(step_truthful injective sound truthful fits fired).1⟩

theorem digest_injective : Function.Injective digest := by
  have lead : ∀ rest : List Char, String.ofList ('x' :: rest) ≠ "9f86d081884c7d659a2feaa0c55ad015a3bf4f1b2b0b822cd15d6c15b0f00a08" := by
    intro rest same
    have texts := congrArg String.toList same
    rw [String.toList_ofList] at texts
    cases texts
  have byte : Function.Injective Char.ofUInt8 := by
    intro one other same
    exact UInt8.toUInt32_inj.mp (congrArg Char.val same)
  intro one other same
  unfold digest at same
  split at same
  · rename_i first
    split at same
    · rename_i second
      exact first.trans second.symm
    · exact absurd same.symm (lead _)
  · split at same
    · exact absurd same (lead _)
    · have texts := congrArg String.toList same
      rw [String.toList_ofList,String.toList_ofList] at texts
      exact List.map_injective_iff.mpr byte (List.cons.inj texts).2

instance (sha256 : Bytes → String) (sys : System) : (e : Event) → Decidable (Reliable sha256 sys e)
  | .upload _ _ _ _ => inferInstanceAs (Decidable (_ → ∀ _ ∈ _, _))
  | .complete _ _ _ _ => inferInstanceAs (Decidable (∀ _ ∈ _, (_ → ∀ _ ∈ _, _) ∧ (_ → _ → ∀ _ ∈ _, ∀ _ ∈ _, _)))
  | .putContent _ _ _ _ => inferInstanceAs (Decidable (∀ _ ∈ _, _ → _ → _ → ∀ _ ∈ _, _))
  | .restore _ => inferInstanceAs (Decidable (∀ _ ∈ _, _))
  | .create _ _ _ _ => .isTrue trivial
  | .receive _ => .isTrue trivial
  | .copy _ _ _ _ _ => .isTrue trivial
  | .trash _ _ => .isTrue trivial
  | .delete _ _ => .isTrue trivial
  | .encoded _ _ => .isTrue trivial

theorem uploads_read_back_notes : Schedule.Along (step digest) (Honest digest) empty
    (twoNotes ++ [.copy "a" "c" "u" 3 none,.trash "a" 4,.restore "a",.delete ["a"] none,.upload (noteUpload "d" 5) note noFaults 0]) :=
  uploads_read_back digest digest_injective _ (by decide +kernel)

theorem honest_run {events : List Event} (along : Schedule.Along (step sha256) (Honest sha256) empty events)
    (ran : Schedule.run (step sha256) empty events = some next) : HashesServed sha256 next.lib :=
  Schedule.run_along (motive := fun sys => HashesServed sha256 sys.lib) (fun _ _ next _ honest fired => (honest next fired).1)
    truthful_empty.hashesServed along ran

def otherNote : Bytes := [110,111,116,101]

def staleNotes : List Event :=
  [.upload (noteUpload "a" 1) note noFaults 0,.putContent "a" otherNote none none,.upload (noteUpload "b" 2) note noFaults 0]

def readFile (sys : System) (fileId : String) : Option Bytes := (sys.lib.files.get fileId).bind (served sys.lib)

theorem stale_hash_shared : (Schedule.run (step digest) empty staleNotes).map (fun sys => readFile sys "b") = some (some otherNote) ∧
    ¬Schedule.Along (step digest) (Honest digest) empty staleNotes := by
  have shown : (Schedule.run (step digest) empty staleNotes).map (fun sys => (readFile sys "b",
      (sys.lib.files.get "b").map (fun row => (decide row.Active,row.isVideo,row.contentHash)))) =
      some (some otherNote,some (true,false,some (digest note))) := by decide +kernel
  obtain ⟨sys,ran,held⟩ := map_eq_some_iff.mp shown
  obtain ⟨read,columns⟩ := Prod.mk.inj held
  refine ⟨map_eq_some_iff.mpr ⟨sys,ran,read⟩,?_⟩
  intro along
  obtain ⟨row,found,same⟩ := map_eq_some_iff.mp columns
  obtain ⟨active,rest⟩ := Prod.mk.inj same
  obtain ⟨plain,hash⟩ := Prod.mk.inj rest
  obtain ⟨bytes,there,hashed⟩ := honest_run along ran "b" row found (of_decide_eq_true active) plain (digest note) hash
  have here : served sys.lib row = some otherNote := by
    unfold readFile at read
    rw [found] at read
    exact read
  rw [here] at there
  cases there
  exact absurd (digest_injective hashed) (by decide)

end Ownly.Files.Drive
