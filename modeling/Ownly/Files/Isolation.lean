import Ownly.Files.Drive

-- Files that share a storage key share its object: which calls leave the bytes of the
-- files they are not addressed to, and what one call does to them.
namespace Ownly.Files.Drive
open Storage (Key Bytes)
open Option KeyMap

-- The file whose bytes the call is to change; an encode ends the upload of its file.
def Event.addressee : Event → Option String
  | .putContent fileId _ _ _ => some fileId
  | .encoded fileId _ => some fileId
  | _ => none

def Isolated (sha256 : Bytes → String) (sys : System) (e : Event) : Prop :=
  ∀ next, step sha256 sys e = some next → ∀ id row row', sys.lib.files.get id = some row → next.lib.files.get id = some row' →
    e.addressee ≠ some id → served next.lib row' = served sys.lib row

-- A row besides that of `besides` has its bytes under the key: in the bundle of a stored
-- video, in the plain object of any other file.
def Shares (files : KeyMap String FileRow) (key : Key) (stored : Bool) (besides : Option String) : Prop :=
  ∃ entry ∈ files.entries, besides ≠ some entry.1 ∧ entry.2.storageKey = key ∧ isHlsStoredVideo entry.2 = stored

instance (files : KeyMap String FileRow) (key : Key) (stored : Bool) (besides : Option String) :
    Decidable (Shares files key stored besides) :=
  inferInstanceAs (Decidable (∃ entry ∈ files.entries, _))

def DropsPut (sha256 : Bytes → String) (faults : Faults) (tie : Nat) (lib : Library) (session : Session) (bytes : Bytes) : Prop :=
  faults.findAgain = none ∧ faults.deleteFails = false ∧
    findDedupSource lib.files tie session.fileOwnerId (sha256 bytes) session.totalSize false ≠ none

instance (sha256 : Bytes → String) (faults : Faults) (tie : Nat) (lib : Library) (session : Session) (bytes : Bytes) :
    Decidable (DropsPut sha256 faults tie lib session bytes) := inferInstanceAs (Decidable (_ ∧ _ ∧ _))

-- Replaced content, an encode's bundle and the object of a completion that is tried again
-- go under a key that no other row reads, or has the same bytes already.
def Fits (sha256 : Bytes → String) (sys : System) : Event → Prop
  | .putContent fileId body put _ => ∀ row ∈ sys.lib.files.get fileId, row.Active → body ≠ [] → put = none →
      Shares sys.lib.files row.storageKey false (some fileId) → sys.lib.blobs.get row.storageKey = some body
  | .encoded fileId bundle => ∀ row ∈ sys.lib.files.get fileId, AwaitsEncode fileId row →
      Shares sys.lib.files row.storageKey true (some fileId) → sys.lib.bundles.get row.storageKey = some bundle
  | .complete sessionId faults tie _ => ∀ held ∈ sys.sessions.get sessionId,
      ReachesPut faults tie sys.lib held.session → faults.put = none → ∀ bytes ∈ sys.lib.staged.get sessionId,
      Shares sys.lib.files (storageKey held.session.fileOwnerId held.session.fileId) false none →
        sys.lib.blobs.get (storageKey held.session.fileOwnerId held.session.fileId) =
          if DropsPut sha256 faults tie sys.lib held.session bytes then none else some bytes
  | _ => True

variable {sha256 : Bytes → String} {sys next : System} {lib out : Library} {row row' : FileRow} {id fileId sessionId : String}
  {held : Resumable} {faults : Faults} {tie : Nat} {now : Int} {key : Key} {bytes : Bytes} {own : Option Bytes}
  {files : KeyMap String FileRow} {besides : Option String} {upload : Upload} {e : Event} {inserted : Option FileRow}

theorem served_plain (plain : isHlsStoredVideo row = false) : served lib row = lib.blobs.get row.storageKey := by
  unfold served
  rw [plain]
  exact if_neg Bool.false_ne_true

theorem served_stored (stored : isHlsStoredVideo row = true) : served lib row = lib.bundles.get row.storageKey := by
  unfold served
  rw [stored]
  exact if_pos rfl

theorem served_same (keyed : row'.storageKey = row.storageKey) (kind : isHlsStoredVideo row' = isHlsStoredVideo row)
    (blob : isHlsStoredVideo row = false → out.blobs.get row.storageKey = lib.blobs.get row.storageKey)
    (bundle : isHlsStoredVideo row = true → out.bundles.get row.storageKey = lib.bundles.get row.storageKey) :
    served out row' = served lib row := by
  cases stored : isHlsStoredVideo row with
  | true =>
    rw [served_stored (kind.trans stored),served_stored stored,keyed]
    exact bundle stored
  | false =>
    rw [served_plain (kind.trans stored),served_plain stored,keyed]
    exact blob stored

theorem shares_of {stored : Bool} (found : files.get id = some row) (other : besides ≠ some id) (keyed : row.storageKey = key)
    (kind : isHlsStoredVideo row = stored) : Shares files key stored besides :=
  ⟨⟨id,row⟩,get_eq_some.mp found,other,keyed,kind⟩

theorem shares_row {stored : Bool} (shares : Shares files key stored besides) :
    ∃ id row, files.get id = some row ∧ besides ≠ some id ∧ row.storageKey = key ∧ isHlsStoredVideo row = stored := by
  obtain ⟨⟨id,row⟩,member,other,keyed,kind⟩ := shares
  exact ⟨id,row,get_eq_some.mpr member,other,keyed,kind⟩

theorem writes_served (writes : Writes lib upload out inserted own) (found : lib.files.get id = some row)
    (after : out.files.get id = some row')
    (apart : row.storageKey = upload.key → isHlsStoredVideo row = false → own = lib.blobs.get upload.key) :
    served out row' = served lib row := by
  rw [writes.row_kept found] at after
  cases after
  refine served_same rfl rfl ?_ ?_
  · intro plain
    by_cases here : row.storageKey = upload.key
    · rw [here,writes.own]
      exact apart here plain
    · exact writes.others row.storageKey here
  · intro _
    rw [writes.bundles]

theorem upload_isolated {tie : Nat} (sound : Sound sha256 sys) : Isolated sha256 sys (.upload upload bytes faults tie) := by
  intro next fired id row row' found after _
  cases step_fired fired with
  | upload _ _ _ _ fresh =>
    obtain ⟨own,inserted,writes,_,_⟩ : ∃ own, Leaves (spool sys.lib upload.fileId bytes) (Upload.sized upload bytes)
      (Filed sha256 (spool sys.lib upload.fileId bytes) tie (Upload.sized upload bytes) bytes own) own
      (uploaded sha256 sys upload bytes faults tie) := uploaded_leaves
    have same : served (uploaded sha256 sys upload bytes faults tie).1 row' = served (spool sys.lib upload.fileId bytes) row :=
      writes_served writes found after (fun here _ => absurd here (fresh_unknown fresh (sound.rows id row found)))
    exact same

theorem copy_isolated {newFileId userId : String} {insert : Option AppError} (sound : Sound sha256 sys) :
    Isolated sha256 sys (.copy fileId newFileId userId now insert) := by
  intro next fired id row row' found after _
  cases step_fired fired with
  | copy _ _ _ _ _ fresh =>
    obtain ⟨files,blobs,bundles,_,_⟩ : Copied sys.lib fileId newFileId userId now (copyFile sys.lib fileId newFileId userId now insert).1 :=
      copyFile_copied
    have apart : row.storageKey ≠ storageKey userId newFileId := fresh_unknown fresh (sound.rows id row found)
    have kept : (copyFile sys.lib fileId newFileId userId now insert).1.files.get id = some row := by
      rcases files with same | ⟨source,_,_,absent,same,_⟩
      · rw [same]
        exact found
      · have other : id ≠ newFileId := by
          intro here
          rw [here,absent] at found
          cases found
        rw [same,get_set_ne other]
        exact found
    dsimp only at after
    rw [kept] at after
    cases after
    exact served_same rfl rfl (fun _ => blobs row.storageKey apart) (fun _ => bundles row.storageKey apart)

theorem updateRow_isolated {change : FileRow → Option FileRow}
    (keyed : ∀ row row', change row = some row' → row'.storageKey = row.storageKey ∧ isHlsStoredVideo row' = isHlsStoredVideo row)
    (found : lib.files.get id = some row) (after : (updateRow lib fileId change).files.get id = some row') :
    served (updateRow lib fileId change) row' = served lib row := by
  obtain ⟨blobs,bundles,_,_⟩ : (updateRow lib fileId change).blobs = _ ∧ (updateRow lib fileId change).bundles = _ ∧ _ ∧ _ :=
    updateRow_objects
  have kept : row'.storageKey = row.storageKey ∧ isHlsStoredVideo row' = isHlsStoredVideo row := by
    unfold updateRow at after
    split at after
    · rw [found] at after
      cases after
      exact ⟨rfl,rfl⟩
    · rename_i changed made
      obtain ⟨before,there,same⟩ := bind_eq_some_iff.mp made
      dsimp only at after
      rw [get_set] at after
      split at after
      · rename_i here
        cases after
        rw [here,there] at found
        cases found
        exact keyed row row' same
      · rw [found] at after
        cases after
        exact ⟨rfl,rfl⟩
  exact served_same kept.1 kept.2 (fun _ => by rw [blobs]) (fun _ => by rw [bundles])

theorem trashed_kind (made : trashed now row = some row') : isHlsStoredVideo row' = isHlsStoredVideo row := by
  obtain ⟨_,rfl⟩ := trashed_some made
  rfl

theorem restored_kind (made : restored row = some row') : isHlsStoredVideo row' = isHlsStoredVideo row := by
  obtain ⟨_,rfl⟩ := restored_some made
  rfl

theorem delete_isolated {fileIds : List String} {counts : Option AppError} : Isolated sha256 sys (.delete fileIds counts) := by
  intro next fired id row row' found after _
  cases fired
  have deleted : Deleted sys.lib (permanentDelete sys.lib fileIds counts) := permanentDelete_deleted
  have same := deleted.files id row' after
  rw [found] at same
  cases same
  exact served_same rfl rfl (fun _ => deleted.blobs id row after) (fun _ => deleted.bundles id row after)

section Completions

theorem completedOwn_same : completedOwn sha256 faults tie now lib sessionId held.session =
      lib.blobs.get (storageKey held.session.fileOwnerId held.session.fileId) ↔
    (ReachesPut faults tie lib held.session → faults.put = none → ∀ bytes ∈ lib.staged.get sessionId,
      lib.blobs.get (storageKey held.session.fileOwnerId held.session.fileId) =
        if DropsPut sha256 faults tie lib held.session bytes then none else some bytes) := by
  by_cases reaches : ReachesPut faults tie lib held.session
  · have own : completedOwn sha256 faults tie now lib sessionId held.session =
        stagedOwn sha256 faults tie lib (held.session.upload held.session.totalSize now) sessionId := if_pos reaches
    rw [own]
    unfold stagedOwn
    cases there : lib.staged.get sessionId with
    | none => exact ⟨fun _ _ _ _ member => (by cases member),fun _ => rfl⟩
    | some bytes =>
      dsimp only
      cases put : faults.put with
      | some error =>
        rw [if_pos (fun same => by cases same)]
        exact ⟨fun _ _ none => (by cases none),fun _ => rfl⟩
      | none =>
        rw [if_neg (fun some => some rfl)]
        constructor
        · intro same _ _ found member
          cases member
          exact same.symm
        · intro same
          exact (same reaches rfl bytes rfl).symm
  · rw [completedOwn_else reaches]
    exact ⟨fun _ reached => absurd reached reaches,fun _ => rfl⟩

theorem complete_isolated (sound : Sound sha256 sys) (found : sys.sessions.get sessionId = some held) :
    Isolated sha256 sys (.complete sessionId faults tie now) ↔
      (Shares sys.lib.files (storageKey held.session.fileOwnerId held.session.fileId) false none →
        completedOwn sha256 faults tie now sys.lib sessionId held.session =
          sys.lib.blobs.get (storageKey held.session.fileOwnerId held.session.fileId)) := by
  obtain ⟨inserted,writes,_,_⟩ : Leaves sys.lib (held.session.upload held.session.totalSize now) _ _
      ((completed sha256 sys sessionId held faults tie now).1,(completed sha256 sys sessionId held faults tie now).2.2) :=
    completed_leaves sound found
  have fires : step sha256 sys (.complete sessionId faults tie now) = some {sys with
      lib := (completed sha256 sys sessionId held faults tie now).1
      sessions := sys.sessions.set sessionId ⟨(completed sha256 sys sessionId held faults tie now).2.1,held.bytes⟩} := by
    dsimp only [step]
    rw [found]
  constructor
  · intro isolated shares
    obtain ⟨id,row,there,_,keyed,plain⟩ := shares_row shares
    have same : served (completed sha256 sys sessionId held faults tie now).1 row = served sys.lib row :=
      isolated _ fires id row row there (writes.row_kept there) (fun none => by cases none)
    rw [served_plain plain,served_plain plain,keyed] at same
    rw [← same]
    exact writes.own.symm
  · intro fits next fired id row row' there after _
    rw [fires] at fired
    cases fired
    refine writes_served writes there after ?_
    intro here plain
    exact fits (shares_of there (fun none => by cases none) here plain)

end Completions

section Replacements
variable {body : Bytes} {put updates : Option AppError}

theorem putFileContent_stores (found : lib.files.get fileId = some row) (active : row.Active) (filled : body ≠ []) :
    (putFileContent lib fileId body none updates).1.blobs = lib.blobs.set row.storageKey body ∧
    ∀ other, other ≠ fileId → (putFileContent lib fileId body none updates).1.files.get other = lib.files.get other := by
  unfold putFileContent
  rw [if_neg filled,found]
  dsimp only
  rw [if_pos active]
  cases updates with
  | some error => exact ⟨rfl,fun _ _ => rfl⟩
  | none => exact ⟨rfl,fun _ ne => get_set_ne ne⟩

theorem putContent_isolated : Isolated sha256 sys (.putContent fileId body put updates) ↔
    Fits sha256 sys (.putContent fileId body put updates) := by
  constructor
  · intro isolated row found active filled through shares
    obtain rfl := through
    obtain ⟨id,other,there,apart,keyed,plain⟩ := shares_row shares
    obtain ⟨blobs,files⟩ : (putFileContent sys.lib fileId body none updates).1.blobs = _ ∧ _ := putFileContent_stores found active filled
    have ne : id ≠ fileId := fun same => apart (by rw [same])
    have same : served (putFileContent sys.lib fileId body none updates).1 other = served sys.lib other :=
      isolated _ rfl id other other there (by rw [← there]; exact files id ne) apart
    rw [served_plain plain,served_plain plain,keyed,blobs,get_set_self] at same
    exact same.symm
  · intro fits next fired id row row' there after apart
    cases fired
    have replaced : Replaced sys.lib fileId body put (putFileContent sys.lib fileId body put updates).1 := putFileContent_replaced
    dsimp only at after
    generalize (putFileContent sys.lib fileId body put updates).1 = out at replaced after
    cases replaced with
    | refused =>
      rw [there] at after
      cases after
      rfl
    | stored target files found active filled through sized =>
      have ne : id ≠ fileId := fun same => apart (by rw [same]; rfl)
      have kept : files.get id = some row := by
        rcases sized with rfl | rfl
        · exact there
        · rw [get_set_ne ne]
          exact there
      dsimp only at after
      rw [kept] at after
      cases after
      refine served_same rfl rfl ?_ (fun _ => rfl)
      intro plain
      dsimp only
      rw [get_set]
      split
      · rename_i here
        rw [here]
        exact (fits target found active filled through (shares_of there apart here plain)).symm
      · rfl

theorem encoded_isolated {bundle : Bytes} : Isolated sha256 sys (.encoded fileId bundle) ↔ Fits sha256 sys (.encoded fileId bundle) := by
  constructor
  · intro isolated row found awaits shares
    obtain ⟨id,other,there,apart,keyed,stored⟩ := shares_row shares
    have left : encoded sys.lib fileId bundle = {sys.lib with
        files := sys.lib.files.set fileId (readyRow row),bundles := sys.lib.bundles.set row.storageKey bundle} := by
      unfold encoded
      rw [found]
      exact if_pos awaits
    have ne : id ≠ fileId := fun same => apart (by rw [same])
    have kept : (encoded sys.lib fileId bundle).files.get id = some other := by
      rw [left]
      dsimp only
      rw [get_set_ne ne]
      exact there
    have same : served (encoded sys.lib fileId bundle) other = served sys.lib other :=
      isolated _ rfl id other other there kept apart
    rw [served_stored stored,served_stored stored,keyed,left] at same
    dsimp only at same
    rw [get_set_self] at same
    exact same.symm
  · intro fits next fired id row row' there after apart
    cases fired
    have ended : Encoded sys.lib fileId bundle (encoded sys.lib fileId bundle) := encoded_encoded
    dsimp only at after
    generalize encoded sys.lib fileId bundle = out at ended after
    cases ended with
    | refused =>
      rw [there] at after
      cases after
      rfl
    | ended target found awaits =>
      have ne : id ≠ fileId := fun same => apart (by rw [same]; rfl)
      dsimp only at after
      rw [get_set_ne ne,there] at after
      cases after
      refine served_same rfl rfl (fun _ => rfl) ?_
      intro stored
      dsimp only
      rw [get_set]
      split
      · rename_i here
        rw [here]
        exact (fits target found awaits (shares_of there apart here stored)).symm
      · rfl

end Replacements

theorem isolated_iff (sound : Sound sha256 sys) : Isolated sha256 sys e ↔ Fits sha256 sys e := by
  cases e with
  | upload upload bytes faults tie => exact ⟨fun _ => trivial,fun _ => upload_isolated sound⟩
  | create sessionId session bytes declares =>
    refine ⟨fun _ => trivial,?_⟩
    intro _ next fired id row row' found after _
    cases step_fired fired with
    | create _ _ _ _ _ _ =>
      rw [found] at after
      cases after
      rfl
  | receive sessionId =>
    refine ⟨fun _ => trivial,?_⟩
    intro _ next fired id row row' found after _
    cases step_fired fired with
    | receive _ held _ =>
      obtain ⟨files,blobs,bundles⟩ : (received sessionId held sys.lib).files = sys.lib.files ∧
        (received sessionId held sys.lib).blobs = sys.lib.blobs ∧ (received sessionId held sys.lib).bundles = sys.lib.bundles := received_same
      dsimp only at after
      rw [files,found] at after
      cases after
      exact served_same rfl rfl (fun _ => by rw [blobs]) (fun _ => by rw [bundles])
  | complete sessionId faults tie now =>
    cases found : sys.sessions.get sessionId with
    | none =>
      constructor
      · intro _ held there
        rw [found] at there
        cases there
      · intro _ next fired
        cases step_fired fired with
        | complete _ _ _ _ held there =>
          rw [found] at there
          cases there
    | some held =>
      refine (complete_isolated sound found).trans ?_
      rw [completedOwn_same]
      constructor
      · intro fits held' there reaches through bytes staged shares
        rw [found] at there
        cases there
        exact fits shares reaches through bytes staged
      · intro fits shares reaches through bytes staged
        exact fits held found reaches through bytes staged shares
  | copy fileId newFileId userId now insert => exact ⟨fun _ => trivial,fun _ => copy_isolated sound⟩
  | putContent fileId body put updates => exact putContent_isolated
  | trash fileId now =>
    refine ⟨fun _ => trivial,?_⟩
    intro _ next fired id row row' found after _
    cases fired
    exact updateRow_isolated (fun _ _ made => ⟨trashed_keyed made,trashed_kind made⟩) found after
  | restore fileId =>
    refine ⟨fun _ => trivial,?_⟩
    intro _ next fired id row row' found after _
    cases fired
    exact updateRow_isolated (fun _ _ made => ⟨restored_keyed made,restored_kind made⟩) found after
  | delete fileIds counts => exact ⟨fun _ => trivial,fun _ => delete_isolated⟩
  | encoded fileId bundle => exact encoded_isolated

theorem files_isolated (sha256 : Bytes → String) (events : List Event) :
    Schedule.Along (step sha256) (Isolated sha256) empty events ↔ Schedule.Along (step sha256) (Fits sha256) empty events :=
  Schedule.along_congr (fun _ _ sound => isolated_iff sound) (fun _ _ _ sound _ fired => step_sound sound fired) sound_empty

def note : Bytes := [116,101,115,116]

-- The digest of `note`, and a text of each other file's bytes for theirs.
def digest (bytes : Bytes) : String :=
  if bytes = note then "9f86d081884c7d659a2feaa0c55ad015a3bf4f1b2b0b822cd15d6c15b0f00a08"
  else String.ofList ('x' :: bytes.map Char.ofUInt8)

def noteUpload (fileId : String) (now : Int) : Upload := ⟨fileId,"u","text/plain",false,false,0,now⟩

def twoNotes : List Event := [.upload (noteUpload "a" 1) note noFaults 0,.upload (noteUpload "b" 2) note noFaults 0]

theorem replaced_for_both :
    ¬Schedule.Along (step digest) (Isolated digest) empty (twoNotes ++ [.putContent "a" [110,111] none none]) := by
  have shown : (Schedule.run (step digest) empty twoNotes).map (fun sys =>
      ((sys.lib.files.get "a").map (fun row => (row.storageKey,decide row.Active)),
        (sys.lib.files.get "b").map (fun row => (row.storageKey,isHlsStoredVideo row)),
        sys.lib.blobs.get (storageKey "u" "a"))) =
      some (some (storageKey "u" "a",true),some (storageKey "u" "a",false),some note) := by decide +kernel
  obtain ⟨sys,ran,held⟩ := map_eq_some_iff.mp shown
  obtain ⟨first,rest⟩ := Prod.mk.inj held
  obtain ⟨second,object⟩ := Prod.mk.inj rest
  obtain ⟨row,found,here⟩ := map_eq_some_iff.mp first
  obtain ⟨other,there,alike⟩ := map_eq_some_iff.mp second
  obtain ⟨keyed,active⟩ := Prod.mk.inj here
  obtain ⟨shared,plain⟩ := Prod.mk.inj alike
  intro along
  have fits : Fits digest sys (.putContent "a" [110,111] none none) := putContent_isolated.mp (along.here ran)
  have same := fits row found (of_decide_eq_true active) (by decide) rfl (shares_of there (by decide) (shared.trans keyed.symm) plain)
  rw [keyed,object] at same
  exact absurd same (by decide)

end Ownly.Files.Drive
