import Ownly.AppError
import Ownly.Folders.Listing
import Ownly.Uploads.Quota

-- backend/src/shares/store.rs: what a link lists, and what it opens.
namespace Ownly.Shares
open Folders (FolderRow Forest OrderBy activeFolder activeParent activeChildren subtreeRows)
open Uploads.Quota (i64Max bigint)
open List

inductive ResourceType where
  | file
  | folder
  deriving DecidableEq, Repr

structure ShareRecord where
  userId : String
  resourceType : ResourceType
  resourceId : String
  deriving DecidableEq, Repr

structure FileRow where
  userId : String
  folderId : Option String
  deletedAt : Option Int
  sizeBytes : Int
  storageKey : String
  name : String
  mimeType : Option String
  hlsReady : Bool
  downloadExportReady : Bool
  hlsEncodeStatus : Option String
  audioWaveformReady : Bool
  audioEncodeStatus : Option String
  deriving DecidableEq, Repr

structure Library where
  folders : KeyMap String FolderRow
  files : KeyMap String FileRow

structure SharedFileRow where
  storageKey : String
  name : String
  mimeType : Option String
  hlsReady : Bool
  downloadExportReady : Bool
  hlsEncodeStatus : Option String
  audioWaveformReady : Bool
  audioEncodeStatus : Option String
  deriving DecidableEq, Repr

-- `.. WHERE user_id = $2` of the two tables.
def foldersOf (library : Library) (userId : String) : KeyMap String FolderRow :=
  library.folders.retain (fun _ row => decide (row.userId = userId))

def ownFile (library : Library) (userId fileId : String) : Option FileRow :=
  (library.files.get fileId).filter (fun row => decide (row.userId = userId ∧ row.deletedAt = none))

-- The loop of `folder_is_under_root`, one query a round, over the folders of the user.
def walkUp (folders : KeyMap String FolderRow) (rootId : String) : Nat → String → Option Bool
  | 0,_ => none
  | rounds + 1,current => match (folders.get current).filter (fun row => decide row.Active) with
    | none => some false
    | some row => match row.parentId with
      | none => some false
      | some parent => if parent = rootId then some true else walkUp folders rootId rounds parent

def folderIsUnderRoot (library : Library) (userId folderId rootId : String) : Option Bool :=
  if folderId = rootId then some true
  else walkUp (foldersOf library userId) rootId ((foldersOf library userId).entries.length + 1) folderId

def ensureBrowseFolderInShare (library : Library) (share : ShareRecord) (browseFolderId : Option String) : Option (Except AppError Unit) :=
  if share.resourceType ≠ .folder then some (.error (.badRequest "this share link is for a single file"))
  else match browseFolderId with
    | none => some (.ok ())
    | some folderId => (folderIsUnderRoot library share.userId folderId share.resourceId).map
      (fun under => if under then .ok () else .error .notFound)

def sharedRow (row : FileRow) : SharedFileRow :=
  ⟨row.storageKey,row.name,row.mimeType,row.hlsReady,row.downloadExportReady,row.hlsEncodeStatus,row.audioWaveformReady,row.audioEncodeStatus⟩

def loadFileInShareScope (library : Library) (share : ShareRecord) (fileId : String) : Option (Except AppError SharedFileRow) :=
  if share.resourceType = .file ∧ fileId ≠ share.resourceId then some (.error .notFound)
  else match ownFile library share.userId fileId with
    | none => some (.error .notFound)
    | some row => match share.resourceType with
      | .file => some (.ok (sharedRow row))
      | .folder => match row.folderId with
        | none => some (.error .notFound)
        | some parentFolder => (folderIsUnderRoot library share.userId parentFolder share.resourceId).map
          (fun under => if under then .ok (sharedRow row) else .error .notFound)

def subtree (library : Library) (share : ShareRecord) : Option (List String) :=
  let folders := foldersOf library share.userId
  subtreeRows folders (folders.entries.length + 1) ([share.resourceId].filter (activeFolder folders))

def filesIn (library : Library) (share : ShareRecord) (folderIds : List String) : List (String × FileRow) :=
  (library.files.entries.map (fun entry => (entry.1,entry.2))).filter (fun file =>
    decide (file.2.userId = share.userId ∧ (∃ inside ∈ file.2.folderId.toList, inside ∈ folderIds) ∧ file.2.deletedAt = none))

def listAllFilesInShare (library : Library) (order : OrderBy (String × FileRow)) (share : ShareRecord) : Option (List (String × FileRow)) :=
  match share.resourceType with
  | .file => some ((ownFile library share.userId share.resourceId).toList.map (share.resourceId,·))
  | .folder => (subtree library share).map (fun rows => order.sort (filesIn library share rows))

def listAllFoldersInShare (library : Library) (order : OrderBy (String × FolderRow)) (share : ShareRecord) :
    Option (List (String × FolderRow)) :=
  match share.resourceType with
  | .file => some []
  | .folder => (subtree library share).map (fun rows =>
    order.sort (rows.filterMap (fun id => ((foldersOf library share.userId).get id).map (id,·))))

structure PublicShareTreeStats where
  fileCount : Nat
  folderCount : Nat
  totalBytes : Int
  deriving DecidableEq, Repr

def computeShareTreeStats (library : Library) (share : ShareRecord) : Option (Except AppError PublicShareTreeStats) :=
  match share.resourceType with
  | .file => some (match ownFile library share.userId share.resourceId with
    | none => .error .notFound
    | some row => .ok ⟨1,0,row.sizeBytes⟩)
  | .folder => (subtree library share).map (fun rows =>
    let files := filesIn library share rows
    let folders := (foldersOf library share.userId).entries.filter (fun entry =>
      decide (entry.1 ∈ rows ∧ entry.1 ≠ share.resourceId ∧ entry.2.Active))
    (bigint (files.map (fun file => file.2.sizeBytes)).sum).map (fun total => ⟨files.length,folders.length,total⟩))

def Inside (library : Library) (share : ShareRecord) (folderId : String) : Prop :=
  Ancestry.Reaches (activeParent (foldersOf library share.userId)) folderId share.resourceId

def Shared (library : Library) (share : ShareRecord) (file : FileRow) : Prop :=
  file.userId = share.userId ∧ (∃ inside ∈ file.folderId.toList, Inside library share inside) ∧ file.deletedAt = none

open Classical in
noncomputable def sharedBytes (library : Library) (share : ShareRecord) : Int :=
  library.files.total (fun _ file => if Shared library share file then file.sizeBytes else 0)

def RootOpen (library : Library) (share : ShareRecord) : Prop := activeFolder (foldersOf library share.userId) share.resourceId = true

-- A link opens what it lists, and counts it.
structure Agrees (library : Library) (byFile : OrderBy (String × FileRow)) (byFolder : OrderBy (String × FolderRow))
    (share : ShareRecord) : Prop where
  files : ∃ listed, listAllFilesInShare library byFile share = some listed ∧
    ∀ fileId, ∃ answer, loadFileInShareScope library share fileId = some answer ∧
      (fileId ∈ listed.map Prod.fst ↔ ∃ row, answer = .ok row)
  folders : ∃ listed, listAllFoldersInShare library byFolder share = some listed ∧
    ∀ folderId, ∃ answer, ensureBrowseFolderInShare library share (some folderId) = some answer ∧
      (folderId ∈ listed.map Prod.fst ↔ answer = .ok ())
  stats : ∃ files folders, listAllFilesInShare library byFile share = some files ∧ listAllFoldersInShare library byFolder share = some folders ∧
    computeShareTreeStats library share = some (.ok ⟨files.length,(folders.filter (fun folder => decide (folder.1 ≠ share.resourceId))).length,
      (files.map (fun file => file.2.sizeBytes)).sum⟩)

section
variable {library : Library} {share : ShareRecord} {folders : KeyMap String FolderRow} {folderId rootId userId : String} {rounds : Nat}

theorem foldersOf_forest (forest : Forest library.folders) (userId : String) : Forest (foldersOf library userId) := by
  refine Ancestry.acyclic_of_sub (fun id above up => ?_) forest
  obtain ⟨row,present,linked⟩ := Folders.parent_some up
  simp only [foldersOf,KeyMap.get_retain,Option.filter_eq_some_iff] at present
  rw [Folders.parent_eq present.1]
  exact linked

theorem walkUp_round (current : String) : walkUp folders rootId (rounds + 1) current = match activeParent folders current with
    | none => some false
    | some parent => if parent = rootId then some true else walkUp folders rootId rounds parent := by
  rw [walkUp,activeParent]
  cases folders.get current with
  | none => rfl
  | some row =>
    by_cases active : row.Active
    · simp only [Option.filter_some,active,decide_true,if_true,Option.bind_some]
    · simp only [Option.filter_some,active,decide_false,Bool.false_eq_true,if_false,Option.bind_some]

theorem walkUp_true (walked : walkUp folders rootId rounds folderId = some true) : Ancestry.Reaches (activeParent folders) folderId rootId := by
  induction rounds generalizing folderId with
  | zero => cases walked
  | succ rounds ih =>
    rw [walkUp_round] at walked
    cases up : activeParent folders folderId with
    | none => rw [up] at walked; cases walked
    | some parent =>
      simp only [up] at walked
      split at walked
      case isTrue same => exact .head (same ▸ up) (Ancestry.reaches_refl _ _)
      case isFalse other => exact .head up (ih walked)

theorem walkUp_false (walked : walkUp folders rootId rounds folderId = some false) (other : folderId ≠ rootId) :
    ¬Ancestry.Reaches (activeParent folders) folderId rootId := by
  induction rounds generalizing folderId with
  | zero => cases walked
  | succ rounds ih =>
    intro reaches
    rw [walkUp_round] at walked
    rcases Ancestry.reaches_iff.mp reaches with same | ⟨parent,up,rest⟩
    · exact other same
    · simp only [up] at walked
      split at walked
      · cases walked
      case isFalse differ => exact ih walked differ rest

theorem walkUp_long (unended : walkUp folders rootId rounds folderId = none) :
    ∃ above, Ancestry.climb (activeParent folders) rounds folderId = some above := by
  induction rounds generalizing folderId with
  | zero => exact ⟨folderId,rfl⟩
  | succ rounds ih =>
    rw [walkUp_round] at unended
    cases up : activeParent folders folderId with
    | none => rw [up] at unended; cases unended
    | some parent =>
      simp only [up] at unended
      split at unended
      · cases unended
      · obtain ⟨above,climbed⟩ := ih unended
        exact ⟨above,(Ancestry.climb_succ up).trans climbed⟩

theorem folderIsUnderRoot_exact (forest : Forest library.folders) (share : ShareRecord) (folderId : String) :
    ∃ under, folderIsUnderRoot library share.userId folderId share.resourceId = some under ∧ (under = true ↔ Inside library share folderId) := by
  unfold folderIsUnderRoot Inside
  by_cases same : folderId = share.resourceId
  · refine ⟨true,if_pos same,?_⟩
    rw [same]
    exact iff_of_true rfl (Ancestry.reaches_refl _ _)
  · rw [if_neg same]
    cases walked : walkUp (foldersOf library share.userId) share.resourceId ((foldersOf library share.userId).entries.length + 1) folderId with
    | none =>
      obtain ⟨above,climbed⟩ := walkUp_long walked
      have bound := Ancestry.climb_bounded (Folders.activeParent_acyclic (foldersOf_forest forest share.userId))
        (fun _ _ up => Folders.parent_listed (Folders.activeParent_parent up)) climbed
      rw [length_map] at bound
      omega
    | some under =>
      refine ⟨under,rfl,?_⟩
      cases under with
      | true => exact iff_of_true rfl (walkUp_true walked)
      | false => exact iff_of_false (by decide) (walkUp_false walked same)

theorem subtreeRows_nodup {level rows : List String} (acyclic : Ancestry.Acyclic (activeParent folders))
    (actives : ∀ id ∈ level, activeFolder folders id = true) (once : level.Nodup)
    (apart : ∀ a ∈ level, ∀ b ∈ level, Ancestry.Reaches (activeParent folders) a b → a = b)
    (ended : subtreeRows folders rounds level = some rows) : rows.Nodup := by
  induction rounds generalizing level rows with
  | zero =>
    cases level with
    | nil =>
      cases ended
      exact nodup_nil
    | cons id rest => cases ended
  | succ rounds ih =>
    cases level with
    | nil =>
      cases ended
      exact nodup_nil
    | cons id rest =>
      obtain ⟨later,inner,rfl⟩ := Option.map_eq_some_iff.mp ended
      have child_up : ∀ child ∈ (id :: rest).flatMap (activeChildren folders),
          activeFolder folders child = true ∧ ∃ above ∈ id :: rest, activeParent folders child = some above := by
        intro child member
        obtain ⟨above,listed,under⟩ := mem_flatMap.mp member
        exact ⟨(Folders.activeChildren_mem.mp under).1,above,listed,(Folders.activeChildren_mem.mp under).2⟩
      have next_once : ((id :: rest).flatMap (activeChildren folders)).Nodup := by
        refine nodup_flatMap.mpr ⟨fun _ _ => Folders.childrenWhere_nodup,?_⟩
        refine once.imp (fun differ => ?_)
        intro child left right
        have first_ := (Folders.activeChildren_mem.mp left).2
        have second := (Folders.activeChildren_mem.mp right).2
        exact differ (Option.some.inj (first_.symm.trans second))
      have next_apart : ∀ a ∈ (id :: rest).flatMap (activeChildren folders), ∀ b ∈ (id :: rest).flatMap (activeChildren folders),
          Ancestry.Reaches (activeParent folders) a b → a = b := by
        intro a left b right reaches
        obtain ⟨-,above,listed,up⟩ := child_up a left
        obtain ⟨-,above',listed',up'⟩ := child_up b right
        rcases Ancestry.reaches_iff.mp reaches with same | ⟨parent,step,rest_⟩
        · exact same
        · obtain rfl := Option.some.inj (step.symm.trans up)
          obtain rfl := apart parent listed above' listed' (rest_.tail up')
          exact absurd rest_ (acyclic b parent up')
      refine nodup_append.mpr ⟨once,ih (fun child member => (child_up child member).1) next_once next_apart inner,?_⟩
      rintro a here b there rfl
      obtain ⟨child,listed,reaches⟩ := (Folders.subtreeRows_mem (fun child member => (child_up child member).1) inner).mp there
      obtain ⟨-,above,top,up⟩ := child_up child listed
      obtain rfl := apart a here above top (reaches.tail up)
      exact acyclic child a up reaches

theorem subtree_exact (forest : Forest library.folders) (share : ShareRecord) : ∃ rows, subtree library share = some rows ∧ rows.Nodup ∧
    ∀ id, id ∈ rows ↔ RootOpen library share ∧ Inside library share id := by
  have acyclic := Folders.activeParent_acyclic (foldersOf_forest forest share.userId)
  have actives : ∀ id ∈ [share.resourceId].filter (activeFolder (foldersOf library share.userId)),
      activeFolder (foldersOf library share.userId) id = true := fun id member => (mem_filter.mp member).2
  have short : ∀ id root k, root ∈ [share.resourceId].filter (activeFolder (foldersOf library share.userId)) →
      Ancestry.climb (activeParent (foldersOf library share.userId)) k id = some root →
      k < (foldersOf library share.userId).entries.length + 1 := by
    intro id root k _ climbed
    have bound := Ancestry.climb_bounded acyclic (fun _ _ up => Folders.parent_listed (Folders.activeParent_parent up)) climbed
    rw [length_map] at bound
    exact Nat.lt_succ_of_le bound
  obtain ⟨rows,ended⟩ := Folders.subtreeRows_ends actives short
  refine ⟨rows,ended,subtreeRows_nodup acyclic actives (List.Nodup.filter _ (nodup_singleton _)) ?_ ended,fun id => ?_⟩
  · intro a left b right _
    rw [mem_singleton.mp (mem_filter.mp left).1,mem_singleton.mp (mem_filter.mp right).1]
  · rw [Folders.subtreeRows_mem actives ended]
    simp [RootOpen,Inside]

theorem inside_active {id : String} (rootOpen : RootOpen library share) (inside : Inside library share id) :
    ∃ row, (foldersOf library share.userId).get id = some row ∧ row.Active := by
  rcases Ancestry.reaches_iff.mp inside with rfl | ⟨parent,up,-⟩
  · exact Folders.activeFolder_iff.mp rootOpen
  · obtain ⟨row,present,active,-⟩ := Folders.activeParent_some up
    exact ⟨row,present,active⟩

theorem ownFile_some {fileId : String} {row : FileRow} :
    ownFile library userId fileId = some row ↔ library.files.get fileId = some row ∧ row.userId = userId ∧ row.deletedAt = none := by
  simp [ownFile,Option.filter_eq_some_iff]

theorem load_exact (forest : Forest library.folders) (folderShare : share.resourceType = .folder) (fileId : String) :
    ∃ answer, loadFileInShareScope library share fileId = some answer ∧
      ((∃ row, answer = .ok row) ↔ ∃ row, library.files.get fileId = some row ∧ Shared library share row) := by
  unfold loadFileInShareScope Shared
  rw [if_neg (by simp [folderShare])]
  cases found : ownFile library share.userId fileId with
  | none =>
    refine ⟨.error .notFound,rfl,iff_of_false (by simp) ?_⟩
    rintro ⟨row,present,own,-,active⟩
    rw [ownFile_some.mpr ⟨present,own,active⟩] at found
    cases found
  | some row =>
    obtain ⟨present,own,active⟩ := ownFile_some.mp found
    have only : ∀ other, library.files.get fileId = some other → other = row := fun other there => Option.some.inj (there.symm.trans present)
    simp only [folderShare]
    cases place : row.folderId with
    | none =>
      refine ⟨.error .notFound,rfl,iff_of_false (by simp) ?_⟩
      rintro ⟨other,there,-,⟨inside,member,-⟩,-⟩
      obtain rfl := only other there
      rw [place] at member
      cases member
    | some parentFolder =>
      obtain ⟨under,walked,exact_⟩ := folderIsUnderRoot_exact forest share parentFolder
      dsimp only
      rw [walked]
      cases under with
      | true =>
        exact ⟨.ok (sharedRow row),rfl,iff_of_true ⟨_,rfl⟩
          ⟨row,present,own,⟨parentFolder,by simp [place],exact_.mp rfl⟩,active⟩⟩
      | false =>
        refine ⟨.error .notFound,rfl,iff_of_false (by simp) ?_⟩
        rintro ⟨other,there,-,⟨inside,member,here⟩,-⟩
        obtain rfl := only other there
        rw [place] at member
        obtain rfl := mem_singleton.mp member
        exact absurd (exact_.mpr here) (by decide)

theorem ensure_exact (forest : Forest library.folders) (folderShare : share.resourceType = .folder) (folderId : String) :
    ∃ answer, ensureBrowseFolderInShare library share (some folderId) = some answer ∧ (answer = .ok () ↔ Inside library share folderId) := by
  obtain ⟨under,walked,exact_⟩ := folderIsUnderRoot_exact forest share folderId
  unfold ensureBrowseFolderInShare
  rw [if_neg (by simp [folderShare])]
  dsimp only
  rw [walked]
  refine ⟨_,rfl,?_⟩
  rw [← exact_]
  cases under <;> simp

variable {rows : List String}

theorem filesIn_mem {fileId : String} : fileId ∈ (filesIn library share rows).map Prod.fst ↔
    ∃ row, library.files.get fileId = some row ∧ row.userId = share.userId ∧ (∃ inside ∈ row.folderId.toList, inside ∈ rows) ∧
      row.deletedAt = none := by
  unfold filesIn
  simp only [mem_map,mem_filter,decide_eq_true_eq]
  constructor
  · rintro ⟨_,⟨⟨entry,stored,rfl⟩,shared⟩,rfl⟩
    exact ⟨entry.2,KeyMap.get_eq_some.mpr stored,shared⟩
  · rintro ⟨row,present,shared⟩
    exact ⟨(fileId,row),⟨⟨⟨fileId,row⟩,KeyMap.get_eq_some.mp present,rfl⟩,shared⟩,rfl⟩

theorem filesIn_bytes (exact_ : ∀ id, id ∈ rows ↔ Inside library share id) :
    ((filesIn library share rows).map (fun file => file.2.sizeBytes)).sum = sharedBytes library share := by
  have kept : ∀ entries : List (Sigma fun _ : String => FileRow),
      (((entries.map (fun entry => (entry.1,entry.2))).filter (fun file =>
        decide (file.2.userId = share.userId ∧ (∃ inside ∈ file.2.folderId.toList, inside ∈ rows) ∧ file.2.deletedAt = none))).map
          (fun file => file.2.sizeBytes)).sum =
      (entries.map (fun entry => open Classical in if Shared library share entry.2 then entry.2.sizeBytes else 0)).sum := by
    intro entries
    induction entries with
    | nil => rfl
    | cons entry entries ih =>
      have same : (entry.2.userId = share.userId ∧ (∃ inside ∈ entry.2.folderId.toList, inside ∈ rows) ∧ entry.2.deletedAt = none) ↔
          Shared library share entry.2 := by simp only [Shared,exact_]
      rw [map_cons,filter_cons,map_cons,sum_cons,← ih]
      by_cases shared : Shared library share entry.2
      · simp only [same,shared,decide_true,if_true,map_cons,sum_cons]
      · simp only [same,shared,decide_false,Bool.false_eq_true,if_false,Int.zero_add]
  exact kept library.files.entries

def foldersIn (library : Library) (share : ShareRecord) (rows : List String) : List (String × FolderRow) :=
  rows.filterMap (fun id => ((foldersOf library share.userId).get id).map (id,·))

theorem foldersIn_ids (present : ∀ id ∈ rows, ∃ row, (foldersOf library share.userId).get id = some row) :
    (foldersIn library share rows).map Prod.fst = rows := by
  unfold foldersIn
  induction rows with
  | nil => rfl
  | cons id rows ih =>
    obtain ⟨row,found⟩ := present id mem_cons_self
    rw [filterMap_cons,found]
    exact congrArg (id :: ·) (ih (fun other member => present other (mem_cons_of_mem _ member)))

theorem folders_counted (once : rows.Nodup) (present : ∀ id ∈ rows, ∃ row, (foldersOf library share.userId).get id = some row ∧ row.Active) :
    ((foldersOf library share.userId).entries.filter (fun entry =>
      decide (entry.1 ∈ rows ∧ entry.1 ≠ share.resourceId ∧ entry.2.Active))).length =
    (rows.filter (fun id => decide (id ≠ share.resourceId))).length := by
  let counted := (foldersOf library share.userId).entries.filter (fun entry =>
    decide (entry.1 ∈ rows ∧ entry.1 ≠ share.resourceId ∧ entry.2.Active))
  have keys : ((foldersOf library share.userId).entries.map (·.1)).Nodup := (foldersOf library share.userId).keys_nodup
  have alike : (counted.map (·.1)).Perm (rows.filter (fun id => decide (id ≠ share.resourceId))) := by
    refine (perm_ext_iff_of_nodup (keys.sublist (filter_sublist.map _)) (once.filter _)).mpr (fun id => ?_)
    simp only [mem_map,mem_filter,decide_eq_true_eq]
    constructor
    · rintro ⟨entry,⟨-,listed,other,-⟩,rfl⟩
      exact ⟨listed,other⟩
    · rintro ⟨listed,other⟩
      obtain ⟨row,found,active⟩ := present id listed
      exact ⟨⟨id,row⟩,⟨KeyMap.get_eq_some.mp found,listed,other,active⟩,rfl⟩
  rw [← alike.length_eq,length_map]

end

-- A link opens exactly what it lists while the folder that it shares is an active one of
-- the user who shares it (and its bytes can be counted): the walk never looks at that folder.
theorem share_agrees (library : Library) (byFile : OrderBy (String × FileRow)) (byFolder : OrderBy (String × FolderRow)) (share : ShareRecord)
    (forest : Forest library.folders) (folderShare : share.resourceType = .folder) :
    Agrees library byFile byFolder share ↔
      RootOpen library share ∧ -2^63 ≤ sharedBytes library share ∧ sharedBytes library share ≤ i64Max := by
  obtain ⟨rows,ended,once,member⟩ := subtree_exact forest share
  have files : listAllFilesInShare library byFile share = some (byFile.sort (filesIn library share rows)) := by
    rw [listAllFilesInShare,folderShare,ended]
    rfl
  have folders : listAllFoldersInShare library byFolder share = some (byFolder.sort (foldersIn library share rows)) := by
    rw [listAllFoldersInShare,folderShare,ended]
    rfl
  have stats : computeShareTreeStats library share =
      some ((bigint ((filesIn library share rows).map (fun file => file.2.sizeBytes)).sum).map (fun total =>
        ⟨(filesIn library share rows).length,((foldersOf library share.userId).entries.filter (fun entry =>
          decide (entry.1 ∈ rows ∧ entry.1 ≠ share.resourceId ∧ entry.2.Active))).length,total⟩)) := by
    rw [computeShareTreeStats,folderShare,ended]
    rfl
  constructor
  · intro agrees
    have rootOpen : RootOpen library share := by
      obtain ⟨listed,same,each⟩ := agrees.folders
      obtain rfl := Option.some.inj (same.symm.trans folders)
      obtain ⟨answer,opened,iff_⟩ := each share.resourceId
      obtain ⟨answer',opened',inside⟩ := ensure_exact forest folderShare share.resourceId
      obtain rfl := Option.some.inj (opened.symm.trans opened')
      have here := iff_.mpr (inside.mpr (Ancestry.reaches_refl _ _))
      obtain ⟨entry,stored,same⟩ := mem_map.mp here
      obtain ⟨id,listed_,found⟩ := mem_filterMap.mp ((byFolder.perm _).mem_iff.mp stored)
      exact ((member id).mp listed_).1
    have exact_ : ∀ id, id ∈ rows ↔ Inside library share id := fun id => (member id).trans (and_iff_right rootOpen)
    obtain ⟨listed,listedFolders,-,-,counted⟩ := agrees.stats
    rw [stats,filesIn_bytes exact_] at counted
    refine ⟨rootOpen,?_⟩
    unfold bigint at counted
    split at counted
    · assumption
    · cases counted
  · rintro ⟨rootOpen,fits⟩
    have exact_ : ∀ id, id ∈ rows ↔ Inside library share id := fun id => (member id).trans (and_iff_right rootOpen)
    have present : ∀ id ∈ rows, ∃ row, (foldersOf library share.userId).get id = some row ∧ row.Active :=
      fun id listed => inside_active rootOpen ((exact_ id).mp listed)
    have ids : (foldersIn library share rows).map Prod.fst = rows :=
      foldersIn_ids (fun id listed => (present id listed).imp (fun _ found => found.1))
    refine ⟨⟨_,files,fun fileId => ?_⟩,⟨_,folders,fun folderId => ?_⟩,_,_,files,folders,?_⟩
    · obtain ⟨answer,loaded,opens⟩ := load_exact forest folderShare fileId
      refine ⟨answer,loaded,?_⟩
      rw [opens,((byFile.perm _).map Prod.fst).mem_iff,filesIn_mem]
      simp only [Shared,exact_]
    · obtain ⟨answer,opened,inside⟩ := ensure_exact forest folderShare folderId
      refine ⟨answer,opened,?_⟩
      rw [inside,((byFolder.perm _).map Prod.fst).mem_iff,ids]
      exact exact_ folderId
    · have total : (((byFile.sort (filesIn library share rows))).map (fun file => file.2.sizeBytes)).sum = sharedBytes library share := by
        rw [← filesIn_bytes exact_]
        exact ((byFile.perm _).map _).sum_eq
      have count : ((byFolder.sort (foldersIn library share rows)).filter (fun folder => decide (folder.1 ≠ share.resourceId))).length =
          (rows.filter (fun id => decide (id ≠ share.resourceId))).length := by
        rw [((byFolder.perm _).filter _).length_eq]
        conv_rhs => rw [← ids,filter_map,length_map]
        rfl
      rw [stats,filesIn_bytes exact_,total,count,folders_counted once present,(byFile.perm _).length_eq,bigint,if_pos fits]
      rfl

def asStored {ρ : Type} : OrderBy ρ := ⟨id,fun _ => .refl _⟩

def photos (deletedAt : Option Int) : Library := ⟨KeyMap.empty.set "photos" ⟨"ann",none,"photos",deletedAt⟩,KeyMap.empty⟩

def annsLink : ShareRecord := ⟨"ann",.folder,"photos"⟩

theorem photos_forest (deletedAt : Option Int) : Forest (photos deletedAt).folders := by
  refine @Folders.forest_of_rank _ (fun _ => 0) ?_
  intro entry member above inside
  have only : entry = ⟨"photos","ann",none,"photos",deletedAt⟩ := by simpa [photos,KeyMap.set,KeyMap.empty] using member
  subst only
  cases inside

theorem share_agrees_photos : Agrees (photos none) asStored asStored annsLink ↔
    RootOpen (photos none) annsLink ∧ -2^63 ≤ sharedBytes (photos none) annsLink ∧ sharedBytes (photos none) annsLink ≤ i64Max :=
  share_agrees (photos none) asStored asStored annsLink (photos_forest none) rfl

theorem trashed_opened : Forest (photos (some 1)).folders ∧ ¬Agrees (photos (some 1)) asStored asStored annsLink := by
  refine ⟨photos_forest (some 1),fun agrees => ?_⟩
  obtain ⟨listed,same,each⟩ := agrees.folders
  have empty : listAllFoldersInShare (photos (some 1)) asStored annsLink = some [] := by decide +kernel
  obtain rfl := Option.some.inj (same.symm.trans empty)
  obtain ⟨answer,opened,iff_⟩ := each "photos"
  have here : ensureBrowseFolderInShare (photos (some 1)) annsLink (some "photos") = some (.ok ()) := rfl
  obtain rfl := Option.some.inj (opened.symm.trans here)
  cases iff_.mpr rfl

end Ownly.Shares
