import Ownly.Files.Purge

-- Which interleavings purge a blob that a row still references: every row on a key that
-- is about to be purged was inserted after its references were counted.
namespace Ownly.Files.Purge
open Storage (Key)
open List Option KeyMap

def Phase.keys : Phase → List Key
  | .sharing source => [source.row.storageKey]
  | .deleting keys => keys
  | .checking keys => keys
  | .purging pending => pending.map Pending.key
  | .cancelling key => [key]
  | .dropping key => [key]
  | _ => []

def Counted (files : KeyMap String FileRow) (pending : Pending) : Prop :=
  ∀ id row, files.get id = some row → row.storageKey = pending.key → id ∈ pending.inserted

structure PhaseTracked (minted : List String) (files : KeyMap String FileRow) (phase : Phase) : Prop where
  known : ∀ key ∈ phase.keys, Known minted key
  counted : ∀ pending, phase = .purging pending → ∀ entry ∈ pending, Counted files entry

structure Tracked (sys : System) : Prop where
  rows : ∀ id row, sys.files.get id = some row → Known sys.minted row.storageKey
  objects : ∀ key there, sys.objects.get key = some there → Known sys.minted key
  tasks : ∀ (i : Nat) (task : Task), sys.tasks[i]? = some task → PhaseTracked sys.minted sys.files task.phase

def Fewer (files files' : KeyMap String FileRow) : Prop :=
  ∀ id row', files'.get id = some row' → ∃ row, files.get id = some row ∧ row'.storageKey = row.storageKey

variable {files files' : KeyMap String FileRow} {objects : KeyMap Key Bool} {minted : List String} {key other : Key} {id : String}
  {row row' : FileRow} {phase : Phase} {call : Call} {task : Task} {sys next : System} {i pick : Nat} {e : Event} {keys : List Key}
  {entry : Pending} {change : FileRow → Option FileRow} {upload : Upload} {fileId : String} {after : Phase}

theorem fewer_refl : Fewer files files := fun _ row' found => ⟨row',found,rfl⟩

theorem fewer_set (found : files.get id = some row) (same : row'.storageKey = row.storageKey) : Fewer files (files.set id row') := by
  intro other changed present
  rw [get_set] at present
  split at present
  · rename_i here
    cases present
    exact ⟨row,by rw [here]; exact found,same⟩
  · exact ⟨changed,present,rfl⟩

theorem fewer_retain {keep : String → FileRow → Bool} : Fewer files (files.retain keep) := by
  intro other changed present
  rw [get_retain] at present
  exact ⟨changed,(filter_eq_some_iff.mp present).1,rfl⟩

theorem Counted.fewer (counted : Counted files entry) (fewer : Fewer files files') : Counted files' entry := by
  intro id row' present on
  obtain ⟨row,found,same⟩ := fewer id row' present
  exact counted id row found (same.symm.trans on)

theorem PhaseTracked.fewer (tracked : PhaseTracked minted files phase) (fewer : Fewer files files') :
    PhaseTracked minted files' phase :=
  ⟨tracked.known,fun pending same entry member => (tracked.counted pending same entry member).fewer fewer⟩

theorem phase_tracked (known : ∀ key ∈ phase.keys, Known minted key) (idle : ∀ pending, phase ≠ .purging pending) :
    PhaseTracked minted files phase := ⟨known,fun pending same => absurd same (idle pending)⟩

theorem done_tracked : PhaseTracked minted files .done :=
  phase_tracked (fun _ member => absurd member not_mem_nil) (fun _ same => by cases same)

section
variable (tracked : Tracked sys) (fewer : Fewer sys.files files) (known : ∀ key there, objects.get key = some there → Known sys.minted key)
include tracked fewer known

theorem Tracked.moved
    (own : PhaseTracked sys.minted files phase) : Tracked ⟨files,objects,sys.minted,sys.tasks.set i ⟨call,phase⟩⟩ := by
  refine ⟨?_,known,?_⟩
  · intro id row' present
    obtain ⟨row,before,same⟩ := fewer id row' present
    rw [same]
    exact tracked.rows id row before
  · intro j other present
    rcases Slots.set_cases present with ⟨_,rfl⟩ | ⟨_,old⟩
    · exact own
    · exact (tracked.tasks j other old).fewer fewer

theorem Tracked.changed
    :
    Tracked ⟨files,objects,sys.minted,sys.tasks⟩ := by
  refine ⟨?_,known,fun i task found => (tracked.tasks i task found).fewer fewer⟩
  intro id row' present
  obtain ⟨row,before,same⟩ := fewer id row' present
  rw [same]
  exact tracked.rows id row before

end

theorem purgeObject_get : (purgeObject key objects).get other =
    if other = key ∧ objects.get key = some true then some false else objects.get other := by
  unfold purgeObject
  by_cases there : objects.get key = some true
  · rw [if_pos there,get_set]
    by_cases here : other = key
    · rw [if_pos here,if_pos ⟨here,there⟩]
    · rw [if_neg here,if_neg (fun both => here both.1)]
  · rw [if_neg there,if_neg (fun both => there both.2)]

theorem purgeObject_known (known : ∀ key there, objects.get key = some there → Known minted key) :
    ∀ other there, (purgeObject key objects).get other = some there → Known minted other := by
  intro other there present
  rw [purgeObject_get] at present
  split at present
  · rename_i purged
    rw [purged.1]
    exact known key true purged.2
  · exact known other there present

theorem unreferenced_mem (member : entry ∈ unreferenced files keys) :
    entry.key ∈ keys ∧ storageKeyStillReferenced files entry.key = false := by
  obtain ⟨key,kept,rfl⟩ := mem_map.mp member
  obtain ⟨candidate,free⟩ := mem_filter.mp kept
  exact ⟨mem_dedup.mp candidate,by simpa using free⟩

theorem unreferenced_counted (free : storageKeyStillReferenced files entry.key = false) : Counted files entry := by
  intro id row found on
  have referenced := storageKeyStillReferenced_iff.mpr ⟨id,row,found,on⟩
  rw [free] at referenced
  cases referenced

theorem overtake_tracked (row : FileRow) (tracked : PhaseTracked minted files phase) :
    PhaseTracked minted (files.set id row) (phase.overtake row.storageKey id) := by
  cases phase with
  | purging pending =>
    refine ⟨?_,?_⟩
    · intro key member
      refine tracked.known key ?_
      obtain ⟨overtaken,inside,rfl⟩ := mem_map.mp member
      obtain ⟨entry,before,rfl⟩ := mem_map.mp inside
      refine mem_map.mpr ⟨entry,before,?_⟩
      unfold Pending.overtake
      split
      · rfl
      · rfl
    · intro after same entry member
      cases same
      obtain ⟨old,before,rfl⟩ := mem_map.mp member
      have counted := tracked.counted pending rfl old before
      intro other found present on
      rw [get_set] at present
      unfold Pending.overtake at on ⊢
      by_cases hit : old.key = row.storageKey
      · rw [if_pos hit] at on ⊢
        split at present
        · rename_i here
          rw [here]
          exact mem_cons_self
        · exact mem_cons_of_mem _ (counted other found present on)
      · rw [if_neg hit] at on ⊢
        split at present
        · cases present
          exact absurd on.symm hit
        · exact counted other found present on
  | finding | sharing _ | selecting | deleting _ | checking _ | loading | cancelling _ | dropping _ | done =>
    exact ⟨tracked.known,fun _ same => by cases same⟩

inductive Advanced (sys : System) (pick : Nat) : Call → Phase → Phase → System → Prop where
  | unmatched (upload : Upload) (contentHash : String) : Advanced sys pick (.upload upload contentHash) .finding .done sys
  | matched (upload : Upload) (contentHash : String) (source : DedupSource)
      (found : findDedupSource sys.files pick upload.userId contentHash upload.sizeBytes upload.isVideo = some source) :
      Advanced sys pick (.upload upload contentHash) .finding (.sharing source) sys
  | taken (upload : Upload) (contentHash : String) (source : DedupSource) (there : sys.files.get upload.fileId ≠ none) :
      Advanced sys pick (.upload upload contentHash) (.sharing source) .done sys
  | shared (upload : Upload) (contentHash : String) (source : DedupSource) (fresh : sys.files.get upload.fileId = none) :
      Advanced sys pick (.upload upload contentHash) (.sharing source) .done {sys with
        files := sys.files.set upload.fileId (dedupedRow upload contentHash source.row)
        tasks := overtake source.row.storageKey upload.fileId sys.tasks}
  | unselected (fileIds : List String) : Advanced sys pick (.delete fileIds) .selecting .done sys
  | selected (fileIds : List String) (keys : List Key) (loaded : loadKeysForPurge sys.files fileIds = some keys) :
      Advanced sys pick (.delete fileIds) .selecting (.deleting keys) sys
  | deleted (fileIds : List String) (keys : List Key) : Advanced sys pick (.delete fileIds) (.deleting keys) (.checking keys)
      {sys with files := sys.files.retain (fun id _ => decide (id ∉ fileIds))}
  | counted (fileIds : List String) (keys : List Key) :
      Advanced sys pick (.delete fileIds) (.checking keys) (.purging (unreferenced sys.files keys)) sys
  | emptied (fileIds : List String) (pending : List Pending) (none : pending[pick % pending.length]? = none) :
      Advanced sys pick (.delete fileIds) (.purging pending) .done sys
  | purged (fileIds : List String) (pending : List Pending) (entry : Pending)
      (chosen : pending[pick % pending.length]? = some entry) :
      Advanced sys pick (.delete fileIds) (.purging pending) (.purging (pending.eraseIdx (pick % pending.length)))
        {sys with objects := purgeObject entry.key sys.objects}
  | refused (fileId userId : String) : Advanced sys pick (.cancel fileId userId) .loading .done sys
  | loaded (fileId userId : String) (row : FileRow) (found : sys.files.get fileId = some row) :
      Advanced sys pick (.cancel fileId userId) .loading (.cancelling row.storageKey) sys
  | missed (fileId userId : String) (key : Key) : Advanced sys pick (.cancel fileId userId) (.cancelling key) .done sys
  | cancelled (fileId userId : String) (key : Key) (row : FileRow) (found : sys.files.get fileId = some row) :
      Advanced sys pick (.cancel fileId userId) (.cancelling key) (.dropping key)
        {sys with files := sys.files.set fileId {row with hlsEncodeStatus := some .cancelled}}
  | dropped (fileId userId : String) (key : Key) : Advanced sys pick (.cancel fileId userId) (.dropping key) .done
      {sys with objects := purgeObject key sys.objects}

theorem advance_advanced (ran : advance sys pick call phase = some (after,next)) :
    Advanced sys pick call phase after next := by
  unfold advance at ran
  split at ran
  · rename_i upload contentHash
    split at ran
    · cases ran
      exact .unmatched upload contentHash
    · rename_i source found
      cases ran
      exact .matched upload contentHash source found
  · rename_i upload contentHash source
    split at ran
    · rename_i there
      cases ran
      refine .taken upload contentHash source ?_
      rw [there]
      exact fun none => by cases none
    · rename_i fresh
      cases ran
      exact .shared upload contentHash source fresh
  · rename_i fileIds
    split at ran
    · cases ran
      exact .unselected fileIds
    · rename_i keys loaded
      cases ran
      exact .selected fileIds keys loaded
  · rename_i fileIds keys
    cases ran
    exact .deleted fileIds keys
  · rename_i fileIds keys
    cases ran
    exact .counted fileIds keys
  · rename_i fileIds pending
    split at ran
    · rename_i none
      cases ran
      exact .emptied fileIds pending none
    · rename_i entry chosen
      cases ran
      exact .purged fileIds pending entry chosen
  · rename_i fileId userId
    split at ran
    · cases ran
      exact .refused fileId userId
    · rename_i row found
      split at ran
      · cases ran
        exact .loaded fileId userId row found
      · cases ran
        exact .refused fileId userId
  · rename_i fileId userId key
    split at ran
    · cases ran
      exact .missed fileId userId key
    · rename_i row found
      split at ran
      · cases ran
        exact .cancelled fileId userId key row found
      · cases ran
        exact .missed fileId userId key
  · rename_i fileId userId key
    cases ran
    exact .dropped fileId userId key
  · cases ran

theorem shared_tracked {contentHash : String} {source : DedupSource} (tracked : Tracked sys)
    (known : Known sys.minted source.row.storageKey) :
    Tracked ⟨sys.files.set upload.fileId (dedupedRow upload contentHash source.row),sys.objects,sys.minted,
      (overtake source.row.storageKey upload.fileId sys.tasks).set i ⟨call,.done⟩⟩ := by
  refine ⟨?_,tracked.objects,?_⟩
  · intro id row present
    dsimp only at present
    rw [get_set] at present
    split at present
    · cases present
      exact known
    · exact tracked.rows id row present
  · intro j other present
    rcases Slots.set_cases present with ⟨_,rfl⟩ | ⟨_,old⟩
    · exact done_tracked
    · rw [overtake,getElem?_map] at old
      obtain ⟨earlier,there,rfl⟩ := map_eq_some_iff.mp old
      exact overtake_tracked (dedupedRow upload contentHash source.row) (tracked.tasks j earlier there)

theorem advance_tracked (tracked : Tracked sys) (own : PhaseTracked sys.minted sys.files phase)
    (ran : advance sys pick call phase = some (after,next)) : Tracked {next with tasks := next.tasks.set i ⟨call,after⟩} := by
  have ended : Tracked {sys with tasks := sys.tasks.set i ⟨call,.done⟩} := tracked.moved fewer_refl tracked.objects done_tracked
  cases advance_advanced ran with
  | unmatched _ _ | taken _ _ _ _ | unselected _ | emptied _ _ _ | refused _ _ | missed _ _ _ => exact ended
  | matched upload contentHash source found =>
    refine tracked.moved fewer_refl tracked.objects (phase_tracked ?_ (fun _ same => by cases same))
    intro key member
    rw [mem_singleton.mp member]
    exact tracked.rows source.id source.row (findDedupSource_some found).1
  | shared upload contentHash source fresh => exact shared_tracked tracked (own.known source.row.storageKey mem_cons_self)
  | selected fileIds keys loaded =>
    refine tracked.moved fewer_refl tracked.objects (phase_tracked ?_ (fun _ same => by cases same))
    intro key member
    obtain ⟨id,row,present,rfl⟩ := loadKeysForPurge_mem loaded key member
    exact tracked.rows id row present
  | deleted fileIds keys =>
    exact tracked.moved fewer_retain tracked.objects (phase_tracked own.known (fun _ same => by cases same))
  | counted fileIds keys =>
    refine tracked.moved fewer_refl tracked.objects ⟨?_,?_⟩
    · intro key member
      obtain ⟨entry,inside,rfl⟩ := mem_map.mp member
      exact own.known entry.key (unreferenced_mem inside).1
    · intro pending same entry member
      cases same
      exact unreferenced_counted (unreferenced_mem member).2
  | purged fileIds pending entry chosen =>
    have left : ∀ entry ∈ pending.eraseIdx (pick % pending.length), entry ∈ pending :=
      fun entry member => mem_of_mem_eraseIdx member
    refine tracked.moved fewer_refl (purgeObject_known tracked.objects) ⟨?_,?_⟩
    · intro key member
      obtain ⟨entry,inside,rfl⟩ := mem_map.mp member
      exact own.known entry.key (mem_map_of_mem (left entry inside))
    · intro after same entry member
      cases same
      exact own.counted pending rfl entry (left entry member)
  | loaded fileId userId row found =>
    refine tracked.moved fewer_refl tracked.objects (phase_tracked ?_ (fun _ same => by cases same))
    intro key member
    rw [mem_singleton.mp member]
    exact tracked.rows fileId row found
  | cancelled fileId userId key row found =>
    exact tracked.moved (fewer_set found rfl) tracked.objects (phase_tracked own.known (fun _ same => by cases same))
  | dropped fileId userId key => exact tracked.moved fewer_refl (purgeObject_known tracked.objects) done_tracked

theorem fewer_update
    (keyed : ∀ row row', change row = some row' → row'.storageKey = row.storageKey) :
    Fewer sys.files (update fileId change sys).files ∧ (update fileId change sys).objects = sys.objects ∧
      (update fileId change sys).minted = sys.minted ∧ (update fileId change sys).tasks = sys.tasks := by
  unfold update
  split
  · exact ⟨fewer_refl,rfl,rfl,rfl⟩
  · rename_i row' changed
    obtain ⟨row,found,made⟩ := bind_eq_some_iff.mp changed
    exact ⟨fewer_set found (keyed row row' made),rfl,rfl,rfl⟩

theorem reprocessed_keyed {packaged : Bool} (made : reprocessed packaged row = some row') : row'.storageKey = row.storageKey := by
  unfold reprocessed at made
  split at made
  · cases made
    rfl
  · cases made

theorem update_tracked (tracked : Tracked sys)
    (keyed : ∀ row row', change row = some row' → row'.storageKey = row.storageKey) : Tracked (update fileId change sys) := by
  obtain ⟨fewer,objects,minted,tasks⟩ : Fewer sys.files (update fileId change sys).files ∧ _ := fewer_update keyed
  have changed : Tracked ⟨(update fileId change sys).files,sys.objects,sys.minted,sys.tasks⟩ := tracked.changed fewer tracked.objects
  rw [← objects,← minted,← tasks] at changed
  exact changed

theorem store_tracked (tracked : Tracked sys) (fresh : upload.fileId ∉ sys.minted) (own : row.storageKey = upload.key)
    (known : ∀ key there, objects.get key = some there → key = upload.key ∨ Known sys.minted key) :
    Tracked ⟨sys.files.set upload.fileId row,objects,upload.fileId :: sys.minted,sys.tasks⟩ := by
  have mine : Known (upload.fileId :: sys.minted) upload.key := ⟨upload.userId,upload.fileId,rfl,mem_cons_self⟩
  refine ⟨?_,?_,?_⟩
  · intro id found present
    dsimp only at present
    rw [get_set] at present
    split at present
    · cases present
      rw [own]
      exact mine
    · exact known_more (tracked.rows id found present)
  · intro key there present
    rcases known key there present with rfl | before
    · exact mine
    · exact known_more before
  · intro i task found
    obtain ⟨held,counted⟩ := tracked.tasks i task found
    refine ⟨fun key member => known_more (held key member),?_⟩
    intro pending same entry member id other present on
    dsimp only at present
    rw [get_set] at present
    split at present
    · cases present
      have unknown : entry.key ≠ upload.key :=
        fresh_unknown fresh (held entry.key (by rw [same]; exact mem_map_of_mem member))
      exact absurd (on.symm.trans own) unknown
    · exact counted pending same entry member id other present on

inductive Fired (sys : System) : Event → System → Prop where
  | store (upload : Upload) (contentHash : String) (fresh : upload.fileId ∉ sys.minted) : Fired sys (.store upload contentHash)
      ⟨sys.files.set upload.fileId (if upload.isVideo then videoRow upload contentHash else plainRow upload contentHash),
        if upload.isVideo then sys.objects else sys.objects.set upload.key true,upload.fileId :: sys.minted,sys.tasks⟩
  | begin (call : Call) : Fired sys (.begin call) {sys with tasks := sys.tasks ++ [⟨call,call.start⟩]}
  | advance (i pick : Nat) (task : Task) (phase : Phase) (left : System) (found : sys.tasks[i]? = some task)
      (ran : Purge.advance sys pick task.call task.phase = some (phase,left)) :
      Fired sys (.advance i pick) {left with tasks := left.tasks.set i ⟨task.call,phase⟩}
  | fail (i : Nat) (task : Task) (found : sys.tasks[i]? = some task) :
      Fired sys (.fail i) {sys with tasks := sys.tasks.set i ⟨task.call,.done⟩}
  | reprocess (fileId : String) (packaged : Bool) : Fired sys (.reprocess fileId packaged) (update fileId (reprocessed packaged) sys)
  | encoded (fileId : String) (row : FileRow) (found : sys.files.get fileId = some row) : Fired sys (.encoded fileId)
      ⟨sys.files.set fileId {row with hlsReady := true,hlsEncodeStatus := some .ready},sys.objects.set row.storageKey true,
        sys.minted,sys.tasks⟩
  | trash (fileId : String) (now : Int) : Fired sys (.trash fileId now) (update fileId (trashed now) sys)
  | restore (fileId : String) : Fired sys (.restore fileId) (update fileId restored sys)

theorem step_fired (fired : step sys e = some next) : Fired sys e next := by
  cases e with
  | store upload contentHash =>
    dsimp only [step] at fired
    split at fired
    · cases fired
    · rename_i free
      cases fired
      exact .store upload contentHash (fun member => free (.inl member))
  | begin call =>
    cases fired
    exact .begin call
  | advance i pick =>
    dsimp only [step] at fired
    split at fired
    · cases fired
    · rename_i task found
      split at fired
      · cases fired
      · rename_i phase left ran
        cases fired
        exact .advance i pick task phase left found ran
  | fail i =>
    dsimp only [step] at fired
    split at fired
    · cases fired
    · rename_i task found
      cases fired
      exact .fail i task found
  | reprocess fileId packaged =>
    cases fired
    exact .reprocess fileId packaged
  | encoded fileId =>
    dsimp only [step] at fired
    split at fired
    · cases fired
    · rename_i row found
      cases fired
      exact .encoded fileId row found
  | trash fileId now =>
    cases fired
    exact .trash fileId now
  | restore fileId =>
    cases fired
    exact .restore fileId

theorem begin_tracked (tracked : Tracked sys) : Tracked {sys with tasks := sys.tasks ++ [⟨call,call.start⟩]} := by
  refine ⟨tracked.rows,tracked.objects,?_⟩
  intro j other present
  rcases Slots.append_cases present with ⟨_,rfl⟩ | old
  · cases call with
    | upload _ _ | delete _ | cancel _ _ =>
      exact phase_tracked (fun _ member => absurd member not_mem_nil) (fun _ same => by cases same)
  · exact tracked.tasks j other old

theorem encoded_tracked (tracked : Tracked sys) (found : sys.files.get id = some row) (same : row'.storageKey = row.storageKey) :
    Tracked ⟨sys.files.set id row',sys.objects.set row.storageKey true,sys.minted,sys.tasks⟩ := by
  refine tracked.changed (fewer_set found same) ?_
  intro key there present
  rw [get_set] at present
  split at present
  · rename_i here
    rw [here]
    exact tracked.rows id row found
  · exact tracked.objects key there present

theorem step_tracked (tracked : Tracked sys) (fired : step sys e = some next) : Tracked next := by
  cases step_fired fired with
  | store upload contentHash fresh =>
    refine store_tracked tracked fresh ?_ ?_
    · split
      · rfl
      · rfl
    · intro key there present
      split at present
      · exact .inr (tracked.objects key there present)
      · rw [get_set] at present
        split at present
        · rename_i same
          exact .inl same
        · exact .inr (tracked.objects key there present)
  | begin call => exact begin_tracked tracked
  | advance i pick task phase left found ran => exact advance_tracked tracked (tracked.tasks i task found) ran
  | fail i task found => exact tracked.moved fewer_refl tracked.objects done_tracked
  | reprocess fileId packaged => exact update_tracked tracked (fun _ _ made => reprocessed_keyed made)
  | encoded fileId row found => exact encoded_tracked tracked found rfl
  | trash fileId now => exact update_tracked tracked (fun _ _ made => trashed_keyed made)
  | restore fileId => exact update_tracked tracked (fun _ _ made => restored_keyed made)

theorem safe_fewer (safe : Safe sys) {tasks : List Task} (fewer : Fewer sys.files files) : Safe ⟨files,sys.objects,minted,tasks⟩ := by
  intro id row' present
  obtain ⟨row,found,same⟩ := fewer id row' present
  rw [same]
  exact safe id row found

theorem purged_safe_iff {tasks : List Task} (safe : Safe sys) :
    Safe ⟨sys.files,purgeObject key sys.objects,minted,tasks⟩ ↔
      (sys.objects.get key = some true → ∀ id row, sys.files.get id = some row → row.storageKey ≠ key) := by
  constructor
  · intro after there id row found on
    refine after id row found ?_
    dsimp only
    rw [purgeObject_get,if_pos ⟨on,there⟩]
  · intro free id row found gone
    dsimp only at found gone
    rw [purgeObject_get] at gone
    split at gone
    · rename_i hit
      exact free hit.2 id row found hit.1
    · exact safe id row found gone

theorem inserted_safe_iff {tasks : List Task} (safe : Safe sys) :
    Safe ⟨sys.files.set id row,sys.objects,minted,tasks⟩ ↔ sys.objects.get row.storageKey ≠ some false := by
  constructor
  · intro after
    exact after id row get_set_self
  · intro there other found present
    dsimp only at present
    rw [get_set] at present
    split at present
    · cases present
      exact there
    · exact safe other found present

theorem advance_safe_iff (own : PhaseTracked sys.minted sys.files phase) (safe : Safe sys)
    (ran : advance sys pick call phase = some (after,next)) :
    Safe {next with tasks := next.tasks.set i ⟨call,after⟩} ↔ CallFits sys pick call phase := by
  cases advance_advanced ran with
  | unmatched _ _ | matched _ _ _ _ | unselected _ | selected _ _ _ | counted _ _ | refused _ _ | loaded _ _ _ _ | missed _ _ _ =>
    exact iff_of_true safe trivial
  | taken upload contentHash source there => exact iff_of_true safe (fun fresh => absurd fresh there)
  | shared upload contentHash source fresh =>
    refine (inserted_safe_iff safe).trans ?_
    exact ⟨fun there _ => there,fun there => there fresh⟩
  | deleted fileIds keys => exact iff_of_true (safe_fewer safe fewer_retain) trivial
  | emptied fileIds pending none =>
    refine iff_of_true safe ?_
    intro entry present
    rw [none] at present
    cases present
  | purged fileIds pending entry chosen =>
    have counted := own.counted pending rfl entry (mem_of_getElem? chosen)
    refine (purged_safe_iff safe).trans ?_
    unfold CallFits
    dsimp only
    rw [chosen]
    constructor
    · intro free other same there id _ row present on
      cases same
      exact free there id row present on
    · intro free there id row present on
      exact free entry rfl there id (counted id row present on) row present on
  | cancelled fileId userId key row found => exact iff_of_true (safe_fewer safe (fewer_set found rfl)) trivial
  | dropped fileId userId key =>
    refine (purged_safe_iff safe).trans ?_
    unfold CallFits
    dsimp only
    rw [unreferenced_iff]

theorem stuck_fits (stuck : advance sys pick task.call task.phase = none) : CallFits sys pick task.call task.phase := by
  unfold CallFits
  split
  · rename_i upload contentHash source call before
    rw [call,before] at stuck
    dsimp only [advance] at stuck
    split at stuck
    · cases stuck
    · cases stuck
  · rename_i fileIds pending call before
    rw [call,before] at stuck
    dsimp only [advance] at stuck
    split at stuck
    · cases stuck
    · cases stuck
  · rename_i call before
    rw [call,before] at stuck
    cases stuck
  · trivial

theorem store_safe (tracked : Tracked sys) (safe : Safe sys) (fresh : upload.fileId ∉ sys.minted)
    (own : row.storageKey = upload.key) (mine : objects.get upload.key ≠ some false)
    (others : ∀ key, key ≠ upload.key → objects.get key = sys.objects.get key) {tasks : List Task} :
    Safe ⟨sys.files.set upload.fileId row,objects,minted,tasks⟩ := by
  intro id found present
  dsimp only at present
  rw [get_set] at present
  split at present
  · cases present
    rw [own]
    exact mine
  · have unknown : found.storageKey ≠ upload.key := fresh_unknown fresh (tracked.rows id found present)
    dsimp only
    rw [others found.storageKey unknown]
    exact safe id found present

theorem update_safe (safe : Safe sys)
    (keyed : ∀ row row', change row = some row' → row'.storageKey = row.storageKey) : Safe (update fileId change sys) := by
  obtain ⟨fewer,objects,minted,tasks⟩ : Fewer sys.files (update fileId change sys).files ∧ _ := fewer_update keyed
  have changed : Safe ⟨(update fileId change sys).files,sys.objects,sys.minted,sys.tasks⟩ := safe_fewer safe fewer
  rw [← objects,← minted,← tasks] at changed
  exact changed

theorem encoded_safe (safe : Safe sys) (found : sys.files.get id = some row) (same : row'.storageKey = row.storageKey) :
    Safe ⟨sys.files.set id row',sys.objects.set row.storageKey true,sys.minted,sys.tasks⟩ := by
  have fewer : Fewer sys.files (sys.files.set id row') := fewer_set found same
  intro other changed present gone
  obtain ⟨before,there,keyed⟩ := fewer other changed present
  dsimp only at gone
  rw [get_set] at gone
  split at gone
  · cases gone
  · rw [keyed] at gone
    exact safe other before there gone

theorem advanced_safe_iff (tracked : Tracked sys) (safe : Safe sys) : SafeNext sys (.advance i pick) ↔ Fits sys (.advance i pick) := by
  cases found : sys.tasks[i]? with
  | none =>
    refine iff_of_true ?_ ?_
    · intro next fired
      cases step_fired fired with
      | advance _ _ task _ _ there _ =>
        rw [found] at there
        cases there
    · intro task present
      rw [found] at present
      cases present
  | some task =>
    have fits : Fits sys (.advance i pick) ↔ CallFits sys pick task.call task.phase := by
      unfold Fits
      dsimp only
      rw [found]
      exact ⟨fun all => all task rfl,fun one other same => by cases same; exact one⟩
    rw [fits]
    cases ran : advance sys pick task.call task.phase with
    | none =>
      refine iff_of_true ?_ (stuck_fits ran)
      intro next fired
      cases step_fired fired with
      | advance _ _ other _ _ there ran' =>
        rw [found] at there
        cases there
        rw [ran] at ran'
        cases ran'
    | some result =>
      rw [← advance_safe_iff (tracked.tasks i task found) safe ran]
      have fired : step sys (.advance i pick) = some {result.2 with tasks := result.2.tasks.set i ⟨task.call,result.1⟩} := by
        dsimp only [step]
        rw [found]
        dsimp only
        rw [ran]
      constructor
      · intro after
        exact after _ fired
      · intro after next same
        rw [fired] at same
        cases same
        exact after

theorem step_safe_iff (tracked : Tracked sys) (safe : Safe sys) : SafeNext sys e ↔ Fits sys e := by
  cases e with
  | store upload contentHash =>
    refine iff_of_true ?_ trivial
    intro next fired
    cases step_fired fired with
    | store _ _ fresh =>
      refine store_safe tracked safe fresh ?_ ?_ ?_
      · split
        · rfl
        · rfl
      · split
        · intro gone
          exact fresh_unknown fresh (tracked.objects _ _ gone) rfl
        · rw [get_set_self]
          intro gone
          cases gone
      · intro key ne
        split
        · rfl
        · exact get_set_ne ne
  | begin call =>
    refine iff_of_true ?_ trivial
    intro next fired
    cases fired
    exact safe
  | advance i pick => exact advanced_safe_iff tracked safe
  | fail i =>
    refine iff_of_true ?_ trivial
    intro next fired
    cases step_fired fired with
    | fail _ task found => exact safe
  | reprocess fileId packaged =>
    refine iff_of_true ?_ trivial
    intro next fired
    cases fired
    exact update_safe safe (fun _ _ made => reprocessed_keyed made)
  | encoded fileId =>
    refine iff_of_true ?_ trivial
    intro next fired
    cases step_fired fired with
    | encoded _ row found => exact encoded_safe safe found rfl
  | trash fileId now =>
    refine iff_of_true ?_ trivial
    intro next fired
    cases fired
    exact update_safe safe (fun _ _ made => trashed_keyed made)
  | restore fileId =>
    refine iff_of_true ?_ trivial
    intro next fired
    cases fired
    exact update_safe safe (fun _ _ made => restored_keyed made)

-- No row ever loses its stored blob exactly where every INSERT of a duplicate, every purge
-- behind a count and every purge of a cancelled ingest fits.
theorem references_respected (rows : ∀ id row, files.get id = some row → Known minted row.storageKey)
    (known : ∀ key there, objects.get key = some there → Known minted key) (safe : Safe ⟨files,objects,minted,[]⟩) :
    Schedule.Along step SafeNext ⟨files,objects,minted,[]⟩ events ↔ Schedule.Along step Fits ⟨files,objects,minted,[]⟩ events := by
  have start : Tracked ⟨files,objects,minted,[]⟩ := ⟨rows,known,fun _ _ found => by cases found⟩
  refine Schedule.along_congr (motive := fun sys => Tracked sys ∧ Safe sys) ?_ ?_ ⟨start,safe⟩
  · intro sys e holds
    exact step_safe_iff holds.1 holds.2
  · intro sys e next holds fits fired
    exact ⟨step_tracked holds.1 fired,(step_safe_iff holds.1 holds.2).mpr fits next fired⟩

def empty : System := ⟨KeyMap.empty,KeyMap.empty,[],[]⟩

def note (fileId : String) : Upload := ⟨fileId,"u","text/plain",false,false,4,1⟩

def clip : Upload := ⟨"v","u","video/mp4",true,false,4,1⟩

def racing : List Event :=
  [.store (note "f") "h",.begin (.upload (note "g") "h"),.begin (.delete ["f"]),.advance 0 0,.advance 1 0]

theorem references_respected_shared :
    Schedule.Along step SafeNext empty (racing ++ [.advance 0 0,.advance 1 0,.advance 1 0,.advance 1 0]) :=
  (references_respected (fun _ _ found => by cases found) (fun _ _ found => by cases found) (fun _ _ found => by cases found)).mpr
    (by decide +kernel)

-- Every row on a key that awaits its purge came after the count.
theorem purges_counted (ran : Schedule.run step empty events = some sys) : Tracked sys := by
  have start : Tracked empty := ⟨fun _ _ found => (by cases found),fun _ _ found => (by cases found),fun _ _ found => (by cases found)⟩
  exact Schedule.run_preserves (fun _ _ _ held fired => step_tracked held fired) start ran

theorem purges_counted_racing : ∃ sys, Schedule.run step empty racing = some sys ∧ Tracked sys :=
  Schedule.reached_of_isSome (by decide +kernel) (fun _ ran => purges_counted ran)

def keyAndObject (id : String) (events : List Event) : Option (Option Key × Option Bool) :=
  (Schedule.run step empty events).map (fun sys =>
    ((sys.files.get id).map FileRow.storageKey,((sys.files.get id).bind (fun row => sys.objects.get row.storageKey))))

theorem shown_unsafe (shown : keyAndObject id events = some (some key,some false)) :
    ∃ sys, Schedule.run step empty events = some sys ∧ ¬Safe sys := by
  obtain ⟨sys,ran,read⟩ := map_eq_some_iff.mp shown
  obtain ⟨keyed,there⟩ := Prod.mk.inj read
  obtain ⟨row,found,_⟩ := map_eq_some_iff.mp keyed
  refine ⟨sys,ran,?_⟩
  intro safe
  rw [found] at there
  exact safe id row found there

theorem referenced_blob_purged :
    (∃ sys, Schedule.run step empty (racing ++ [.advance 1 0,.advance 1 0,.advance 0 0,.advance 1 0]) = some sys ∧ ¬Safe sys) ∧
    ∃ sys, Schedule.run step empty [.store clip "h",.encoded "v",.reprocess "v" true,.begin (.cancel "v" "u"),.advance 0 0,
      .advance 0 0,.advance 0 0] = some sys ∧ ¬Safe sys := by
  refine ⟨?_,?_⟩
  · exact shown_unsafe (by decide +kernel : keyAndObject "g" _ = some (some (storageKey "u" "f"),some false))
  · exact shown_unsafe (by decide +kernel : keyAndObject "v" _ = some (some (storageKey "u" "v"),some false))

end Ownly.Files.Purge
