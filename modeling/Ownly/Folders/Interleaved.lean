import Ownly.Folders.RecycleBin
import Ownly.Lib.Schedule

-- The calls on folders one statement at a time, any number of them at once: whether
-- parent_id stays free of cycles.
namespace Ownly.Folders.Interleaved
open Authz (Policy)
open Option KeyMap

-- A call between two of its statements, with what it has read so far.
inductive Task where
  | createAccess (userId folderId : String) (parentId : Option String) (rawName : String)
  | createInsert (userId folderId : String) (parentId : Option String) (name : String)
  | patchAccess (userId folderId : String) (target : Option String)
  | moveSelect (userId folderId : String) (target : Option String)
  | moveWalk (userId folderId parentId name : String) (current : Option String)
  | moveAccess (userId folderId parentId name : String)
  | moveName (userId folderId : String) (target : Option String) (name : String)
  | moveUpdate (userId folderId : String) (target : Option String)
  | deleteSelect (now : Int) (userId folderId : String)
  | deleteWalk (now : Int) (userId : String) (queue found : List String)
  | deleteMark (now : Int) (userId : String) (left all : List String)
  | deleteFiles (now : Int) (userId : String) (all : List String)
  | restoreSelect (userId folderId : String)
  | restoreParent (userId folderId parentId : String)
  | restoreName (userId folderId parentId : String)
  | restoreWalk (userId : String) (queue found : List String)
  | restoreMark (userId : String) (left all : List String)
  | restoreFiles (userId : String) (all : List String)
  deriving DecidableEq, Repr

def Task.begins : Task → Bool
  | .createAccess .. | .patchAccess .. | .deleteSelect .. | .restoreSelect .. => true
  | _ => false

-- Both key constraints: a parent is there, and the name is free below it.
def rowFits (folders : KeyMap String FolderRow) (userId : String) (parentId : Option String) (name folderId : String) : Bool :=
  parentId.all folders.contains && !nameTaken folders userId parentId name folderId

def createInsert (userId folderId : String) (parentId : Option String) (name : String) (tree : Tree) : Tree :=
  if !tree.folders.contains folderId && rowFits tree.folders userId parentId name folderId then
    {tree with folders := tree.folders.set folderId ⟨userId,parentId,name,none⟩}
  else tree

def moveUpdate (userId folderId : String) (target : Option String) (tree : Tree) : Tree :=
  match ownActive tree.folders userId folderId with
  | none => tree
  | some row =>
    if rowFits tree.folders userId target row.name folderId then {tree with folders := tree.folders.set folderId {row with parentId := target}}
    else tree

def proceed (goes : Bool) (task : Task) : Option Task := if goes then some task else none

def advance (lower : String → String) (policy : Policy) (now : Int) (tree : Tree) : Task → Tree × Option Task
  | .createAccess userId folderId parentId rawName =>
    (tree,match normalizeFolderName rawName with
      | .error _ => none
      | .ok name => proceed (ensureTargetAccess ⟨userId,policy,now⟩ tree parentId = .ok ()) (.createInsert userId folderId parentId name))
  | .createInsert userId folderId parentId name => (createInsert userId folderId parentId name tree,none)
  | .patchAccess userId folderId target =>
    (tree,proceed (ensureFolderAccess ⟨userId,policy,now⟩ tree folderId .contentWrite = .ok ()) (.moveSelect userId folderId target))
  | .moveSelect userId folderId target =>
    (tree,match ownActive tree.folders userId folderId with
      | none => none
      | some row =>
        if row.parentId = target then none
        else match target with
          | none => some (.moveName userId folderId none row.name)
          | some parentId => proceed (parentId ≠ folderId) (.moveWalk userId folderId parentId row.name (some parentId)))
  | .moveWalk userId folderId parentId name none => (tree,some (.moveAccess userId folderId parentId name))
  | .moveWalk userId folderId parentId name (some id) =>
    (tree,if id = folderId then none
      else match ownActive tree.folders userId id with
        | none => some (.moveAccess userId folderId parentId name)
        | some row => some (.moveWalk userId folderId parentId name row.parentId))
  | .moveAccess userId folderId parentId name =>
    (tree,proceed (ensureFolderAccess ⟨userId,policy,now⟩ tree parentId .contentWrite = .ok ()) (.moveName userId folderId (some parentId) name))
  | .moveName userId folderId target name =>
    (tree,proceed (ensureUniqueFolderName lower tree.folders userId target name folderId = .ok ()) (.moveUpdate userId folderId target))
  | .moveUpdate userId folderId target => (moveUpdate userId folderId target tree,none)
  | .deleteSelect now userId folderId =>
    (tree,proceed (ownActive tree.folders userId folderId).isSome (.deleteWalk now userId [folderId] [folderId]))
  | .deleteWalk now userId [] found => (tree,some (.deleteMark now userId found found))
  | .deleteWalk now userId (id :: queue) found =>
    let children := activeChildrenOf tree.folders userId id
    (tree,some (.deleteWalk now userId (children.reverse ++ queue) (found ++ children)))
  | .deleteMark now userId (id :: left) all =>
    ({tree with folders := tree.folders.mapEntries (trashFolder now userId [id])},some (.deleteMark now userId left all))
  | .deleteMark now userId [] all => (tree,some (.deleteFiles now userId all))
  | .deleteFiles now userId all => ({tree with files := tree.files.mapValues (trashFile now userId all)},none)
  | .restoreSelect userId folderId =>
    (tree,match (tree.folders.get folderId).filter (fun row => decide (row.userId = userId ∧ ¬row.Active)) with
      | none => none
      | some row => match row.parentId with
        | none => some (.restoreWalk userId [folderId] [folderId])
        | some parentId => some (.restoreParent userId folderId parentId))
  | .restoreParent userId folderId parentId =>
    (tree,proceed (ownActive tree.folders userId parentId).isSome (.restoreName userId folderId parentId))
  | .restoreName userId folderId parentId =>
    (tree,proceed (!(tree.folders.get folderId).any (fun row => nameConflict tree.folders userId parentId row.name))
      (.restoreWalk userId [folderId] [folderId]))
  | .restoreWalk userId [] found => (tree,some (.restoreMark userId found found))
  | .restoreWalk userId (id :: queue) found =>
    let children := trashedChildrenOf tree.folders userId id
    (tree,some (.restoreWalk userId (children.reverse ++ queue) (found ++ children)))
  | .restoreMark userId (id :: left) all =>
    ({tree with folders := tree.folders.mapEntries (untrashFolder userId [id])},some (.restoreMark userId left all))
  | .restoreMark userId [] all => (tree,some (.restoreFiles userId all))
  | .restoreFiles userId all => ({tree with files := tree.files.mapValues (untrashFile userId all)},none)

structure State where
  tree : Tree
  tasks : KeyMap Nat Task

-- A call comes in under a new number, or one that is under way runs its next statement,
-- with the grants in force then.
inductive Event where
  | call (key : Nat) (task : Task)
  | advance (key : Nat) (policy : Policy) (now : Int)

def step (lower : String → String) (s : State) : Event → Option State
  | .call key task => if task.begins ∧ s.tasks.get key = none then some {s with tasks := s.tasks.set key task} else none
  | .advance key policy now => (s.tasks.get key).map (fun task =>
      let moved := advance lower policy now s.tree task
      ⟨moved.1,match moved.2 with
        | some later => s.tasks.set key later
        | none => s.tasks.remove key⟩)

def Closed (folders : KeyMap String FolderRow) : Prop := ∀ id above, parent folders id = some above → (folders.get above).isSome

-- The walks over the tree as it stands come to an end.
structure WalksEnd (folders : KeyMap String FolderRow) : Prop where
  up : ∀ userId ancestorId candidateId, ∃ answer, folderIsAncestorOf folders userId ancestorId candidateId = some answer
  active : ∀ userId folderId, (folders.get folderId).isSome → ∃ ids, subtreeWalk (activeChildrenOf folders userId) folders folderId = some ids
  trashed : ∀ userId folderId, (folders.get folderId).isSome → ∃ ids, subtreeWalk (trashedChildrenOf folders userId) folders folderId = some ids

def NotAbove (s : State) : Event → Prop
  | .call .. => True
  | .advance key _ _ => ∀ userId folderId target row, s.tasks.get key = some (.moveUpdate userId folderId (some target)) →
      ownActive s.tree.folders userId folderId = some row →
      rowFits s.tree.folders userId (some target) row.name folderId = true → ¬Ancestry.Reaches (parent s.tree.folders) target folderId

section Links
variable {lower : String → String} {policy : Policy} {now : Int} {tree tree' : Tree} {task : Task} {later : Option Task} {s next : State}
  {event : Event} {folders : KeyMap String FolderRow} {userId folderId name id : String} {parentId target : Option String} {row : FolderRow}

inductive Relinked (tree : Tree) : Task → Tree → Prop
  | kept (task : Task) (tree' : Tree) (links : parent tree'.folders = parent tree.folders)
      (rows : ∀ id, (tree'.folders.get id).isSome = (tree.folders.get id).isSome) : Relinked tree task tree'
  | created (userId folderId : String) (parentId : Option String) (name : String) (fresh : tree.folders.get folderId = none)
      (there : ∀ above, parentId = some above → (tree.folders.get above).isSome) :
      Relinked tree (.createInsert userId folderId parentId name)
        {tree with folders := tree.folders.set folderId ⟨userId,parentId,name,none⟩}
  | moved (userId folderId : String) (target : Option String) (row : FolderRow)
      (found : ownActive tree.folders userId folderId = some row) (fits : rowFits tree.folders userId target row.name folderId = true) :
      Relinked tree (.moveUpdate userId folderId target) {tree with folders := tree.folders.set folderId {row with parentId := target}}

theorem rowFits_there (fits : rowFits folders userId parentId name folderId = true) :
    ∀ above, parentId = some above → (folders.get above).isSome := by
  rintro above rfl
  exact (Bool.and_eq_true_iff.mp fits).1

theorem relinked_marks {f : String → FolderRow → FolderRow} (same : ∀ id row, (f id row).parentId = row.parentId) :
    Relinked tree task {tree with folders := tree.folders.mapEntries f} := by
  refine .kept _ _ (parent_map same) ?_
  intro id
  dsimp only
  rw [get_mapEntries,isSome_map]

theorem advance_relinked : Relinked tree task (advance lower policy now tree task).1 := by
  unfold advance
  split
  case h_2 userId folderId parentId name =>
    dsimp only
    unfold createInsert
    split
    · rename_i fits
      obtain ⟨unused,fits⟩ := Bool.and_eq_true_iff.mp fits
      refine .created userId folderId parentId name ?_ (rowFits_there fits)
      simpa [KeyMap.contains] using unused
    · exact .kept _ _ rfl (fun _ => rfl)
  case h_9 userId folderId target =>
    dsimp only
    unfold moveUpdate
    split
    · exact .kept _ _ rfl (fun _ => rfl)
    · rename_i row found
      split
      · rename_i fits
        exact .moved userId folderId target row found fits
      · exact .kept _ _ rfl (fun _ => rfl)
  all_goals first
    | exact .kept _ _ rfl (fun _ => rfl)
    | exact relinked_marks (fun _ _ => trashFolder_parent)
    | exact relinked_marks (fun _ _ => untrashFolder_parent)

theorem closed_relinked (closed : Closed tree.folders) (relinked : Relinked tree task tree') : Closed tree'.folders := by
  cases relinked with
  | kept _ _ links rows =>
    intro id above up
    rw [links] at up
    rw [rows above]
    exact closed id above up
  | created userId folderId parentId name fresh there =>
    intro id above up
    dsimp only at up ⊢
    rw [get_set]
    split
    · rfl
    · rw [parent_set] at up
      by_cases same : id = folderId
      · subst same
        rw [Function.update_self] at up
        exact there above up
      · exact closed id above (Ancestry.climb_update_ne same up)
  | moved userId folderId target row found fits =>
    intro id above up
    dsimp only at up ⊢
    rw [get_set]
    split
    · rfl
    · rw [parent_set] at up
      by_cases same : id = folderId
      · subst same
        rw [Function.update_self] at up
        exact rowFits_there fits above up
      · exact closed id above (Ancestry.climb_update_ne same up)

theorem absent_unreached {above : String} (closed : Closed folders) (fresh : folders.get id = none) (there : (folders.get above).isSome) :
    ¬Ancestry.Reaches (parent folders) above id := by
  intro reaches
  have held : (folders.get id).isSome := by
    obtain ⟨k,climbed⟩ := reaches
    induction k generalizing above with
    | zero =>
      cases climbed
      exact there
    | succ k ih =>
      obtain ⟨next,up,rest⟩ := bind_eq_some_iff.mp climbed
      exact ih (closed above next up) rest
  rw [fresh] at held
  cases held

theorem created_forest (forest : Forest folders) (closed : Closed folders) (fresh : folders.get folderId = none)
    (there : ∀ above, row.parentId = some above → (folders.get above).isSome) : Forest (folders.set folderId row) := by
  unfold Forest
  rw [parent_set]
  cases linked : row.parentId with
  | none => exact Ancestry.acyclic_unlink forest
  | some above => exact (Ancestry.acyclic_relink forest).mpr (absent_unreached closed fresh (there above linked))

theorem moved_forest (forest : Forest folders) : Forest (folders.set folderId {row with parentId := target}) ↔
    ∀ above, target = some above → ¬Ancestry.Reaches (parent folders) above folderId := by
  unfold Forest
  rw [parent_set]
  cases target with
  | none => exact iff_of_true (Ancestry.acyclic_unlink forest) (fun _ none => by cases none)
  | some above =>
    rw [Ancestry.acyclic_relink forest]
    exact ⟨fun clear _ same => Option.some.inj same ▸ clear,fun clear => clear above rfl⟩

-- A statement makes a cycle exactly where it moves a folder below itself.
-- The UPDATE of a move leaves a forest unless it meets its folder above its target.
theorem moveUpdate_forest {userId folderId : String} {target : Option String} (forest : Forest tree.folders) :
    Forest (moveUpdate userId folderId target tree).folders ↔ ∀ above row, target = some above → ownActive tree.folders userId folderId = some row →
      rowFits tree.folders userId target row.name folderId = true → ¬Ancestry.Reaches (parent tree.folders) above folderId := by
  unfold moveUpdate
  cases found : ownActive tree.folders userId folderId with
  | none =>
    refine iff_of_true forest ?_
    rintro _ row _ ⟨⟩
  | some row =>
    dsimp only
    cases fits : rowFits tree.folders userId target row.name folderId with
    | false =>
      refine iff_of_true forest ?_
      rintro _ other _ ⟨⟩ fit
      rw [fits] at fit
      cases fit
    | true =>
      rw [if_pos rfl,moved_forest forest]
      constructor
      · rintro clear above other same _ _
        exact clear above same
      · rintro clear above same
        exact clear above row same rfl fits

theorem createInsert_forest {userId folderId name : String} {parentId : Option String} (forest : Forest tree.folders)
    (closed : Closed tree.folders) : Forest (createInsert userId folderId parentId name tree).folders := by
  unfold createInsert
  split
  · rename_i fits
    obtain ⟨unused,fits⟩ := Bool.and_eq_true_iff.mp fits
    exact created_forest forest closed (by simpa [KeyMap.contains] using unused) (rowFits_there fits)
  · exact forest

theorem step_forest (forest : Forest s.tree.folders) (closed : Closed s.tree.folders) (fired : step lower s event = some next) :
    Closed next.tree.folders ∧ (Forest next.tree.folders ↔ NotAbove s event) := by
  cases event with
  | call key task =>
    change (if task.begins ∧ s.tasks.get key = none then some {s with tasks := s.tasks.set key task} else none) = some next at fired
    split at fired
    · cases fired
      exact ⟨closed,iff_of_true forest trivial⟩
    · cases fired
  | advance key policy now =>
    obtain ⟨task,held,made⟩ := map_eq_some_iff.mp fired
    have tree : next.tree = (advance lower policy now s.tree task).1 := by rw [← made]
    have relinked : Relinked s.tree task (advance lower policy now s.tree task).1 := advance_relinked
    rw [tree]
    refine ⟨closed_relinked closed relinked,?_⟩
    have only : NotAbove s (.advance key policy now) ↔ ∀ userId folderId target row, task = .moveUpdate userId folderId (some target) →
        ownActive s.tree.folders userId folderId = some row →
        rowFits s.tree.folders userId (some target) row.name folderId = true → ¬Ancestry.Reaches (parent s.tree.folders) target folderId := by
      unfold NotAbove
      simp only [held,Option.some.injEq]
    rw [only]
    cases task with
    | moveUpdate userId folderId target =>
      change Forest (moveUpdate userId folderId target s.tree).folders ↔ _
      rw [moveUpdate_forest forest]
      constructor
      · rintro clear _ _ above row ⟨⟩ found fits
        exact clear above row rfl found fits
      · rintro clear above row rfl found fits
        exact clear userId folderId above row rfl found fits
    | createInsert userId folderId parentId name =>
      refine iff_of_true ?_ (fun _ _ _ _ other => by cases other)
      exact createInsert_forest forest closed
    | _ =>
      refine iff_of_true ?_ (fun _ _ _ _ other => by cases other)
      cases relinked with
      | kept _ _ links _ =>
        unfold Forest
        rw [links]
        exact forest

theorem ancestorWalk_long {ancestorId : String} {rounds : Nat} (unended : ancestorWalk folders userId ancestorId rounds (some id) = none) :
    ∃ above, Ancestry.climb (parent folders) rounds id = some above := by
  induction rounds generalizing id with
  | zero => exact ⟨id,rfl⟩
  | succ rounds ih =>
    rw [ancestorWalk] at unended
    split at unended
    · cases unended
    · split at unended
      · cases unended
      · rename_i row found
        cases linked : row.parentId with
        | none =>
          rw [linked] at unended
          cases rounds <;> cases unended
        | some next =>
          rw [linked] at unended
          obtain ⟨above,climbed⟩ := ih unended
          exact ⟨above,(Ancestry.climb_succ ((parent_eq (ownActive_row found).1).trans linked)).trans climbed⟩

theorem walks_end (forest : Forest folders) : WalksEnd folders := by
  refine ⟨?_,fun _ _ there => subtreeWalk_ends forest there,fun _ _ there => subtreeWalk_ends forest there⟩
  intro userId ancestorId candidateId
  unfold folderIsAncestorOf
  split
  · exact ⟨true,rfl⟩
  · cases walked : ancestorWalk folders userId ancestorId (folders.entries.length + 1) (some candidateId) with
    | some answer => exact ⟨answer,rfl⟩
    | none =>
      obtain ⟨above,climbed⟩ := ancestorWalk_long walked
      have bound := Ancestry.climb_bounded forest (fun _ _ => parent_listed) climbed
      rw [List.length_map] at bound
      omega

-- parent_id has no cycle in any state exactly where every UPDATE of a move meets its
-- folder off the way up from its target.
theorem folders_form_a_forest (lower : String → String) (start final : State) (events : List Event) (forest : Forest start.tree.folders)
    (closed : Closed start.tree.folders) (ran : Schedule.run (step lower) start events = some final) :
    (∀ left right reached, events = left ++ right → Schedule.run (step lower) start left = some reached →
      Forest reached.tree.folders ∧ WalksEnd reached.tree.folders) ↔ Schedule.Along (step lower) NotAbove start events := by
  have exact_ : ∀ s event next, Closed s.tree.folders → Forest s.tree.folders ∧ WalksEnd s.tree.folders → step lower s event = some next →
      Closed next.tree.folders ∧ (Forest next.tree.folders ∧ WalksEnd next.tree.folders ↔ NotAbove s event) := by
    intro s event next closed held fired
    obtain ⟨still,kept⟩ := step_forest held.1 closed fired
    exact ⟨still,(and_iff_left_of_imp walks_end).trans kept⟩
  exact Schedule.reached_iff_along exact_ closed ⟨forest,walks_end forest⟩ ran

theorem closed_of_rows (there : ∀ entry ∈ folders.entries, ∀ above ∈ entry.2.parentId.toList, (folders.get above).isSome) :
    Closed folders := by
  intro id above up
  obtain ⟨row,present,linked⟩ := parent_some up
  exact there _ (get_eq_some.mp present) above (by rw [linked]; exact List.mem_singleton_self _)

end Links

section Guest

def annAbove : Tree :=
  ⟨(KeyMap.empty.set "top" ⟨"ann",none,"top",none⟩).set "inner" ⟨"bob",some "top","inner",none⟩,KeyMap.empty⟩

def annWrites : Policy := ⟨KeyMap.empty,KeyMap.empty,[],[],
  KeyMap.empty.set "g1" ⟨.user "ann",.folder "inner","content.write",.allow,some "bob",0,none⟩⟩

def annStart : State := ⟨annAbove,KeyMap.empty⟩

def depth (id : String) : Nat := if id = "top" then 0 else 1

theorem annAbove_forest : Forest annAbove.folders ∧ Closed annAbove.folders := by
  constructor
  · have falls : ∀ entry ∈ annAbove.folders.entries, ∀ above ∈ entry.2.parentId.toList, depth above < depth entry.1 := by decide +kernel
    exact forest_of_rank falls
  · apply closed_of_rows
    decide +kernel

def annEvents : List Event :=
  [.call 0 (.createAccess "ann" "new" none "new"),.call 1 (.patchAccess "ann" "new" (some "top")),.advance 0 annWrites 0,
   .advance 0 annWrites 0,.advance 1 annWrites 0,.advance 1 annWrites 0,.advance 1 annWrites 0,.advance 1 annWrites 0,
   .advance 1 annWrites 0,.advance 1 annWrites 0,.advance 1 annWrites 0]

theorem folders_form_a_forest_ann : ∃ final, Schedule.run (step String.toLower) annStart annEvents = some final ∧
    ((∀ left right reached, annEvents = left ++ right → Schedule.run (step String.toLower) annStart left = some reached →
      Forest reached.tree.folders ∧ WalksEnd reached.tree.folders) ↔ Schedule.Along (step String.toLower) NotAbove annStart annEvents) := by
  have goes : (Schedule.run (step String.toLower) annStart annEvents).isSome = true := by decide +kernel
  obtain ⟨final,ran⟩ := isSome_iff_exists.mp goes
  exact ⟨final,ran,folders_form_a_forest String.toLower annStart final annEvents annAbove_forest.1 annAbove_forest.2 ran⟩

def belowItself : List Event := .call 0 (.patchAccess "ann" "top" (some "inner")) :: List.replicate 6 (.advance 0 annWrites 0)

theorem folder_below_itself : Forest annAbove.folders ∧ Closed annAbove.folders ∧
    ∃ final, Schedule.run (step String.toLower) annStart belowItself = some final ∧ ¬Forest final.tree.folders := by
  obtain ⟨final,ran,climbed⟩ : ∃ final, Schedule.run (step String.toLower) annStart belowItself = some final ∧
      Ancestry.climb (parent final.tree.folders) 2 "top" = some "top" := Schedule.reached_of_any (by decide +kernel)
  exact ⟨annAbove_forest.1,annAbove_forest.2,final,ran,fun forest => forest.no_return climbed⟩

end Guest

end Ownly.Folders.Interleaved
