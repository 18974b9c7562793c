import Ownly.Uploads.Ledger

-- The statements of the part endpoints, one by one and then in any order: the books
-- balance wherever an upgrade still finds its placeholder.
namespace Ownly.Uploads.Parts
open RowVersion (Idle Undisturbed)
open List Option
variable {parts parts' : KeyMap Int PartVersion} {part p q size total chunk : Int} {row next : PartVersion} {i j : Nat}
  {session session' : RowVersion Nat SessionRow} {phase : Phase}

section Advance
variable {sys sys' : System} {task : Task}

section
variable (ledger : Ledger total chunk sys) (found : sys.tasks[i]? = some task)
include ledger found

theorem Ledger.proper :
    task.phase.Proper total chunk := (ledger.tasks i task found).2.2.1

theorem Ledger.books :
    Books i task.phase sys.session sys.parts := (ledger.tasks i task found).2.2.2

theorem Ledger.quiet (free : task.phase.holds = none)
    (still : phase.holds = none) (proper : phase.Proper total chunk)
    (reads : phase.completes = false ∨ (phase = .done .complete ∧ Full total chunk sys.parts)) :
    Ledger total chunk ⟨sys.session,sys.parts,sys.tasks.set i ⟨task.copy,phase⟩⟩ := by
  obtain ⟨cells,row⟩ := (ledger.books found).idle free
  exact ledger.change found (change_none ledger.tables) proper (books_idle cells row still) reads

section
variable (free : task.phase.holds = none) (inside : 0 ≤ p ∧ p < totalParts total chunk)
include free inside

theorem Ledger.through
    (wrote : (cell sys.parts p).writeThrough f = some next)
    (same : storedSize (f (cell sys.parts p).committed) = storedSize (cell sys.parts p).committed)
    (rows : Fits total chunk p (f (cell sys.parts p).committed)) (still : phase.holds = none)
    (proper : phase.Proper total chunk) (silent : phase.completes = false) :
    Ledger total chunk ⟨sys.session,sys.parts.set p next,sys.tasks.set i ⟨task.copy,phase⟩⟩ := by
  have change : Change total chunk i sys.session sys.parts sys.session (sys.parts.set p next) :=
    change_through ledger.tables inside wrote same rows
  obtain ⟨cells,row⟩ := (ledger.books found).idle free
  have kept : ∀ q, (cell (sys.parts.set p next) q).Idle i := by
    intro q
    rw [cell_set]
    split
    · exact (RowVersion.writeThrough_undisturbed wrote i).idle (cells p)
    · exact cells q
  exact ledger.change found change proper (books_idle kept row still) (.inl silent)

theorem Ledger.write
    (wrote : (cell sys.parts p).write i f = some next) (written : Fits total chunk p (f (cell sys.parts p).committed))
    (holds : phase.holds = some p) (waits : phase.commits = false) (silent : phase.completes = false)
    (proper : phase.Proper total chunk)
    (crediting : ∀ size, phase = .crediting p size →
      storedSize (f (cell sys.parts p).committed) - storedSize (cell sys.parts p).committed = size)
    (reading : phase = .reading p → storedSize (f (cell sys.parts p).committed) = storedSize (cell sys.parts p).committed) :
    Ledger total chunk ⟨sys.session,sys.parts.set p next,sys.tasks.set i ⟨task.copy,phase⟩⟩ := by
  obtain ⟨cells,row⟩ := (ledger.books found).idle free
  exact ledger.change found (change_write ledger.tables inside (cells p) wrote written) proper
    (books_write cells row wrote holds waits crediting reading) (.inl silent)

end

end

theorem expected_inside (expected : expectedPartSize total chunk p = .ok size) : 0 ≤ p ∧ p < totalParts total chunk := by
  obtain ⟨nonneg,inside,_⟩ := expectedPartSize_ok expected
  exact ⟨nonneg,inside⟩

theorem partsComplete_ok (complete : partsComplete copy received = .ok ()) :
    asI32 received = totalParts copy.totalSize copy.chunkSize ∧ copy.bytesReceived = copy.totalSize := by
  unfold partsComplete at complete
  dsimp only at complete
  split at complete
  · assumption
  · split at complete
    · cases complete
    · cases complete

section
variable (ledger : Ledger total chunk sys)
include ledger

theorem signing_ledger (found : sys.tasks[i]? = some ⟨copy,.signing p token⟩)
    (ran : advance i now copy sys.session sys.parts (.signing p token) = some (phase,session',parts')) :
    Ledger total chunk ⟨session',parts',sys.tasks.set i ⟨copy,phase⟩⟩ := by
  have proper := ledger.proper found
  obtain ⟨size,expected⟩ := proper
  dsimp only [advance] at ran
  split at ran
  · cases ran
    exact ledger.quiet found rfl rfl ⟨size,expected⟩ (.inl rfl)
  · obtain ⟨row,wrote,same⟩ := map_eq_some_iff.mp ran
    cases same
    exact ledger.through found rfl (expected_inside expected) wrote (storedSize_map (signed_size token) _)
      (fits_map (signed_size token) (ledger.tables.rows p)) rfl trivial rfl

theorem placing_ledger (found : sys.tasks[i]? = some ⟨copy,.placing p token⟩)
    (ran : advance i now copy sys.session sys.parts (.placing p token) = some (phase,session',parts')) :
    Ledger total chunk ⟨session',parts',sys.tasks.set i ⟨copy,phase⟩⟩ := by
  have proper := ledger.proper found
  obtain ⟨size,expected⟩ := proper
  dsimp only [advance] at ran
  obtain ⟨row,wrote,same⟩ := map_eq_some_iff.mp ran
  cases same
  refine ledger.through found rfl (expected_inside expected) wrote ?_ ?_ rfl trivial rfl
  · cases (cell sys.parts p).committed with
    | none => rfl
    | some r => rfl
  · have rows := ledger.tables.rows p
    intro r shown
    cases stored : (cell sys.parts p).committed with
    | none =>
      rw [stored] at shown
      cases shown
      exact ⟨size,expected,.inl rfl⟩
    | some old =>
      rw [stored] at shown
      cases shown
      exact rows old stored

theorem consuming_ledger (found : sys.tasks[i]? = some ⟨copy,.consuming p token size sha⟩)
    (ran : advance i now copy sys.session sys.parts (.consuming p token size sha) = some (phase,session',parts')) :
    Ledger total chunk ⟨session',parts',sys.tasks.set i ⟨copy,phase⟩⟩ := by
  have proper := ledger.proper found
  dsimp only [advance] at ran
  split at ran
  · obtain ⟨row,wrote,same⟩ := map_eq_some_iff.mp ran
    cases same
    exact ledger.through found rfl (expected_inside proper) wrote (storedSize_map (consumed_size token) _)
      (fits_map (consumed_size token) (ledger.tables.rows p)) rfl proper rfl
  · cases ran
    exact ledger.quiet found rfl rfl trivial (.inl rfl)

theorem selecting_ledger (found : sys.tasks[i]? = some ⟨copy,.selecting p size sha⟩)
    (ran : advance i now copy sys.session sys.parts (.selecting p size sha) = some (phase,session',parts')) :
    Ledger total chunk ⟨session',parts',sys.tasks.set i ⟨copy,phase⟩⟩ := by
  have proper := ledger.proper found
  dsimp only [advance] at ran
  split at ran
  · cases ran
    exact ledger.quiet found rfl rfl proper (.inl rfl)
  · cases ran
    exact ledger.quiet found rfl rfl (expected_inside proper) (.inl rfl)
  · cases ran
    obtain ⟨cells,row⟩ := (ledger.books found).idle rfl
    refine ledger.change found (change_none ledger.tables) (expected_inside proper) ?_ (.inl rfl)
    refine ⟨fun q _ => cells q,fun _ => row,fun _ _ same => (nomatch same),?_,fun _ _ same => (nomatch same)⟩
    intro q _
    exact RowVersion.delta_idle (cells q)
  · cases ran
    exact ledger.quiet found rfl rfl trivial (.inl rfl)
  · cases ran
    exact ledger.quiet found rfl rfl proper (.inl rfl)

theorem upgrading_ledger (found : sys.tasks[i]? = some ⟨copy,.upgrading p size sha⟩) (placed : (cell sys.parts p).committed.map PartRow.sizeBytes = some 0)
    (ran : advance i now copy sys.session sys.parts (.upgrading p size sha) = some (phase,session',parts')) :
    Ledger total chunk ⟨session',parts',sys.tasks.set i ⟨copy,phase⟩⟩ := by
  have proper := ledger.proper found
  dsimp only [advance] at ran
  obtain ⟨row,wrote,same⟩ := map_eq_some_iff.mp ran
  cases same
  obtain ⟨r,stored,empty⟩ := map_eq_some_iff.mp placed
  refine ledger.write found rfl (expected_inside proper) wrote ?_ rfl rfl rfl proper ?_ (fun same => nomatch same)
  · rw [stored]
    intro new shown
    cases shown
    exact ⟨size,proper,.inr rfl⟩
  · intro size' same
    cases same
    have old : storedSize (some r) = 0 := empty
    have new : storedSize (Option.map (PartRow.upgraded size sha) (some r)) = size := rfl
    rw [stored,old,new]
    omega

theorem stamping_ledger (found : sys.tasks[i]? = some ⟨copy,.stamping p sha⟩)
    (ran : advance i now copy sys.session sys.parts (.stamping p sha) = some (phase,session',parts')) :
    Ledger total chunk ⟨session',parts',sys.tasks.set i ⟨copy,phase⟩⟩ := by
  have proper := ledger.proper found
  dsimp only [advance] at ran
  obtain ⟨row,wrote,same⟩ := map_eq_some_iff.mp ran
  cases same
  exact ledger.write found rfl proper wrote (fits_map (stamped_size sha) (ledger.tables.rows p)) rfl rfl rfl proper
    (fun _ same => nomatch same) (fun _ => storedSize_map (stamped_size sha) _)

theorem reading_ledger (found : sys.tasks[i]? = some ⟨copy,.reading p⟩)
    (ran : advance i now copy sys.session sys.parts (.reading p) = some (phase,session',parts')) :
    Ledger total chunk ⟨session',parts',sys.tasks.set i ⟨copy,phase⟩⟩ := by
  have proper := ledger.proper found
  have books := ledger.books found
  cases ran
  have row := books.row rfl
  refine ledger.change found (change_none ledger.tables) proper ?_ (.inl rfl)
  refine ⟨books.others,fun same => (nomatch same),fun _ _ same => (nomatch same),fun _ same => (nomatch same),?_⟩
  intro q bytes same
  cases same
  rw [books.reading p rfl,RowVersion.delta_idle row]
  exact ⟨rfl,Int.le_refl 0⟩

theorem inserting_ledger (found : sys.tasks[i]? = some ⟨copy,.inserting p size sha⟩)
    (ran : advance i now copy sys.session sys.parts (.inserting p size sha) = some (phase,session',parts')) :
    Ledger total chunk ⟨session',parts',sys.tasks.set i ⟨copy,phase⟩⟩ := by
  have proper := ledger.proper found
  dsimp only [advance] at ran
  split at ran
  · cases ran
  · cases ran
    exact ledger.quiet found rfl rfl trivial (.inl rfl)
  · rename_i absent
    obtain ⟨row,wrote,same⟩ := map_eq_some_iff.mp ran
    cases same
    refine ledger.write found rfl (expected_inside proper) wrote ?_ rfl rfl rfl proper ?_ (fun same => nomatch same)
    · intro r shown
      cases shown
      exact ⟨size,proper,.inr rfl⟩
    · intro size' same
      cases same
      have old : storedSize none = 0 := rfl
      have new : storedSize (some (PartRow.recorded size sha)) = size := rfl
      rw [absent,old,new]
      omega

theorem crediting_ledger (found : sys.tasks[i]? = some ⟨copy,.crediting p size⟩)
    (ran : advance i now copy sys.session sys.parts (.crediting p size) = some (phase,session',parts')) :
    Ledger total chunk ⟨session',parts',sys.tasks.set i ⟨copy,phase⟩⟩ := by
  have proper := ledger.proper found
  have books := ledger.books found
  dsimp only [advance] at ran
  obtain ⟨row,wrote,same⟩ := map_eq_some_iff.mp ran
  cases same
  exact ledger.change found (change_credit ledger.tables (books.row rfl) wrote) (expected_inside proper)
    (books_credit books (Int.le_of_lt (ledger.tables.positive proper)) wrote) (.inl rfl)

theorem committing_ledger (found : sys.tasks[i]? = some ⟨copy,.committing p bytes⟩)
    (ran : advance i now copy sys.session sys.parts (.committing p bytes) = some (phase,session',parts')) :
    Ledger total chunk ⟨session',parts',sys.tasks.set i ⟨copy,phase⟩⟩ := by
  have proper := ledger.proper found
  have books := ledger.books found
  cases ran
  refine ledger.change found (change_commit ledger.tables books proper) trivial
    (books_idle ?_ RowVersion.commit_idle rfl) (.inl rfl)
  intro q
  rw [cell_set]
  split
  · exact RowVersion.commit_idle
  · rename_i ne
    exact books.others q (fun same => ne (Option.some.inj same).symm)

theorem listing_ledger (found : sys.tasks[i]? = some ⟨copy,.listing⟩)
    (ran : advance i now copy sys.session sys.parts .listing = some (phase,session',parts')) :
    Ledger total chunk ⟨session',parts',sys.tasks.set i ⟨copy,phase⟩⟩ := by
  dsimp only [advance] at ran
  generalize complete : partsComplete copy (listReceivedParts sys.parts).length = answer at ran
  cases ran
  cases answer with
  | error e => exact ledger.quiet found rfl rfl trivial (.inl rfl)
  | ok _ =>
    obtain ⟨_,bytes⟩ := partsComplete_ok complete
    have copied : copy.totalSize = total := (ledger.tasks i _ found).1
    exact ledger.quiet found rfl rfl trivial (.inr ⟨rfl,ledger.read i _ found (.inl ⟨rfl,bytes.trans copied⟩)⟩)

theorem advance_ledger (found : sys.tasks[i]? = some task) (placed : task.phase.OnPlaceholder sys.parts)
    (ran : advance i now task.copy sys.session sys.parts task.phase = some (phase,session',parts')) :
    Ledger total chunk ⟨session',parts',sys.tasks.set i ⟨task.copy,phase⟩⟩ := by
  obtain ⟨copy,was⟩ := task
  cases was with
  | signing p token => exact signing_ledger ledger found ran
  | placing p token => exact placing_ledger ledger found ran
  | matching p token sha =>
    dsimp only [advance] at ran
    split at ran
    · cases ran
      exact ledger.quiet found rfl rfl trivial (.inl rfl)
    · cases ran
      exact ledger.quiet found rfl rfl trivial (.inl rfl)
  | verifying p token sha => cases ran
  | consuming p token size sha => exact consuming_ledger ledger found ran
  | rescuing p =>
    dsimp only [advance] at ran
    split at ran
    · cases ran
      exact ledger.quiet found rfl rfl trivial (.inl rfl)
    · cases ran
      exact ledger.quiet found rfl rfl trivial (.inl rfl)
  | reloading p =>
    cases ran
    exact ledger.quiet found rfl rfl trivial (.inl rfl)
  | selecting p size sha => exact selecting_ledger ledger found ran
  | upgrading p size sha => exact upgrading_ledger ledger found placed ran
  | stamping p sha => exact stamping_ledger ledger found ran
  | reading p => exact reading_ledger ledger found ran
  | inserting p size sha => exact inserting_ledger ledger found ran
  | crediting p size => exact crediting_ledger ledger found ran
  | committing p bytes => exact committing_ledger ledger found ran
  | listing => exact listing_ledger ledger found ran
  | done outcome => cases ran

end

theorem begin_quiet (now : Int) (userId : String) (refusal : Option AppError) (session : SessionRow) (request : Request) :
    (begin now userId refusal session request).holds = none ∧
      (begin now userId refusal session request).Proper session.totalSize session.chunkSize ∧
      begin now userId refusal session request ≠ .done .complete := by
  have begins := begin_begins now userId refusal session request
  generalize begin now userId refusal session request = phase at begins ⊢
  cases begins with
  | refused e => exact ⟨rfl,trivial,fun same => nomatch same⟩
  | listing => exact ⟨rfl,trivial,fun same => nomatch same⟩
  | signing part token sized => exact ⟨rfl,⟨_,sized⟩,fun same => nomatch same⟩
  | matching part token sha => exact ⟨rfl,trivial,fun same => nomatch same⟩
  | selecting sha sized => exact ⟨rfl,sized,fun same => nomatch same⟩

theorem verify_quiet (copy : SessionRow) (stored : Option Int) (digest : Except AppError Bool) (part : Int) (token : String)
    (sha : Option String) :
    (verify copy stored digest part token sha).holds = none ∧
      (verify copy stored digest part token sha).Proper copy.totalSize copy.chunkSize ∧
      (verify copy stored digest part token sha).completes = false := by
  rcases verify_cases copy stored digest part token sha with ⟨e,refused⟩ | ⟨size,sha',consuming,sized⟩
  · rw [refused]
    exact ⟨rfl,trivial,rfl⟩
  · rw [consuming]
    exact ⟨rfl,sized,rfl⟩

theorem begin_ledger (ledger : Ledger total chunk sys) :
    Ledger total chunk {sys with tasks := sys.tasks ++ [⟨sys.session.committed,
      begin now userId refusal sys.session.committed request⟩]} := by
  obtain ⟨free,proper,running⟩ := begin_quiet now userId refusal sys.session.committed request
  rw [ledger.tables.whole,ledger.tables.width] at proper
  refine ⟨ledger.tables,?_,?_,?_⟩
  · intro j other present
    rcases Slots.append_cases present with ⟨rfl,rfl⟩ | old
    · obtain ⟨cells,row⟩ := ledger.later sys.tasks.length (getElem?_length sys.tasks)
      exact ⟨ledger.tables.whole,ledger.tables.width,proper,books_idle cells row free⟩
    · exact ledger.tasks j other old
  · intro j absent
    have past := List.getElem?_eq_none_iff.mp absent
    rw [length_append] at past
    exact ledger.later j (List.getElem?_eq_none_iff.mpr (Nat.le_trans (Nat.le_add_right _ _) past))
  · intro j other present read
    rcases Slots.append_cases present with ⟨rfl,rfl⟩ | old
    · rcases read with ⟨_,bytes⟩ | complete
      · exact ledger.tables.full bytes
      · exact absurd complete running
    · exact ledger.read j other old read

theorem rollback_ledger (ledger : Ledger total chunk sys) (found : sys.tasks[i]? = some task) :
    Ledger total chunk ⟨sys.session.rollback i,sys.parts.mapValues (RowVersion.rollback i),
      sys.tasks.set i ⟨task.copy,.done .dropped⟩⟩ := by
  refine ledger.change found (change_rollback ledger.tables) trivial (books_idle ?_ RowVersion.rollback_idle rfl) (.inl rfl)
  intro part
  rw [cell_rollback]
  exact RowVersion.rollback_idle

theorem step_ledger (ledger : Ledger total chunk sys) (good : OnPlaceholder sys e) (fired : step sys e = some sys') :
    Ledger total chunk sys' := by
  cases e with
  | begin now userId request refusal =>
    cases fired
    exact begin_ledger ledger
  | advance i now =>
    dsimp only [step] at fired
    cases found : sys.tasks[i]? with
    | none =>
      rw [found] at fired
      cases fired
    | some task =>
      rw [found] at fired
      dsimp only at fired
      cases ran : advance i now task.copy sys.session sys.parts task.phase with
      | none =>
        rw [ran] at fired
        cases fired
      | some result =>
        obtain ⟨phase,session',parts'⟩ := result
        rw [ran] at fired
        cases fired
        exact advance_ledger ledger found (good task found) ran
  | verify i stored digest =>
    dsimp only [step] at fired
    split at fired
    · rename_i copy part token sha found
      cases fired
      obtain ⟨free,proper,silent⟩ := verify_quiet copy stored digest part token sha
      obtain ⟨whole,width,_⟩ := ledger.tasks i _ found
      rw [show copy.totalSize = total from whole,show copy.chunkSize = chunk from width] at proper
      exact ledger.quiet found rfl free proper (.inl silent)
    · cases fired
  | drop i =>
    dsimp only [step] at fired
    split at fired
    · cases fired
    · cases fired
    · rename_i task _ found
      cases fired
      exact rollback_ledger ledger found

theorem created_ledger {session : SessionRow} (sized : session.Sized) (empty : session.bytesReceived = 0) :
    Ledger session.totalSize session.chunkSize (created session) := by
  have fresh : ∀ part, cell (created session).parts part = ⟨none,none⟩ := fun _ => rfl
  refine ⟨⟨sized,rfl,rfl,?_,empty,?_,?_,?_⟩,?_,?_,?_⟩
  · intro i row held
    cases held
  · intro part row found
    cases found
  · intro part row found
    rw [fresh part] at found
    cases found
  · intro part i row held
    rw [fresh part] at held
    cases held
  · intro i task found
    cases found
  · intro i _
    refine ⟨?_,RowVersion.idle_free rfl⟩
    intro part
    rw [fresh part]
    exact RowVersion.idle_free rfl
  · intro i task found
    cases found

end Advance

section Runs
variable {sys : System} {now totalSize : Int} {id userId fileOwnerId : String} {isVideo : Bool} {contentHash : Option String}
  {value : Option Int}

theorem insertSession_sized (positive : 0 < totalSize) (word : totalSize < 2^63)
    (normal : normalizeChunkSize value = .ok chunk) :
    (insertSession now id userId fileOwnerId isVideo totalSize chunk contentHash).Sized := by
  obtain ⟨least,most⟩ := normalizeChunkSize_bounds normal
  exact ⟨positive,word,least,most⟩

theorem run_ledger {session : SessionRow} (sized : session.Sized) (empty : session.bytesReceived = 0)
    (good : Schedule.Along step OnPlaceholder (created session) events)
    (ran : Schedule.run step (created session) events = some sys) : Ledger session.totalSize session.chunkSize sys :=
  Schedule.run_along (fun _ _ _ ledger good fired => step_ledger ledger good fired) (created_ledger sized empty) good ran

-- The bytes of the session are those of its parts, so a completion is let through
-- only when every part is there.
theorem bytes_match_parts (positive : 0 < totalSize) (word : totalSize < 2^63)
    (normal : normalizeChunkSize value = .ok chunk)
    (placed : Schedule.Along step OnPlaceholder
      (created (insertSession now id userId fileOwnerId isVideo totalSize chunk contentHash)) events)
    (ran : Schedule.run step (created (insertSession now id userId fileOwnerId isVideo totalSize chunk contentHash)) events =
      some sys) :
    Balanced sys ∧
      (partsComplete sys.session.committed (listReceivedParts sys.parts).length = .ok () → Full totalSize chunk sys.parts) ∧
      ∀ task ∈ sys.tasks, task.phase = .done .complete → Full totalSize chunk sys.parts := by
  have ledger := run_ledger (insertSession_sized positive word normal) rfl placed ran
  refine ⟨ledger.tables.balance,?_,?_⟩
  · intro complete
    obtain ⟨_,bytes⟩ := partsComplete_ok complete
    exact ledger.tables.full (bytes.trans ledger.tables.whole)
  · intro task present complete
    obtain ⟨i,found⟩ := getElem?_of_mem present
    exact ledger.read i task found (.inr complete)

end Runs

def onePart : System := created (insertSession 0 "s" "u" "u" false 1048576 1048576 none)

def minted : List Event :=
  [.begin 1 "u" (.signedPartUrl 0 "t") none,.advance 0 1,.advance 0 1,.begin 2 "u" (.uploadPart 0 1048576 none) none,.advance 1 2]

def uploadedInTurn : List Event :=
  minted ++ [.advance 1 3,.advance 1 3,.advance 1 3,.begin 4 "u" (.uploadPart 0 1048576 none) none,.advance 2 4,.advance 2 4,
    .advance 2 4,.begin 5 "u" .completeSession none,.advance 3 5]

def uploadedAtOnce : List Event :=
  minted ++ [.begin 2 "u" (.uploadPart 0 1048576 none) none,.advance 2 2,.advance 1 3,.advance 1 3,.advance 1 3,.advance 2 4,
    .advance 2 4,.advance 2 4]

def bytesShown (events : List Event) : Option (Int × Int × List Phase) :=
  (Schedule.run step onePart events).map
    (fun sys => (sys.session.committed.bytesReceived,partBytes sys.parts,sys.tasks.map Task.phase))

theorem bytes_match_parts_in_turn : ∃ sys, Schedule.run step onePart uploadedInTurn = some sys ∧
    sys.session.committed.bytesReceived = 1048576 ∧ Balanced sys ∧ Full 1048576 1048576 sys.parts := by
  obtain ⟨sys,ran,shown⟩ := map_eq_some_iff.mp (by decide +kernel : bytesShown uploadedInTurn =
    some (1048576,1048576,[.done .minted,.done (.recorded 1048576),.done (.recorded 1048576),.done .complete]))
  obtain ⟨bytes,rest⟩ := Prod.mk.inj shown
  have phases := (Prod.mk.inj rest).2
  have placed : Schedule.Along step OnPlaceholder onePart uploadedInTurn := by decide +kernel
  obtain ⟨balanced,_,complete⟩ := bytes_match_parts (by decide) (by decide)
    (by decide : normalizeChunkSize (some 1048576) = .ok 1048576) placed ran
  obtain ⟨task,found,phase⟩ := mem_map.mp (by rw [phases]; simp : Phase.done .complete ∈ sys.tasks.map Task.phase)
  exact ⟨sys,ran,bytes,balanced,complete task found phase⟩

theorem part_credited_twice : ∃ sys, Schedule.run step onePart uploadedAtOnce = some sys ∧
    sys.session.committed.bytesReceived = 2097152 ∧ partBytes sys.parts = 1048576 ∧ ¬Balanced sys := by
  obtain ⟨sys,ran,shown⟩ := map_eq_some_iff.mp (by decide +kernel : bytesShown uploadedAtOnce =
    some (2097152,1048576,[.done .minted,.done (.recorded 1048576),.done (.recorded 2097152)]))
  obtain ⟨bytes,rest⟩ := Prod.mk.inj shown
  have parts := (Prod.mk.inj rest).1
  refine ⟨sys,ran,bytes,parts,?_⟩
  intro balanced
  rw [Balanced,bytes,parts] at balanced
  exact absurd balanced (by decide)

end Ownly.Uploads.Parts
