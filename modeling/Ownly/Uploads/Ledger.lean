import Ownly.Lib.KeyTotal
import Ownly.Lib.Slots
import Ownly.Uploads.Parts

-- What keeps `bytes_received` equal to the sizes of the part rows while requests
-- run side by side.
namespace Ownly.Uploads.Parts
open RowVersion (Idle Undisturbed)
open Finset
open Option KeyMap
variable {parts parts' : KeyMap Int PartVersion} {part p q size total chunk : Int} {row next : PartVersion} {i j : Nat}
  {session session' : RowVersion Nat SessionRow} {phase : Phase} {stored : Option PartRow}

def storedSize (row : Option PartRow) : Int := (row.map PartRow.sizeBytes).getD 0

-- The sum of `size_bytes` over the part rows anyone can see.
def partBytes (parts : KeyMap Int PartVersion) : Int := KeyMap.total parts (fun _ row => storedSize row.committed)

def Balanced (sys : System) : Prop := sys.session.committed.bytesReceived = partBytes sys.parts

-- The upgrade of a placeholder still finds the placeholder.
def Phase.OnPlaceholder (parts : KeyMap Int PartVersion) : Phase → Prop
  | .upgrading part _ _ => (cell parts part).committed.map PartRow.sizeBytes = some 0
  | _ => True

def OnPlaceholder (sys : System) : Event → Prop
  | .advance i _ => ∀ task ∈ sys.tasks[i]?, task.phase.OnPlaceholder sys.parts
  | _ => True

instance (parts : KeyMap Int PartVersion) (phase : Phase) : Decidable (phase.OnPlaceholder parts) := by
  unfold Phase.OnPlaceholder
  split
  · infer_instance
  · infer_instance

instance (sys : System) (e : Event) : Decidable (OnPlaceholder sys e) := by
  unfold OnPlaceholder
  split
  · infer_instance
  · infer_instance

def Full (total chunk : Int) (parts : KeyMap Int PartVersion) : Prop :=
  ∀ part size, expectedPartSize total chunk part = .ok size →
    ∃ row, (cell parts part).committed = some row ∧ row.sizeBytes = size

theorem cell_set : cell (parts.set p row) q = if q = p then row else cell parts q := by
  rw [cell,get_set]
  split
  · rfl
  · rfl

theorem cell_set_self : cell (parts.set p row) p = row := by rw [cell_set,if_pos rfl]

theorem cell_set_ne (ne : q ≠ p) : cell (parts.set p row) q = cell parts q := by rw [cell_set,if_neg ne]

theorem cell_rollback : cell (parts.mapValues (RowVersion.rollback i)) p = (cell parts p).rollback i := by
  rw [cell,cell,get_mapValues]
  cases parts.get p with
  | none => rfl
  | some row => rfl

theorem partBytes_set : partBytes (parts.set p next) =
    partBytes parts - storedSize (cell parts p).committed + storedSize next.committed := by
  unfold partBytes
  cases found : parts.get p with
  | none =>
    have absent : storedSize (cell parts p).committed = 0 := by rw [cell,found]; rfl
    rw [total_insert found,absent]
    omega
  | some row =>
    have present : cell parts p = row := by rw [cell,found]; rfl
    rw [total_set found,present]

theorem partBytes_rollback : partBytes (parts.mapValues (RowVersion.rollback i)) = partBytes parts := by
  unfold partBytes
  rw [total_mapValues]
  simp only [RowVersion.rollback_committed]

theorem chunks_sum (count : Nat) (begins : ∀ k : Nat, k < count → k * chunk < total) (nonneg : 0 ≤ total) :
    ∑ k ∈ range count, min chunk (total - k * chunk) = min (count * chunk) total := by
  induction count with
  | zero => simpa using nonneg
  | succ count ih =>
    have sum := ih (fun k less => begins k (Nat.lt_succ_of_lt less))
    have last := begins count (Nat.lt_succ_self count)
    have next : ((count + 1 : Nat) : Int) * chunk = count * chunk + chunk := by
      rw [Int.natCast_add,Int.add_mul,Int.natCast_one,Int.one_mul]
    rw [sum_range_succ,sum,next]
    omega

def partNumbers (total chunk : Int) : Finset Int := (range (totalParts total chunk).toNat).image (fun k : Nat => (k : Int))

theorem mem_partNumbers : part ∈ partNumbers total chunk ↔ 0 ≤ part ∧ part < totalParts total chunk := by
  simp only [partNumbers,mem_image,mem_range]
  constructor
  · rintro ⟨k,less,rfl⟩
    omega
  · intro inside
    exact ⟨part.toNat,by omega,by omega⟩

theorem partNumbers_sum {session : SessionRow} (sized : session.Sized) :
    ∑ part ∈ partNumbers session.totalSize session.chunkSize,
      min session.chunkSize (session.totalSize - part * session.chunkSize) =
        min ((totalParts session.totalSize session.chunkSize).toNat * session.chunkSize) session.totalSize := by
  rw [partNumbers,sum_image (fun a _ b _ same => Int.natCast_inj.mp same)]
  refine chunks_sum _ ?_ (Int.le_of_lt sized.positive)
  intro k less
  exact part_begins_inside sized (by omega)

def Fits (total chunk part : Int) (row : Option PartRow) : Prop :=
  ∀ r, row = some r → ∃ size, expectedPartSize total chunk part = .ok size ∧ (r.sizeBytes = 0 ∨ r.sizeBytes = size)

theorem cell_get (found : parts.get p = some row) : cell parts p = row := by rw [cell,found]; rfl

theorem full_of_bytes {session : SessionRow} (sized : session.Sized)
    (fits : ∀ p, Fits session.totalSize session.chunkSize p (cell parts p).committed)
    (within : ∀ p row, parts.get p = some row → 0 ≤ p ∧ p < totalParts session.totalSize session.chunkSize)
    (reach : session.totalSize ≤ partBytes parts) : Full session.totalSize session.chunkSize parts := by
  intro part size expected
  obtain ⟨nonneg,inside,same⟩ := expectedPartSize_ok expected
  have positive : ∀ p ∈ partNumbers session.totalSize session.chunkSize,
      0 < min session.chunkSize (session.totalSize - p * session.chunkSize) := by
    intro p member
    have begins := part_begins_inside sized (mem_partNumbers.mp member).2
    have least := sized.least
    simp only [minChunkSize] at least
    omega
  have share : ∀ p row, parts.get p = some row → storedSize row.committed ≤
      min session.chunkSize (session.totalSize - p * session.chunkSize) := by
    intro p row found
    have positive := positive p (mem_partNumbers.mpr (within p row found))
    have known := fits p
    rw [cell_get found] at known
    cases stored : row.committed with
    | none => exact Int.le_of_lt positive
    | some r =>
      obtain ⟨size,expected,sizes⟩ := known r stored
      obtain ⟨_,_,rfl⟩ := expectedPartSize_ok expected
      rcases sizes with zero | whole
      · exact Int.le_of_lt (by rw [storedSize,map_some,getD_some,zero]; exact positive)
      · exact Int.le_of_eq whole
  have sum := Int.le_trans (Int.le_of_eq (partNumbers_sum sized)) (Int.le_trans (Int.min_le_right _ _) reach)
  obtain ⟨row,found,whole⟩ := total_full (fun p row found => mem_partNumbers.mpr (within p row found)) share positive
    sum (mem_partNumbers.mpr ⟨nonneg,inside⟩)
  have share := positive part (mem_partNumbers.mpr ⟨nonneg,inside⟩)
  rw [← whole] at share
  cases stored : row.committed with
  | none =>
    rw [stored] at share
    exact absurd share (Int.lt_irrefl 0)
  | some r =>
    rw [stored] at whole
    exact ⟨r,by rw [cell_get found,stored],whole.trans same.symm⟩

def Phase.holds : Phase → Option Int
  | .crediting part _ => some part
  | .reading part => some part
  | .committing part _ => some part
  | _ => none

def Phase.commits : Phase → Bool
  | .committing _ _ => true
  | _ => false

def Phase.completes : Phase → Bool
  | .listing => true
  | .done .complete => true
  | _ => false

def Phase.Proper (total chunk : Int) : Phase → Prop
  | .signing part _ => ∃ size, expectedPartSize total chunk part = .ok size
  | .placing part _ => ∃ size, expectedPartSize total chunk part = .ok size
  | .consuming part _ size _ => expectedPartSize total chunk part = .ok size
  | .selecting part size _ => expectedPartSize total chunk part = .ok size
  | .upgrading part size _ => expectedPartSize total chunk part = .ok size
  | .inserting part size _ => expectedPartSize total chunk part = .ok size
  | .stamping part _ => 0 ≤ part ∧ part < totalParts total chunk
  | .reading part => 0 ≤ part ∧ part < totalParts total chunk
  | .crediting part size => expectedPartSize total chunk part = .ok size
  | .committing part _ => 0 ≤ part ∧ part < totalParts total chunk
  | _ => True

-- The versions a request has written: what its commit adds to the part row is what
-- it adds to the session row, or still has to add.
structure Books (task : Nat) (phase : Phase) (session : RowVersion Nat SessionRow) (parts : KeyMap Int PartVersion) :
    Prop where
  others : ∀ part, phase.holds ≠ some part → (cell parts part).Idle task
  row : phase.commits = false → session.Idle task
  crediting : ∀ part size, phase = .crediting part size → (cell parts part).delta storedSize task = size
  reading : ∀ part, phase = .reading part → (cell parts part).delta storedSize task = 0
  committing : ∀ part bytes, phase = .committing part bytes →
    (cell parts part).delta storedSize task = session.delta SessionRow.bytesReceived task ∧
      0 ≤ session.delta SessionRow.bytesReceived task

structure Tables (total chunk : Int) (session : RowVersion Nat SessionRow) (parts : KeyMap Int PartVersion) : Prop where
  sized : session.committed.Sized
  whole : session.committed.totalSize = total
  width : session.committed.chunkSize = chunk
  pending : ∀ i row, session.pending = some (i,row) → row.Sized ∧ row.totalSize = total ∧ row.chunkSize = chunk
  balance : session.committed.bytesReceived = partBytes parts
  within : ∀ part row, parts.get part = some row → 0 ≤ part ∧ part < totalParts total chunk
  rows : ∀ part, Fits total chunk part (cell parts part).committed
  written : ∀ part i row, (cell parts part).pending = some (i,row) → Fits total chunk part row

structure Ledger (total chunk : Int) (sys : System) : Prop where
  tables : Tables total chunk sys.session sys.parts
  tasks : ∀ (i : Nat) (task : Task), sys.tasks[i]? = some task → task.copy.totalSize = total ∧ task.copy.chunkSize = chunk ∧
    task.phase.Proper total chunk ∧ Books i task.phase sys.session sys.parts
  later : ∀ i, sys.tasks[i]? = none → (∀ part, (cell sys.parts part).Idle i) ∧ sys.session.Idle i
  -- whoever has read that all bytes are there was right
  read : ∀ (i : Nat) (task : Task), sys.tasks[i]? = some task →
    (task.phase = .listing ∧ task.copy.bytesReceived = total) ∨ task.phase = .done .complete →
    Full total chunk sys.parts

-- What a statement of one request leaves of the tables and of the others' writes.
structure Change (total chunk : Int) (task : Nat) (session : RowVersion Nat SessionRow) (parts : KeyMap Int PartVersion)
    (session' : RowVersion Nat SessionRow) (parts' : KeyMap Int PartVersion) : Prop where
  tables : Tables total chunk session' parts'
  cells : ∀ other part, other ≠ task → Undisturbed other (cell parts part) (cell parts' part)
  row : ∀ other, other ≠ task → Undisturbed other session session'
  full : Full total chunk parts → Full total chunk parts'

theorem Tables.full (tables : Tables total chunk session parts) (reach : session.committed.bytesReceived = total) :
    Full total chunk parts := by
  obtain ⟨sized,rfl,rfl,_,balance,within,rows,_⟩ := tables
  exact full_of_bytes sized rows within (Int.le_of_eq (reach.symm.trans balance))

theorem Books.undisturbed (books : Books task phase session parts)
    (cells : ∀ part, Undisturbed task (cell parts part) (cell parts' part)) (kept : Undisturbed task session session') :
    Books task phase session' parts' := by
  refine ⟨?_,?_,?_,?_,?_⟩
  · intro part free
    exact (cells part).idle (books.others part free)
  · intro free
    exact kept.idle (books.row free)
  · intro part size same
    rw [(cells part).delta]
    exact books.crediting part size same
  · intro part same
    rw [(cells part).delta]
    exact books.reading part same
  · intro part bytes same
    rw [(cells part).delta,kept.delta]
    exact books.committing part bytes same

theorem Books.idle (books : Books task phase session parts) (free : phase.holds = none) :
    (∀ part, (cell parts part).Idle task) ∧ session.Idle task := by
  refine ⟨?_,?_⟩
  · intro part
    exact books.others part (by rw [free]; exact fun same => nomatch same)
  · refine books.row ?_
    cases phase with
    | committing part bytes => cases free
    | _ => rfl

theorem books_idle (cells : ∀ part, (cell parts part).Idle i) (idle : session.Idle i)
    (free : phase.holds = none) : Books i phase session parts := by
  refine ⟨fun part _ => cells part,fun _ => idle,?_,?_,?_⟩
  · intro part size same
    rw [same] at free
    cases free
  · intro part same
    rw [same] at free
    cases free
  · intro part bytes same
    rw [same] at free
    cases free

theorem Ledger.change (ledger : Ledger total chunk sys) (found : sys.tasks[i]? = some task)
    (change : Change total chunk i sys.session sys.parts session' parts') (proper : phase.Proper total chunk)
    (books : Books i phase session' parts')
    (reads : phase.completes = false ∨ (phase = .done .complete ∧ Full total chunk parts')) :
    Ledger total chunk ⟨session',parts',sys.tasks.set i ⟨task.copy,phase⟩⟩ := by
  refine ⟨change.tables,?_,?_,?_⟩
  · intro j other present
    rcases Slots.set_cases present with ⟨rfl,rfl⟩ | ⟨ne,old⟩
    · obtain ⟨total,chunk,_⟩ := ledger.tasks j task found
      exact ⟨total,chunk,proper,books⟩
    · obtain ⟨total,chunk,proper,books⟩ := ledger.tasks j other old
      exact ⟨total,chunk,proper,books.undisturbed (fun part => change.cells j part ne) (change.row j ne)⟩
  · intro j absent
    have ne : j ≠ i := by
      intro same
      have missing := List.getElem?_eq_none_iff.mp absent
      obtain ⟨inside,_⟩ := List.getElem?_eq_some_iff.mp found
      rw [List.length_set] at missing
      omega
    rw [List.getElem?_set_ne ne.symm] at absent
    obtain ⟨cells,session⟩ := ledger.later j absent
    exact ⟨fun part => (change.cells j part ne).idle (cells part),(change.row j ne).idle session⟩
  · intro j other present read
    rcases Slots.set_cases present with ⟨rfl,rfl⟩ | ⟨_,old⟩
    · rcases reads with quiet | ⟨_,full⟩
      · rcases read with ⟨same,_⟩ | same
        · rw [show phase = .listing from same] at quiet
          cases quiet
        · rw [show phase = .done .complete from same] at quiet
          cases quiet
      · exact full
    · exact change.full (ledger.read j other old read)

theorem change_none (tables : Tables total chunk session parts) : Change total chunk i session parts session parts :=
  ⟨tables,fun other _ _ => .refl other _,fun other _ => .refl other _,id⟩

theorem stored_whole (positive : 0 < size) (same : storedSize stored = size) :
    ∃ r, stored = some r ∧ r.sizeBytes = size := by
  cases stored with
  | none =>
    have zero : storedSize none = 0 := rfl
    omega
  | some r => exact ⟨r,rfl,same⟩

theorem Tables.positive (tables : Tables total chunk session parts) (expected : expectedPartSize total chunk p = .ok size) :
    0 < size := by
  obtain ⟨sized,rfl,rfl,_⟩ := tables
  exact expectedPartSize_positive sized expected

theorem cells_set (kept : Undisturbed other (cell parts p) next) (q : Int) :
    Undisturbed other (cell parts q) (cell (parts.set p next) q) := by
  rw [cell_set]
  split
  · rename_i here
    rw [here]
    exact kept
  · exact .refl other _

section
variable (tables : Tables total chunk session parts)
include tables

theorem Tables.within_set (inside : 0 ≤ p ∧ p < totalParts total chunk)
    (found : (parts.set p next).get q = some row) : 0 ≤ q ∧ q < totalParts total chunk := by
  by_cases here : q = p
  · rw [here]
    exact inside
  · rw [get_set_ne here] at found
    exact tables.within q row found

theorem Tables.each (q : Int) : (cell parts q).Each (Fits total chunk q) :=
  ⟨tables.rows q,tables.written q⟩

theorem Tables.versions :
    session.Each (fun row => row.Sized ∧ row.totalSize = total ∧ row.chunkSize = chunk) :=
  ⟨⟨tables.sized,tables.whole,tables.width⟩,tables.pending⟩

theorem Tables.each_set (fits : next.Each (Fits total chunk p)) (q : Int) :
    (cell (parts.set p next) q).Each (Fits total chunk q) := by
  rw [cell_set]
  split
  · rename_i here
    rw [here]
    exact fits
  · exact tables.each q

section
variable (inside : 0 ≤ p ∧ p < totalParts total chunk)
include inside

theorem change_cell
    (others : ∀ other, other ≠ i → Undisturbed other (cell parts p) next)
    (same : storedSize next.committed = storedSize (cell parts p).committed) (fits : next.Each (Fits total chunk p)) :
    Change total chunk i session parts session (parts.set p next) := by
  have each := tables.each_set fits
  refine ⟨⟨tables.sized,tables.whole,tables.width,tables.pending,?_,fun _ _ => tables.within_set inside,
    fun q => (each q).1,fun q => (each q).2⟩,fun other q ne => cells_set (others other ne) q,fun other _ => .refl other _,?_⟩
  · rw [partBytes_set,same,tables.balance]
    omega
  · intro full q size expected
    obtain ⟨r,found,whole⟩ := full q size expected
    rw [cell_set]
    split
    · rename_i here
      rw [here] at found
      have kept : storedSize next.committed = size := by rw [same,found,← whole]; rfl
      exact stored_whole (tables.positive expected) kept
    · exact ⟨r,found,whole⟩

theorem change_through
    (wrote : (cell parts p).writeThrough f = some next)
    (same : storedSize (f (cell parts p).committed) = storedSize (cell parts p).committed)
    (rows : Fits total chunk p (f (cell parts p).committed)) :
    Change total chunk i session parts session (parts.set p next) := by
  have others := fun other => RowVersion.writeThrough_undisturbed wrote other
  obtain ⟨_,rfl⟩ := RowVersion.writeThrough_exact.mp wrote
  exact change_cell tables inside (fun other _ => others other) same ⟨rows,fun _ _ none => nomatch none⟩

theorem change_write
    (idle : (cell parts p).Idle i) (wrote : (cell parts p).write i f = some next)
    (written : Fits total chunk p (f (cell parts p).committed)) :
    Change total chunk i session parts session (parts.set p next) := by
  have others : ∀ other, other ≠ i → Undisturbed other (cell parts p) next :=
    fun _ ne => RowVersion.write_undisturbed idle wrote ne
  obtain ⟨_,rfl⟩ := RowVersion.write_first idle wrote
  refine change_cell tables inside others rfl ⟨tables.rows p,?_⟩
  intro k row held
  cases held
  exact written

end

end

theorem books_write {f : Option PartRow → Option PartRow} (idle : ∀ part, (cell parts part).Idle i) (free : session.Idle i)
    (wrote : (cell parts p).write i f = some next) (holds : phase.holds = some p) (waits : phase.commits = false)
    (crediting : ∀ size, phase = .crediting p size →
      storedSize (f (cell parts p).committed) - storedSize (cell parts p).committed = size)
    (reading : phase = .reading p → storedSize (f (cell parts p).committed) = storedSize (cell parts p).committed) :
    Books i phase session (parts.set p next) := by
  have delta : next.delta storedSize i = storedSize (f (cell parts p).committed) - storedSize (cell parts p).committed :=
    RowVersion.write_delta (idle p) wrote
  refine ⟨?_,fun _ => free,?_,?_,?_⟩
  · intro q ne
    have other : q ≠ p := fun same => ne (by rw [same,holds])
    rw [cell_set_ne other]
    exact idle q
  · intro q size same
    have here : q = p := by
      rw [same] at holds
      exact Option.some.inj holds
    subst here
    rw [cell_set_self,delta]
    exact crediting size same
  · intro q same
    have here : q = p := by
      rw [same] at holds
      exact Option.some.inj holds
    subst here
    rw [cell_set_self,delta,reading same]
    omega
  · intro q bytes same
    rw [same] at waits
    cases waits

theorem change_credit (tables : Tables total chunk session parts) (idle : session.Idle i)
    (wrote : session.write i (SessionRow.credited now size) = some session') :
    Change total chunk i session parts session' parts := by
  have others : ∀ other, other ≠ i → Undisturbed other session session' :=
    fun _ ne => RowVersion.write_undisturbed idle wrote ne
  obtain ⟨_,rfl⟩ := RowVersion.write_first idle wrote
  refine ⟨⟨tables.sized,tables.whole,tables.width,?_,tables.balance,tables.within,tables.rows,tables.written⟩,
    fun other _ _ => .refl other _,others,id⟩
  intro k row held
  cases held
  exact ⟨⟨tables.sized.positive,tables.sized.word,tables.sized.least,tables.sized.most⟩,tables.whole,tables.width⟩

theorem books_credit (books : Books i (.crediting p size) session parts) (nonneg : 0 ≤ size)
    (wrote : session.write i (SessionRow.credited now size) = some session') :
    Books i (.committing p bytes) session' parts := by
  have free : session.Idle i := books.row rfl
  have credited : session'.delta SessionRow.bytesReceived i = size := by
    rw [RowVersion.write_delta free wrote]
    simp only [SessionRow.credited]
    omega
  refine ⟨books.others,fun waits => (nomatch waits),fun _ _ same => (nomatch same),fun _ same => (nomatch same),?_⟩
  intro q bytes same
  cases same
  rw [credited,books.crediting p size rfl]
  exact ⟨rfl,nonneg⟩

theorem change_commit (tables : Tables total chunk session parts) (books : Books i (.committing p bytes) session parts)
    (inside : 0 ≤ p ∧ p < totalParts total chunk) :
    Change total chunk i session parts (session.commit i) (parts.set p ((cell parts p).commit i)) := by
  obtain ⟨settled,nonneg⟩ := books.committing p bytes rfl
  have grown := RowVersion.measure_commit storedSize i (cell parts p)
  have credited := RowVersion.measure_commit SessionRow.bytesReceived i session
  have fits : ((cell parts p).commit i).Each (Fits total chunk p) := (tables.each p).commit
  have each := tables.each_set fits
  obtain ⟨⟨sized,whole,width⟩,pending⟩ := tables.versions.commit
  refine ⟨⟨sized,whole,width,pending,?_,fun _ _ => tables.within_set inside,fun q => (each q).1,fun q => (each q).2⟩,
    fun other q ne => cells_set (RowVersion.commit_undisturbed ne) q,fun other ne => RowVersion.commit_undisturbed ne,?_⟩
  · rw [partBytes_set,credited,grown,settled,tables.balance]
    omega
  · intro full q size expected
    obtain ⟨r,found,whole⟩ := full q size expected
    rw [cell_set]
    split
    · -- a row with all its bytes can only have been written with the same size again
      rename_i here
      subst here
      have positive := tables.positive expected
      have before : storedSize (cell parts q).committed = size := by rw [found,← whole]; rfl
      rw [before] at grown
      cases stored : ((cell parts q).commit i).committed with
      | none =>
        rw [stored] at grown
        have zero : storedSize none = 0 := rfl
        omega
      | some r =>
        obtain ⟨size',expected',sizes⟩ := fits.1 r stored
        rw [expected] at expected'
        cases expected'
        rw [stored] at grown
        have value : storedSize (some r) = r.sizeBytes := rfl
        refine ⟨r,rfl,?_⟩
        rcases sizes with zero | whole
        · omega
        · exact whole
    · exact ⟨r,found,whole⟩

theorem change_rollback (tables : Tables total chunk session parts) :
    Change total chunk i session parts (session.rollback i) (parts.mapValues (RowVersion.rollback i)) := by
  have same : ∀ part, (cell (parts.mapValues (RowVersion.rollback i)) part).committed = (cell parts part).committed := by
    intro part
    rw [cell_rollback,RowVersion.rollback_committed]
  have each : ∀ q, (cell (parts.mapValues (RowVersion.rollback i)) q).Each (Fits total chunk q) := by
    intro q
    rw [cell_rollback]
    exact (tables.each q).rollback
  obtain ⟨⟨sized,whole,width⟩,pending⟩ := tables.versions.rollback
  refine ⟨⟨sized,whole,width,pending,?_,?_,fun q => (each q).1,fun q => (each q).2⟩,?_,
    fun other ne => RowVersion.rollback_undisturbed ne,?_⟩
  · rw [RowVersion.rollback_committed,partBytes_rollback]
    exact tables.balance
  · intro q row found
    rw [get_mapValues] at found
    obtain ⟨old,present,_⟩ := map_eq_some_iff.mp found
    exact tables.within q old present
  · intro other q ne
    rw [cell_rollback]
    exact RowVersion.rollback_undisturbed ne
  · intro full q size expected
    obtain ⟨r,found,whole⟩ := full q size expected
    exact ⟨r,by rw [same,found],whole⟩

variable {f : PartRow → PartRow}

theorem storedSize_map (kept : ∀ r, (f r).sizeBytes = r.sizeBytes) (stored : Option PartRow) :
    storedSize (stored.map f) = storedSize stored := by
  cases stored with
  | none => rfl
  | some r => exact kept r

theorem fits_map (kept : ∀ r, (f r).sizeBytes = r.sizeBytes)
    (fits : Fits total chunk p stored) : Fits total chunk p (stored.map f) := by
  intro r found
  obtain ⟨old,rfl,rfl⟩ := map_eq_some_iff.mp found
  rw [kept old]
  exact fits old rfl

theorem signed_size (token : String) (r : PartRow) : (r.signed token).sizeBytes = r.sizeBytes := rfl

theorem stamped_size (sha : Option String) (r : PartRow) : (r.stamped sha).sizeBytes = r.sizeBytes := rfl

theorem consumed_size (token : String) (r : PartRow) : (r.consumed token).sizeBytes = r.sizeBytes := by
  unfold PartRow.consumed
  split
  · rfl
  · rfl

end Ownly.Uploads.Parts
