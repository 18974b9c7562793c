import Ownly.Files.NaturalSort
import Ownly.Folders.Listing
import Ownly.Lib.Paging

-- files/listing.rs: the pages of a folder's files, each from a query of its own.
namespace Ownly.Files.ListedPages
open List Folders NaturalSort
open Paging (Ranks Arranged Unsplit offsetPage unsplit_of_whole)
open Authz (Policy)

abbrev Row := String × Folders.FileRow

-- The name and the time of creation that the table has for a file.
abbrev Columns := String → Text × Int

def Columns.entry (columns : Columns) (row : Row) : FileEntry := ⟨(columns row.1).1,(columns row.1).2,row.1.toList⟩

def orderClause (lowering : Lowering) (columns : Columns) (sort : FileListSort) (a b : Row) : Prop :=
  fileListOrderClause lowering (columns.entry a) (columns.entry b) sort

-- What reading the pages 0, 1, … gives while `has_more` holds.
def Partitions (rows : List Row) (listing : Nat → ListResponse Row) : Prop :=
  ∃ last, (∀ k < last, (listing k).hasMore = true) ∧ (listing last).hasMore = false ∧
    ((range (last + 1)).flatMap (fun k => (listing k).rows)).Perm rows

def Legal (before : Row → Row → Prop) (rows : List Row) (answers : Nat → OrderBy Row) : Prop :=
  ∀ k, ((answers k).sort rows).Pairwise (fun a b => ¬before b a)

def AlwaysPartitions (before : Row → Row → Prop) (rows : List Row) (limit : Option Int)
    (list : OrderBy Row → Int → Int → Option (ListResponse Row)) : Prop :=
  ∀ answers, Legal before rows answers → ∃ listing, (∀ k, list (answers k) (page limit k).1 (page limit k).2 = some (listing k)) ∧
    Partitions rows listing

def ownedFiles (tree : Tree) (userId : String) (folderId : Option String) : List Row :=
  filesWhere tree folderId (fun _ row => decide (row.userId = userId))

def accessibleFiles (policy : Policy) (tree : Tree) (now : Int) (userId : String) (folderId : Option String) (readable : List String) : List Row :=
  filesWhere tree folderId (fun id row => decide (row.userId = userId ∨ row.userId ≠ userId ∧
    ((∃ inside ∈ row.folderId.toList, inside ∈ readable) ∨ id ∈ directlyGrantedFileIds policy now userId)))

variable {lowering : Lowering} {columns : Columns} {sort : FileListSort} {rows : List Row} {limit : Option Int} {size k : Nat}
  {order : OrderBy Row}

theorem orderClause_ranks : Ranks (orderClause lowering columns sort) := by
  have ranks {κ : Type} [LinearOrder κ] (key : Row → κ) : Ranks (fun a b => key a < key b) :=
    ⟨fun _ _ => lt_asymm,fun a _ c less => (lt_or_ge (key a) (key c)).imp_right (·.trans_lt less)⟩
  let name (row : Row) := toLex (naturalSortKey lowering (columns.entry row).name,lowering.lower (columns.entry row).name)
  let uploaded (row : Row) := toLex ((columns.entry row).createdAt,(columns.entry row).id)
  cases sort with
  | nameAsc => exact ranks name
  | nameDesc => exact ranks (fun row => OrderDual.toDual (name row))
  | uploadedDesc => exact ranks (fun row => OrderDual.toDual (uploaded row))
  | uploadedAsc => exact ranks uploaded

theorem paged_hasMore : (paged order rows size ((k * size : Nat) : Int)).hasMore = true ↔ (k + 1) * size < rows.length := by
  simp only [paged,decide_eq_true_eq,length_take,length_drop,(order.perm rows).length_eq,Nat.succ_mul]
  omega

theorem filesWhere_nodup (tree : Tree) (folderId : Option String) (visible : String → Folders.FileRow → Bool) :
    (filesWhere tree folderId visible).Nodup := by
  refine Nodup.filter _ (Nodup.of_map Prod.fst ?_)
  rw [map_map]
  exact tree.files.nodupKeys

theorem alwaysPartitions_iff {list : OrderBy Row → Int → Int → Option (ListResponse Row)} (once : rows.Nodup)
    (read : ∀ order limit offset, list order limit offset = some (paged order rows limit offset)) :
    AlwaysPartitions (orderClause lowering columns sort) rows limit list ↔
      Unsplit (orderClause lowering columns sort) (normalizePage limit none).1.toNat rows := by
  obtain ⟨size,positive,pages⟩ : ∃ size : Nat, 0 < size ∧ ∀ k : Nat, page limit k = ((size : Int),((k * size : Nat) : Int)) := page_size
  have same : (normalizePage limit none).1.toNat = size := congrArg (fun sized => sized.1.toNat) (pages 0)
  simp only [AlwaysPartitions,read,same,pages,Option.some.injEq]
  constructor
  · intro partitions
    refine unsplit_of_whole once (fun answers arranged => ?_)
    let orders (k : Nat) : OrderBy Row := ⟨fun other => if other = rows then answers k else other,fun other => by
      split
      · exact (‹other = rows› ▸ (arranged k).perm)
      · exact .refl _⟩
    have sorted (k : Nat) : (orders k).sort rows = answers k := if_pos rfl
    obtain ⟨listing,shown,last,-,ended,whole⟩ := partitions orders (fun k => by rw [sorted]; exact (arranged k).sorted)
    obtain rfl : _ = listing := funext shown
    have covers := mt paged_hasMore.mpr (Bool.eq_false_iff.mp ended)
    refine ⟨last + 1,Nat.le_of_not_lt covers,?_⟩
    simpa only [paged,offsetPage,Int.toNat_natCast,sorted] using whole
  · intro unsplit answers legal
    have covers : rows.length ≤ ((rows.length - 1) / size + 1) * size := by
      have above := Nat.lt_mul_div_succ (rows.length - 1) positive
      rw [Nat.mul_comm] at above
      omega
    refine ⟨_,fun _ => rfl,(rows.length - 1) / size,fun k earlier => ?_,?_,?_⟩
    · have within := (Nat.mul_le_mul_right size earlier).trans (Nat.div_mul_le_self (rows.length - 1) size)
      have some_ : 0 < (k + 1) * size := Nat.mul_pos k.succ_pos positive
      refine paged_hasMore.mpr ?_
      simp only [Nat.succ_eq_add_one] at within
      omega
    · exact Bool.eq_false_iff.mpr (mt paged_hasMore.mp (Nat.not_lt.mpr covers))
    · exact unsplit.whole orderClause_ranks (fun k => ⟨(answers k).perm rows,legal k⟩) covers

-- Each file is shown once, however the equal ones are answered, exactly when no two files that
-- the sort mode holds for equal can meet at the end of a page.
theorem pages_partition_iff (lowering : Lowering) (columns : Columns) (sort : FileListSort) (limit : Option Int) (policy : Policy)
    (tree : Tree) (now : Int) (userId : String) (folderId : Option String) (readable : List String)
    (ended : readableFolderSubtreeIds policy tree.folders now userId = some readable) :
    let before := orderClause lowering columns sort
    let size := (normalizePage limit none).1.toNat
    (AlwaysPartitions before (ownedFiles tree userId folderId) limit
        (fun order limit offset => some (listOwnedFiles tree userId order folderId limit offset)) ↔
      Unsplit before size (ownedFiles tree userId folderId)) ∧
    (AlwaysPartitions before (accessibleFiles policy tree now userId folderId readable) limit
        (fun order => listAccessibleFiles policy tree now userId order folderId) ↔
      Unsplit before size (accessibleFiles policy tree now userId folderId readable)) :=
  ⟨alwaysPartitions_iff (filesWhere_nodup ..) (fun _ _ _ => rfl),
    alwaysPartitions_iff (filesWhere_nodup ..) (fun _ _ _ => accessibleFiles_eq ended)⟩

def noGrants : Policy := ⟨KeyMap.empty,KeyMap.empty,[],[],KeyMap.empty⟩

def twins : Tree := ⟨KeyMap.empty,(KeyMap.empty.set "f1" ⟨"u",none,none⟩).set "f2" ⟨"u",none,none⟩⟩

theorem pages_partition_twins : AlwaysPartitions (orderClause plainLowering (fun _ => ([],0)) .nameAsc) (ownedFiles twins "u" none) none
    (fun order limit offset => some (listOwnedFiles twins "u" order none limit offset)) := by
  refine (pages_partition_iff plainLowering (fun _ => ([],0)) .nameAsc none noGrants twins 0 "u" none [] (by decide)).1.mpr ?_
  rintro front a b back arranged ⟨k,ends⟩
  have two : (ownedFiles twins "u" none).length = 2 := by decide
  have long := arranged.perm.length_eq
  simp only [two,length_append,length_cons] at long
  change front.length + 1 = 200 * k at ends
  omega

theorem twin_twice : ¬∀ (lowering : Lowering) (columns : Columns) (sort : FileListSort) (limit : Option Int) (tree : Tree) (userId : String)
    (folderId : Option String), AlwaysPartitions (orderClause lowering columns sort) (ownedFiles tree userId folderId) limit
      (fun order limit offset => some (listOwnedFiles tree userId order folderId limit offset)) := by
  intro always
  have unsplit := (alwaysPartitions_iff (filesWhere_nodup ..) (fun _ _ _ => rfl)).mp
    (always plainLowering (fun _ => ("a.txt".toList,0)) .nameAsc (some 1) twins "u" none)
  have tied (a b : Row) : ¬orderClause plainLowering (fun _ => ("a.txt".toList,0)) .nameAsc a b := lt_irrefl _
  refine tied _ _ (unsplit [] ("f1",⟨"u",none,none⟩) ("f2",⟨"u",none,none⟩) [] ⟨by decide,pairwise_pair.mpr (tied _ _)⟩ ?_)
  decide

end Ownly.Files.ListedPages
