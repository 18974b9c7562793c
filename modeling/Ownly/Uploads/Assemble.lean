import Ownly.Lib.SparseFile
import Ownly.Lib.Tiling
import Ownly.Uploads.Store
import Mathlib

-- backend/src/uploads/assemble.rs: the spool file of an upload, from parts written at
-- their offsets or, for older spools, from part files.
namespace Ownly.Uploads.Assemble
open List

-- The files under work_dir: `source`, and `parts/{n}`.
structure WorkDir where
  source : Option (List UInt8)
  parts : KeyMap Nat (List UInt8)

-- A part number that expected_part_size has taken, so `offset as u64` is the offset.
def appendPartToSource (dir : WorkDir) (partNumber : Nat) (chunkSize : Int) (body : List UInt8) : WorkDir :=
  let offset := partNumber * chunkSize
  {dir with source := some (SparseFile.write 0 (dir.source.getD []) offset.toNat body)}

-- The loop over part files, with what it has copied to `out`.
def copyParts (parts : KeyMap Nat (List UInt8)) (out : List UInt8) : List Nat → Except AppError Unit × List UInt8
  | [] => (.ok (),out)
  | partNumber :: rest =>
    match parts.get partNumber with
    | none => (.error (.badRequest s!"missing upload part {partNumber}: No such file or directory (os error 2)"),out)
    | some partFile => copyParts parts (out ++ partFile) rest

def assembleSessionPartsFromLegacyParts (session : SessionRow) (dir : WorkDir) : Except AppError Nat × WorkDir :=
  let parts := totalParts session.totalSize session.chunkSize
  if parts = 0 then (.error (.badRequest "upload session has zero parts"),dir)
  else match copyParts dir.parts [] (List.range parts.toNat) with
    | (.error e,out) => (.error e,{dir with source := some out})
    | (.ok (),out) =>
      if asI64 out.length ≠ session.totalSize then
        (.error (.badRequest s!"assembled size {out.length} does not match expected {session.totalSize}"),{dir with source := some out})
      else (.ok out.length,{dir with source := some out})

-- The answer has the length of the file; its path is `source` wherever there is one.
def resolveSessionSource (session : SessionRow) (dir : WorkDir) : Except AppError Nat × WorkDir :=
  match dir.source with
  | some source =>
    if asI64 source.length ≠ session.totalSize then
      (.error (.badRequest s!"assembled size {source.length} does not match expected {session.totalSize}"),dir)
    else (.ok source.length,dir)
  | none => assembleSessionPartsFromLegacyParts session dir

def appendParts (dir : WorkDir) (chunkSize : Int) (writes : List (Nat × List UInt8)) : WorkDir :=
  writes.foldl (fun dir write => appendPartToSource dir write.1 chunkSize write.2) dir

def concatenated (count : Nat) (writes : List (Nat × List UInt8)) : List UInt8 :=
  (List.range count).flatMap (fun part => (SparseFile.latest part writes).getD [])

section Tiles
variable {total chunk : Int} {k : Nat}

-- Where part `k` begins, or the end.
def edge (total chunk : Int) (k : Nat) : Int := min (k * chunk) total

theorem totalParts_exact (positive : 0 < total) (least : 1 ≤ chunk) (word : total + chunk < 2^63)
    (few : (total + chunk - 1) / chunk < 2^31) : totalParts total chunk = (total + chunk - 1) / chunk := by
  have sum : asI64 (total + chunk - 1) = total + chunk - 1 := Int.bmod_eq_of_le (by omega) (by omega)
  have quotient : 0 ≤ (total + chunk - 1) / chunk := Int.ediv_nonneg (by omega) (by omega)
  rw [totalParts,if_neg (Int.not_le.mpr positive),sum,Int.tdiv_eq_ediv_of_nonneg (by omega)]
  exact Int.bmod_eq_of_le (by omega) (by omega)

theorem begins_iff (positive : 0 < total) (least : 1 ≤ chunk) (word : total + chunk < 2^63)
    (few : (total + chunk - 1) / chunk < 2^31) : k < (totalParts total chunk).toNat ↔ k * chunk < total := by
  rw [totalParts_exact positive least word few,Int.lt_toNat,Int.lt_iff_add_one_le,Int.le_ediv_iff_mul_le (by omega),Int.add_mul]
  omega

theorem expectedPartSize_inside (inside : k < (totalParts total chunk).toNat) :
    expectedPartSize total chunk k = .ok (min chunk (total - k * chunk)) := by
  rw [expectedPartSize,if_neg (by omega),if_neg (by omega)]

theorem edge_succ (begins : k * chunk < total) : edge total chunk (k + 1) = edge total chunk k + min chunk (total - k * chunk) := by
  have next : ((k + 1 : Nat) : Int) * chunk = k * chunk + chunk := by rw [Int.natCast_add,Int.add_mul,Int.natCast_one,Int.one_mul]
  rw [edge,edge,next]
  omega

theorem edge_end (past : ¬k * chunk < total) : edge total chunk k = total := min_eq_right (Int.not_lt.mp past)

theorem edge_zero (chunk : Int) (positive : 0 < total) : edge total chunk 0 = 0 := by rw [edge]; omega

theorem edge_mono (least : 1 ≤ chunk) : Monotone (fun k => (edge total chunk k).toNat) := by
  refine monotone_nat_of_le_succ (fun k => ?_)
  have next : ((k + 1 : Nat) : Int) * chunk = k * chunk + chunk := by rw [Int.natCast_add,Int.add_mul,Int.natCast_one,Int.one_mul]
  simp only [edge,next]
  omega

theorem parts_tile (positive : 0 < total) (least : 1 ≤ chunk) (word : total + chunk < 2^63)
    (few : (total + chunk - 1) / chunk < 2^31) :
    Tiling.Tiles 0 ((List.range (totalParts total chunk).toNat).map (fun k => (edge total chunk k,min chunk (total - k * chunk)))) total := by
  have begins : ∀ k, k < (totalParts total chunk).toNat ↔ k * chunk < total := fun k => begins_iff positive least word few
  have steps : ∀ k < (totalParts total chunk).toNat, 0 < min chunk (total - k * chunk) ∧
      edge total chunk (k + 1) = edge total chunk k + min chunk (total - k * chunk) := by
    intro k less
    have inside := (begins k).mp less
    exact ⟨by omega,edge_succ inside⟩
  have tiles := Tiling.tiles_steps (edge total chunk) (fun k : Nat => min chunk (total - k * chunk)) steps
  rw [edge_zero chunk positive,edge_end (fun less => Nat.lt_irrefl _ ((begins _).mpr less))] at tiles
  exact tiles

theorem mapM_ok {α β : Type} {f : α → Except AppError β} {g : α → β} {xs : List α} (answers : ∀ x ∈ xs, f x = .ok (g x)) :
    xs.mapM f = .ok (xs.map g) := by
  induction xs with
  | nil => rfl
  | cons x rest ih =>
    rw [mapM_cons,answers x mem_cons_self,ih (fun y member => answers y (mem_cons_of_mem _ member))]
    rfl

theorem sizes_tile (positive : 0 < total) (least : 1 ≤ chunk) (word : total + chunk < 2^63)
    (few : (total + chunk - 1) / chunk < 2^31) :
    ∃ sizes, (List.range (totalParts total chunk).toNat).mapM (fun k : Nat => expectedPartSize total chunk k) = .ok sizes ∧
      (∀ size ∈ sizes, 0 < size ∧ size ≤ chunk) ∧ sizes.sum = total := by
  have tiles := parts_tile positive least word few
  refine ⟨_,mapM_ok (fun k member => expectedPartSize_inside (mem_range.mp member)),?_,?_⟩
  · intro size member
    obtain ⟨k,inside,rfl⟩ := mem_map.mp member
    exact ⟨tiles.positive (mem_map_of_mem inside),min_le_left _ _⟩
  · have sum := tiles.total
    rw [Int.zero_add,map_map] at sum
    exact sum

end Tiles

section Writing
variable {session : SessionRow} {dir : WorkDir} {writes : List (Nat × List UInt8)} {count : Nat}

theorem appendParts_source (dir : WorkDir) (total chunkSize : Int) (inside : ∀ write ∈ writes, write.1 * chunkSize < total) :
    (appendParts dir chunkSize writes).source.getD [] =
      SparseFile.writeAll 0 (fun k => (edge total chunkSize k).toNat) (dir.source.getD []) writes := by
  induction writes generalizing dir with
  | nil => rfl
  | cons write rest ih =>
    have start : edge total chunkSize write.1 = write.1 * chunkSize :=
      min_eq_left (Int.le_of_lt (inside write mem_cons_self))
    have later := ih (appendPartToSource dir write.1 chunkSize write.2) (fun other member => inside other (mem_cons_of_mem _ member))
    simpa [appendParts,SparseFile.writeAll,start,appendPartToSource] using later

theorem appendParts_some (dir : WorkDir) (chunkSize : Int) (written : dir.source.isSome ∨ writes ≠ []) :
    (appendParts dir chunkSize writes).source.isSome := by
  induction writes generalizing dir with
  | nil => simpa [appendParts] using written
  | cons write rest ih => exact ih _ (.inl rfl)

theorem copyParts_ok {parts : KeyMap Nat (List UInt8)} {body : Nat → List UInt8} {numbers : List Nat} (out : List UInt8)
    (present : ∀ k ∈ numbers, parts.get k = some (body k)) :
    copyParts parts out numbers = (.ok (),out ++ numbers.flatMap body) := by
  induction numbers generalizing out with
  | nil => simp [copyParts]
  | cons k rest ih =>
    simp only [copyParts,present k mem_cons_self]
    rw [ih (out ++ body k) (fun j member => present j (mem_cons_of_mem _ member)),flatMap_cons,append_assoc]

-- Positive sizes below 2^63, and parts that i32 counts.
structure Chunked (session : SessionRow) : Prop where
  positive : 0 < session.totalSize
  least : 1 ≤ session.chunkSize
  word : session.totalSize + session.chunkSize < 2^63
  few : (session.totalSize + session.chunkSize - 1) / session.chunkSize < 2^31

theorem Chunked.begins (chunked : Chunked session) (k : Nat) :
    k < (totalParts session.totalSize session.chunkSize).toNat ↔ k * session.chunkSize < session.totalSize :=
  begins_iff chunked.positive chunked.least chunked.word chunked.few

theorem Chunked.edge_last (chunked : Chunked session) :
    edge session.totalSize session.chunkSize (totalParts session.totalSize session.chunkSize).toNat = session.totalSize :=
  edge_end (fun less => Nat.lt_irrefl _ ((chunked.begins _).mpr less))

-- Each write is a part of the size that expected_part_size gives it, and none is left out.
structure Covering (session : SessionRow) (writes : List (Nat × List UInt8)) : Prop where
  sized : ∀ write ∈ writes, expectedPartSize session.totalSize session.chunkSize write.1 = .ok write.2.length
  covered : ∀ k < (totalParts session.totalSize session.chunkSize).toNat, ∃ write ∈ writes, write.1 = k

section
variable (chunked : Chunked session)
include chunked

section
variable (covering : Covering session writes)
include covering

theorem Covering.fits (write : Nat × List UInt8) (member : write ∈ writes) :
    SparseFile.Fits (fun k => (edge session.totalSize session.chunkSize k).toNat)
      (totalParts session.totalSize session.chunkSize).toNat write := by
  obtain ⟨_,below,size⟩ := expectedPartSize_ok (covering.sized write member)
  have inside : write.1 < (totalParts session.totalSize session.chunkSize).toNat := by omega
  have begins := (chunked.begins _).mp inside
  have next := edge_succ begins
  have start : edge session.totalSize session.chunkSize write.1 = write.1 * session.chunkSize := min_eq_left (Int.le_of_lt begins)
  have origin : 0 ≤ (write.1 : Int) * session.chunkSize := Int.mul_nonneg (Int.natCast_nonneg _) (Int.le_trans (by decide) chunked.least)
  have least := chunked.least
  refine ⟨inside,fun empty => ?_,?_⟩
  · rw [empty,length_nil] at size
    omega
  · dsimp only
    omega

-- The spool file is the parts in index order, whatever order they came in.
theorem appendParts_concatenated (fresh : dir.source = none) :
    (appendParts dir session.chunkSize writes).source =
      some (concatenated (totalParts session.totalSize session.chunkSize).toNat writes) := by
  have begins : ∀ write ∈ writes, write.1 * session.chunkSize < session.totalSize :=
    fun write member => (chunked.begins _).mp (covering.fits chunked write member).1
  have source := appendParts_source dir session.totalSize session.chunkSize begins
  have first := edge_zero session.chunkSize chunked.positive
  have pieces : SparseFile.writeAll 0 (fun k => (edge session.totalSize session.chunkSize k).toNat) (dir.source.getD []) writes = _ :=
    SparseFile.writeAll_flatMap (by rw [first]; rfl) (edge_mono chunked.least) (covering.fits chunked) covering.covered
      (by rw [fresh]; exact Nat.zero_le _)
  have some_write : writes ≠ [] := by
    obtain ⟨write,member,_⟩ := covering.covered 0 ((chunked.begins 0).mpr (by simpa using chunked.positive))
    exact ne_nil_of_mem member
  obtain ⟨bytes,found⟩ := Option.isSome_iff_exists.mp (appendParts_some dir session.chunkSize (.inr some_write))
  rw [found,Option.getD_some] at source
  rw [found,source,pieces]
  rfl

theorem length_concatenated :
    ((concatenated (totalParts session.totalSize session.chunkSize).toNat writes).length : Int) = session.totalSize := by
  have first := edge_zero session.chunkSize chunked.positive
  have length : (concatenated (totalParts session.totalSize session.chunkSize).toNat writes).length = _ :=
    SparseFile.length_pieces (by rw [first]; rfl) (covering.fits chunked) covering.covered
  rw [length,chunked.edge_last]
  exact Int.toNat_of_nonneg (Int.le_of_lt chunked.positive)

end

theorem Chunked.checked {bytes : List UInt8} (length : (bytes.length : Int) = session.totalSize)
    (message : String) (dir : WorkDir) :
    (if asI64 bytes.length ≠ session.totalSize then ((.error (.badRequest message),dir) : Except AppError Nat × WorkDir)
      else (.ok bytes.length,dir)) = (.ok session.totalSize.toNat,dir) := by
  have positive := chunked.positive
  have word := chunked.word
  have least := chunked.least
  have cast : asI64 session.totalSize = session.totalSize := Int.bmod_eq_of_le (by omega) (by omega)
  have size : bytes.length = session.totalSize.toNat := by omega
  rw [if_neg (by rw [length,cast]; exact fun other => other rfl),size]

theorem reassembles (covering : Covering session writes) (fresh : dir.source = none) :
    resolveSessionSource session (appendParts dir session.chunkSize writes) =
      (.ok session.totalSize.toNat,appendParts dir session.chunkSize writes) := by
  rw [resolveSessionSource,appendParts_concatenated chunked covering fresh]
  exact chunked.checked (length_concatenated chunked covering) _ _

theorem legacy_merges (covering : Covering session writes) (fresh : dir.source = none)
    (spooled : ∀ k < (totalParts session.totalSize session.chunkSize).toNat, dir.parts.get k = SparseFile.latest k writes) :
    resolveSessionSource session dir = (.ok session.totalSize.toNat,
      {dir with source := some (concatenated (totalParts session.totalSize session.chunkSize).toNat writes)}) := by
  have present : ∀ k ∈ List.range (totalParts session.totalSize session.chunkSize).toNat,
      dir.parts.get k = some ((SparseFile.latest k writes).getD []) := by
    intro k member
    have inside := mem_range.mp member
    obtain ⟨body,found⟩ := Option.isSome_iff_exists.mp (SparseFile.latest_isSome.mpr (covering.covered k inside))
    rw [spooled k inside,found,Option.getD_some]
  have copied : copyParts dir.parts [] (List.range (totalParts session.totalSize session.chunkSize).toNat) =
      (.ok (),concatenated (totalParts session.totalSize session.chunkSize).toNat writes) := copyParts_ok [] present
  have some_part : totalParts session.totalSize session.chunkSize ≠ 0 := by
    have inside := (chunked.begins 0).mpr (by simpa using chunked.positive)
    omega
  rw [resolveSessionSource,fresh]
  dsimp only
  rw [assembleSessionPartsFromLegacyParts,if_neg some_part,copied]
  exact chunked.checked (length_concatenated chunked covering) _ _

end

end Writing

theorem chunks_reassemble (session : SessionRow) (positive : 0 < session.totalSize) (least : 1 ≤ session.chunkSize)
    (word : session.totalSize + session.chunkSize < 2^63)
    (few : (session.totalSize + session.chunkSize - 1) / session.chunkSize < 2^31) :
    (∃ sizes, (List.range (totalParts session.totalSize session.chunkSize).toNat).mapM
        (fun k : Nat => expectedPartSize session.totalSize session.chunkSize k) = .ok sizes ∧
      (∀ size ∈ sizes, 0 < size ∧ size ≤ session.chunkSize) ∧ sizes.sum = session.totalSize) ∧
    ∀ (dir : WorkDir) (writes : List (Nat × List UInt8)), dir.source = none →
      (∀ write ∈ writes, expectedPartSize session.totalSize session.chunkSize write.1 = .ok write.2.length) →
      (∀ k < (totalParts session.totalSize session.chunkSize).toNat, ∃ write ∈ writes, write.1 = k) →
      (appendParts dir session.chunkSize writes).source =
        some (concatenated (totalParts session.totalSize session.chunkSize).toNat writes) ∧
      resolveSessionSource session (appendParts dir session.chunkSize writes) =
        (.ok session.totalSize.toNat,appendParts dir session.chunkSize writes) ∧
      ∀ old : WorkDir, old.source = none →
        (∀ k < (totalParts session.totalSize session.chunkSize).toNat, old.parts.get k = SparseFile.latest k writes) →
        resolveSessionSource session old =
          (.ok session.totalSize.toNat,{old with source := (appendParts dir session.chunkSize writes).source}) := by
  have chunked : Chunked session := ⟨positive,least,word,few⟩
  refine ⟨sizes_tile positive least word few,?_⟩
  intro dir writes fresh sized covered
  have covering : Covering session writes := ⟨sized,covered⟩
  have written := appendParts_concatenated chunked covering fresh
  refine ⟨written,reassembles chunked covering fresh,?_⟩
  intro old bare spooled
  rw [written]
  exact legacy_merges chunked covering bare spooled

def fiveBytes : SessionRow := insertSession 0 "session" "user" "user" false 5 2 none

theorem five_bytes_reassemble :
    (resolveSessionSource fiveBytes (appendParts ⟨none,KeyMap.empty⟩ 2 [(2,[5]),(0,[9,9]),(1,[3,4]),(0,[1,2])])).2.source =
      some (concatenated 3 [(2,[5]),(0,[9,9]),(1,[3,4]),(0,[1,2])]) := by
  obtain ⟨_,parts⟩ := chunks_reassemble fiveBytes (by decide) (by decide) (by decide) (by decide)
  obtain ⟨written,whole,_⟩ := parts ⟨none,KeyMap.empty⟩ [(2,[5]),(0,[9,9]),(1,[3,4]),(0,[1,2])] rfl (by decide) (by decide)
  have resolved : (resolveSessionSource fiveBytes (appendParts ⟨none,KeyMap.empty⟩ 2 [(2,[5]),(0,[9,9]),(1,[3,4]),(0,[1,2])])).2 = _ :=
    congrArg Prod.snd whole
  rw [resolved]
  exact written

end Ownly.Uploads.Assemble
