import Ownly.Lib.KeyMap
import Mathlib

-- frontend/src/lib/spreadsheet/xlsx-ooxml.ts: readXlsxZipEntries and writeXlsxZipEntries.
namespace Ownly.Sheets.ZipEntries
open List

abbrev Bytes := List UInt8

abbrev Entry := Sigma fun _ : String => Bytes

-- Its deflate streams, TextDecoder and TextEncoder.
structure Browser where
  inflateRaw : Bytes → Bytes
  deflateRaw : Bytes → Bytes
  decode : Bytes → String
  encode : String → Bytes

-- What setUint16 and setUint32 write with `littleEndian`, and what getUint16 and getUint32 read.
def little : Nat → Nat → Bytes
  | 0,_ => []
  | size + 1,value => UInt8.ofNat value :: little size (value / 256)

def subarray (data : Bytes) (start stop : Nat) : Bytes := (data.drop start).take (stop - start)

def uint (data : Bytes) (offset size : Nat) : Nat :=
  (subarray data offset (offset + size)).foldr (fun byte rest => byte.toNat + 256 * rest) 0

def readFrom (browser : Browser) (data : Bytes) : Nat → Nat → KeyMap String Bytes → KeyMap String Bytes
  | 0,_,entries => entries
  | turns + 1,offset,entries =>
    if offset + 30 ≤ data.length ∧ subarray data offset (offset + 4) = [0x50,0x4b,0x03,0x04] then
      let method := uint data (offset + 8) 2
      let compressedSize := uint data (offset + 18) 4
      let nameStart := offset + 30
      let nameLength := uint data (offset + 26) 2
      let name := browser.decode (subarray data nameStart (nameStart + nameLength))
      let dataStart := nameStart + nameLength + uint data (offset + 28) 2
      let compressed := subarray data dataStart (dataStart + compressedSize)
      readFrom browser data turns (dataStart + compressedSize)
        (if method = 0 then entries.set name compressed
         else if method = 8 then entries.set name (browser.inflateRaw compressed)
         else entries)
    else entries

-- A turn passes thirty bytes at least.
def readXlsxZipEntries (browser : Browser) (data : Bytes) : KeyMap String Bytes :=
  readFrom browser data data.length 0 KeyMap.empty

def crcBit (crc : UInt32) : UInt32 := (crc >>> 1) ^^^ (0xedb88320 &&& (0 - (crc &&& 1)))

def crc32 (data : Bytes) : UInt32 :=
  data.foldl (fun crc byte => (List.range 8).foldl (fun crc _ => crcBit crc) (crc ^^^ byte.toUInt32)) 0xffffffff ^^^ 0xffffffff

def localPart (browser : Browser) (entry : Entry) : Bytes :=
  let compressed := browser.deflateRaw entry.2
  let nameBytes := browser.encode entry.1
  little 4 0x04034b50 ++ little 4 0 ++ little 2 8 ++ little 4 0 ++ little 4 (crc32 entry.2).toNat ++
    little 4 compressed.length ++ little 4 entry.2.length ++ little 2 nameBytes.length ++ little 2 0 ++ nameBytes ++ compressed

def centralPart (browser : Browser) (offset : Nat) (entry : Entry) : Bytes :=
  let nameBytes := browser.encode entry.1
  little 4 0x02014b50 ++ little 6 0 ++ little 2 8 ++ little 4 0 ++ little 4 (crc32 entry.2).toNat ++
    little 4 (browser.deflateRaw entry.2).length ++ little 4 entry.2.length ++ little 2 nameBytes.length ++ little 12 0 ++
    little 4 offset ++ nameBytes

def endRecord (count centralSize centralStart : Nat) : Bytes :=
  little 4 0x06054b50 ++ little 4 0 ++ little 2 count ++ little 2 count ++ little 4 centralSize ++ little 4 centralStart ++ little 2 0

-- The loop over the entries: `localParts`, `centralParts`, and where `offset` ends.
def parts (browser : Browser) (offset : Nat) : List Entry → List Bytes × List Bytes × Nat
  | [] => ([],[],offset)
  | entry :: rest =>
    let part := localPart browser entry
    let (localParts,centralParts,stop) := parts browser (offset + part.length) rest
    (part :: localParts,centralPart browser offset entry :: centralParts,stop)

def lengths (parts : List Bytes) : Nat := (parts.map List.length).sum

-- `output` is made of zeros and then written from its start on.
def writeXlsxZipEntries (browser : Browser) (entries : KeyMap String Bytes) : Bytes :=
  let (localParts,centralParts,offset) := parts browser 0 entries.entries
  let totalLength := offset + lengths localParts + lengths centralParts + 22
  let written := localParts.flatten ++ centralParts.flatten ++ endRecord entries.entries.length (lengths centralParts) offset
  written ++ List.replicate (totalLength - written.length) 0

variable {browser : Browser} {entries : List Entry} {offset : Nat}

-- The records of the files, one after the other, and the directory with the place of each of them.
def locals (browser : Browser) (entries : List Entry) : Bytes := entries.flatMap (localPart browser)

def directory (browser : Browser) (offset : Nat) : List Entry → Bytes
  | [] => []
  | entry :: rest => centralPart browser offset entry ++ directory browser (offset + (localPart browser entry).length) rest

def archive (browser : Browser) (entries : List Entry) : Bytes :=
  locals browser entries ++ directory browser 0 entries ++
    endRecord entries.length (directory browser 0 entries).length (locals browser entries).length

@[simp] theorem little_length (size value : Nat) : (little size value).length = size := by
  induction size generalizing value with
  | zero => rfl
  | succ size ih => simp [little,ih]

theorem lengths_flatten (parts : List Bytes) : lengths parts = parts.flatten.length := by
  simp [lengths,List.length_flatten]

theorem parts_exact (offset : Nat) : (parts browser offset entries).1.flatten = locals browser entries ∧
    (parts browser offset entries).2.1.flatten = directory browser offset entries ∧
    (parts browser offset entries).2.2 = offset + (locals browser entries).length := by
  induction entries generalizing offset with
  | nil => exact ⟨rfl,rfl,rfl⟩
  | cons entry rest ih =>
    obtain ⟨files,central,stop⟩ := ih (offset + (localPart browser entry).length)
    simp [parts,locals,directory,files,central,stop,Nat.add_assoc]

theorem write_exact (m : KeyMap String Bytes) : writeXlsxZipEntries browser m =
    archive browser m.entries ++ List.replicate (locals browser m.entries).length 0 := by
  obtain ⟨files,central,stop⟩ := @parts_exact browser m.entries 0
  simp only [writeXlsxZipEntries,lengths_flatten,files,central,stop,Nat.zero_add]
  refine congrArg (archive browser m.entries ++ List.replicate · 0) ?_
  simp only [endRecord,length_append,little_length]
  omega

theorem locals_nil_iff : locals browser entries = [] ↔ entries = [] := by
  cases entries with
  | nil => simp [locals]
  | cons entry rest => simp [locals,localPart,little]

theorem write_archive_iff (m : KeyMap String Bytes) : writeXlsxZipEntries browser m = archive browser m.entries ↔ m.entries = [] := by
  rw [write_exact,append_right_eq_self,replicate_eq_nil_iff,length_eq_zero_iff,locals_nil_iff]

-- The archive ends with its end record only where there is no file: the length counts the files twice.
theorem archive_iff (browser : Browser) (m : KeyMap String Bytes) :
    (∀ name, (readXlsxZipEntries browser (writeXlsxZipEntries browser m)).get name = m.get name) ∧
      writeXlsxZipEntries browser m = archive browser m.entries ↔ m.entries = [] := by
  rw [write_archive_iff]
  refine ⟨And.right,fun none_ => ⟨?_,none_⟩⟩
  obtain ⟨_,_⟩ := m
  subst none_
  exact fun name => rfl

def plainBrowser : Browser := ⟨id,id,fun bytes => String.ofList (bytes.map (fun byte => Char.ofNat byte.toNat)),
  fun name => name.toList.map (fun c => UInt8.ofNat c.toNat)⟩

-- One empty file: 31 zeros follow the end record.
theorem archive_overlong : ¬∀ (browser : Browser) (m : KeyMap String Bytes),
    (∀ bytes, browser.inflateRaw (browser.deflateRaw bytes) = bytes) → m.entries.length < 65536 →
    (archive browser m.entries).length < 4294967296 →
    (∀ name, (readXlsxZipEntries browser (writeXlsxZipEntries browser m)).get name = m.get name) ∧
      writeXlsxZipEntries browser m = archive browser m.entries := by
  intro formed
  have both := formed plainBrowser (KeyMap.empty.set "a" []) (fun _ => rfl) (by decide) (by decide)
  exact absurd ((write_archive_iff _).mp both.2) (by decide)

end Ownly.Sheets.ZipEntries
