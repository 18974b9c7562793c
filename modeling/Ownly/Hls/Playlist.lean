import Ownly.Lib.KeyMap
import Ownly.Lib.Text
import Mathlib.Data.List.Infix

-- backend/src/hls/playlist.rs, and the sequence numbers of segment_crypto.rs: manifests as
-- ffmpeg writes them, as they are played back, and the keys of their segments.
namespace Ownly.Hls
open Text

def u32Max : Nat := 4294967295

def saturatingAdd (a b : Nat) : Nat := min (a + b) u32Max

def segmentSequenceFromFilename (name : Line) : Option Nat :=
  (stripSuffix ".m4s".toList name <|> stripSuffix ".ts".toList name).bind (parseUnsigned u32Max)

-- Twelve zeros and the u32 in big-endian bytes.
def hlsMediaSequenceIv (sequence : Nat) : List Nat :=
  List.replicate 12 0 ++ [sequence / 16777216 % 256,sequence / 65536 % 256,sequence / 256 % 256,sequence % 256]

-- `{byte:02x}`
def hexByte (byte : Nat) : Line := [Nat.digitChar (byte / 16),Nat.digitChar (byte % 16)]

def ivHexForHlsSequence (sequence : Nat) : Line := "0x".toList ++ (hlsMediaSequenceIv sequence).flatMap hexByte

def formatExtXKeyLine (keyUri : Line) (sequence : Nat) : Line :=
  "#EXT-X-KEY:METHOD=AES-128,URI=\"".toList ++ keyUri ++ "\",IV=".toList ++ ivHexForHlsSequence sequence

def compareNames (left right : Line) : Ordering := if left < right then .lt else if left = right then .eq else .gt

def compareSegmentPaths (left right : Line) : Ordering :=
  match segmentSequenceFromFilename (afterLast '/' left),segmentSequenceFromFilename (afterLast '/' right) with
  | some a,some b => if a ≠ b then compare a b else compareNames (afterLast '/' left) (afterLast '/' right)
  | _,_ => compareNames (afterLast '/' left) (afterLast '/' right)

-- What the manifests take from the standard library: durations in f64, and sort_by, which
-- permutes. The order it leaves is open where the comparison is no total order, as
-- compare_segment_paths is none on names with and without a number.
structure Std (D : Type) where
  parseDuration : Line → Option D
  showDuration : D → Line
  targetDuration : List D → Line
  hlsSegmentTargetSecs : D
  sortBy : (Line × D → Line × D → Ordering) → List (Line × D) → List (Line × D)
  sortBy_perm : ∀ order entries, (sortBy order entries).Perm entries

def startsWith (lead : String) (line : Line) : Bool := decide (lead.toList <+: line)

def extinf : Line → Bool := startsWith "#EXTINF:"

def extXKey : Line → Bool := startsWith "#EXT-X-KEY:"

-- Neither a tag or comment nor blank.
def isUri (line : Line) : Bool := !startsWith "#" line && decide (trim line ≠ [])

-- `rsplit('/').next().filter(|s| !s.is_empty()).unwrap_or(path)`
def segmentName (path : Line) : Line := if afterLast '/' path = [] then path else afterLast '/' path

def hlsInitFilename : Line := "init.mp4".toList

section manifest
variable {D : Type} (std : Std D)

def extinfDuration (line : Line) : Option D :=
  std.parseDuration (trim ((trimStartMatches "#EXTINF:".toList line.length line).takeWhile (fun c => decide (c ≠ ','))))

-- The walk over the lines; `pending` is the duration of the EXTINF whose URI is looked
-- for, and is only set while there is one to come.
def pairs : Option D → List Line → Option (List (Line × D))
  | _,[] => some []
  | none,line :: rest =>
    if extinf line then (extinfDuration std line).bind (fun duration =>
      if rest.any isUri then pairs (some duration) rest else pairs none rest)
    else pairs none rest
  | some duration,line :: rest =>
    if isUri line then
      if segmentName (trim line) ≠ hlsInitFilename then (pairs none rest).map (fun entries => (trim line,duration) :: entries)
      else pairs none rest
    else pairs (some duration) rest

def sortPaths (entries : List (Line × D)) : List (Line × D) :=
  std.sortBy (fun left right => compareSegmentPaths left.1 right.1) entries

def parseSegmentManifest (content : List Char) : Option (List Line × List D) :=
  (pairs std none (lines content)).map (fun entries =>
    ((sortPaths std entries).map Prod.fst,(sortPaths std entries).map Prod.snd))

def parseMediaSequence (content : List Char) : Nat :=
  match (lines content).findSome? (stripPrefix "#EXT-X-MEDIA-SEQUENCE:".toList) with
  | some rest => (parseUnsigned u32Max (trim rest)).getD 0
  | none => 0

def sequencesFrom (base : Nat) : Nat → List Line → KeyMap Line Nat → KeyMap Line Nat
  | _,[],map => map
  | index,path :: rest,map =>
    if segmentName path = hlsInitFilename then sequencesFrom base index rest map
    else sequencesFrom base (saturatingAdd index 1) rest
      (map.set (segmentName path) ((segmentSequenceFromFilename (segmentName path)).getD (saturatingAdd base index)))

def segmentAesSequenceMap (content : List Char) : Option (KeyMap Line Nat) :=
  (parseSegmentManifest std content).map (fun manifest => sequencesFrom (parseMediaSequence content) 0 manifest.1 KeyMap.empty)

def injectLines (keyUri : Line) (seqMap : KeyMap Line Nat) : List Line → Option (List Line)
  | [] => some []
  | line :: rest =>
    if extXKey line then injectLines keyUri seqMap rest
    else if extinf line then
      match rest.find? isUri with
      | some uri =>
        if segmentName (trim uri) ≠ hlsInitFilename then
          (segmentSequenceFromFilename (segmentName (trim uri)) <|> seqMap.get (segmentName (trim uri))).bind (fun sequence =>
            (injectLines keyUri seqMap rest).map (fun out => formatExtXKeyLine keyUri sequence :: line :: out))
        else (injectLines keyUri seqMap rest).map (fun out => line :: out)
      | none => (injectLines keyUri seqMap rest).map (fun out => line :: out)
    else (injectLines keyUri seqMap rest).map (fun out => line :: out)

def injectPerSegmentAes128Keys (content : List Char) (keyUri : Line) : Option (List Line) :=
  (segmentAesSequenceMap std content).bind (fun seqMap => injectLines keyUri seqMap (lines content))

def normalizeSegmentRelPath (path : Line) : Line :=
  if '/' ∈ trim path then trim path else "segments/".toList ++ trim path

def normalizePlaybackSegmentBasename (name : Line) (preferFmp4 : Bool) : Line :=
  if preferFmp4 then
    match stripSuffix ".ts".toList name with
    | some stem => stem ++ ".m4s".toList
    | none => name
  else name

def normalizeSegmentRelPathForPlayback (path : Line) (preferFmp4 : Bool) : Line :=
  if preferFmp4 then
    match rsplitOnce '/' (normalizeSegmentRelPath path) with
    | some (dir,base) => dir ++ '/' :: normalizePlaybackSegmentBasename base true
    | none => normalizePlaybackSegmentBasename (normalizeSegmentRelPath path) true
  else normalizeSegmentRelPath path

def playlistUsesFmp4 (content : List Char) : Bool :=
  decide ("#EXT-X-MAP:".toList <:+: content) || decide (".m4s".toList <:+: content)

-- `durations.chain(repeat(HLS_SEGMENT_TARGET_SECS))`
def zipPadded (duration : D) : List Line → List D → List (Line × D)
  | [],_ => []
  | file :: files,[] => (file,duration) :: zipPadded duration files []
  | file :: files,first :: rest => (file,first) :: zipPadded duration files rest

def segmentUri (baseUrl file : Line) : Line :=
  if '/' ∈ file then baseUrl ++ '/' :: file else baseUrl ++ "/segments/".toList ++ file

def segmentLines (baseUrl keyUri : Line) (entry : Line × D) : List Line :=
  [formatExtXKeyLine keyUri ((segmentSequenceFromFilename (segmentName entry.1)).getD 0),
   "#EXTINF:".toList ++ std.showDuration entry.2 ++ ",".toList,segmentUri baseUrl entry.1]

def headLines (durations : List D) (initUri : Line) (fmp4 : Bool) : List Line :=
  ["#EXTM3U".toList,"#EXT-X-VERSION:".toList ++ (if fmp4 then "7".toList else "3".toList),
   "#EXT-X-PLAYLIST-TYPE:VOD".toList,"#EXT-X-TARGETDURATION:".toList ++ std.targetDuration durations,
   "#EXT-X-MEDIA-SEQUENCE:0".toList] ++
  if fmp4 then ["#EXT-X-MAP:URI=\"".toList ++ initUri ++ "\"".toList] else []

def generate (baseUrl : Line) (segmentFiles : List Line) (segmentDurations : List D) (keyUri initUri : Line) (fmp4 : Bool) : List Line :=
  headLines std ((sortPaths std (zipPadded std.hlsSegmentTargetSecs segmentFiles segmentDurations)).map Prod.snd) initUri fmp4 ++
  (sortPaths std (zipPadded std.hlsSegmentTargetSecs segmentFiles segmentDurations)).flatMap (segmentLines std baseUrl keyUri) ++
  ["#EXT-X-ENDLIST".toList]

def rewriteStoredPlaylist (content : List Char) (baseUrl keyUri initUri : Line) (preferFmp4 : Bool) : Option (List Line) :=
  (parseSegmentManifest std content).bind (fun (files,durations) =>
    if files = [] ∨ files.length ≠ durations.length then none
    else some (generate std baseUrl
      (files.map (fun path => normalizeSegmentRelPathForPlayback path (preferFmp4 || playlistUsesFmp4 content))) durations
      keyUri initUri (preferFmp4 || playlistUsesFmp4 content)))

-- `Path::extension`: none for a name that is all extension.
def extension (name : Line) : Option Line :=
  (rsplitOnce '.' name).bind (fun (stem,tail) => if stem = [] then none else some tail)

-- The sequence that encrypt_hls_segments_dir encrypts a file of the directory with; none
-- for a file it passes over and for one it finds no sequence for.
def encryptSequence (content : List Char) (name : Line) : Option Nat :=
  (segmentAesSequenceMap std content).bind (fun seqMap =>
    if extension name = some "m4s".toList then segmentSequenceFromFilename name <|> seqMap.get name else none)

end manifest

end Ownly.Hls
