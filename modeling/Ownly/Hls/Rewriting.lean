import Ownly.Hls.SegmentOrder
import Ownly.Lib.Digits
import Mathlib.Data.Rat.Floor
import Mathlib.Data.List.Fold

-- rewrite_stored_playlist as a whole: the segments, durations and keys of the playlist it
-- writes, as parse_segment_manifest reads them.
namespace Ownly.Hls
open Text
open List

structure Segment (D : Type) where
  before : List Line
  text : Line
  title : Line
  between : List Line
  uri : Line
  duration : D

def i32Max : Nat := 2147483647

def thousandths (k : Nat) : Line := Nat.toDigits 10 (k / 1000) ++ '.' :: Digits.padded 3 (k % 1000)

-- What f64 makes of whole milliseconds: three decimals are enough to read one of them again. The
-- target duration is cast to an i32.
structure Std.Measures {D : Type} (std : Std D) (seconds : D → Rat) : Prop where
  printed : ∀ k duration, std.parseDuration (thousandths k) = some duration →
    std.parseDuration (std.showDuration duration) = some duration ∧
    ∀ c ∈ std.showDuration duration, c ≠ ',' ∧ c ≠ '#' ∧ isWhitespace c = false
  target : ∀ durations, std.targetDuration durations =
    Nat.toDigits 10 (min ((durations.map seconds).foldl max 0).ceil.toNat i32Max)

def fileNumber (name : Line) : Option Nat :=
  (stripSuffix ".m4s".toList name <|> stripSuffix ".ts".toList name).bind (fun digits =>
    if digits = [] then none else parseDigits 0 digits)

def Increasing (left right : Line) : Prop :=
  ∃ n m, fileNumber (basename left) = some n ∧ fileNumber (basename right) = some m ∧ n < m

section
variable {D : Type}

def Segment.lines (segment : Segment D) : List Line :=
  segment.before ++ ("#EXTINF:".toList ++ (segment.text ++ ',' :: segment.title)) :: (segment.between ++ [segment.uri])

def Segment.Reads (std : Std D) (segment : Segment D) : Prop :=
  (∀ line ∈ segment.before, extinf line = false) ∧ (∀ c ∈ segment.text, c ≠ ',' ∧ c ≠ '#') ∧ std.parseDuration (trim segment.text) = some segment.duration ∧
  (∃ k, std.parseDuration (thousandths k) = some segment.duration) ∧
  (∀ line ∈ segment.between, isUri line = false) ∧ isUri segment.uri = true

def Segment.isMedia (segment : Segment D) : Bool := decide (segmentName (trim segment.uri) ≠ hlsInitFilename)

def media (segments : List (Segment D)) : List (Segment D) := segments.filter Segment.isMedia

def Segment.entry (segment : Segment D) : Line × D := (trim segment.uri,segment.duration)

def playback (fmp4 : Bool) (entry : Line × D) : Line × D := (normalizeSegmentRelPathForPlayback entry.1 fmp4,entry.2)

def rebase (baseUrl : Line) (entry : Line × D) : Line × D := (segmentUri baseUrl entry.1,entry.2)

-- A text with these lines has the segments, each once and in the order of their numbers.
structure Preserves (std : Std D) (seconds : D → Rat) (baseUrl keyUri : Line) (fmp4 : Bool) (segments : List (Segment D))
    (out : List Line) : Prop where
  manifest : ∀ text, lines text = out → ∃ files durations, parseSegmentManifest std text = some (files,durations) ∧
    files.length = durations.length ∧ (files.zip durations).Perm (segments.map (fun s => rebase baseUrl (playback fmp4 s.entry))) ∧
    files.Pairwise Increasing ∧
    keyed none false out = files.map (fun file =>
      (file,some (formatExtXKeyLine keyUri ((segmentSequenceFromFilename (basename file)).getD 0))))
  target : ∃ t : Nat, "#EXT-X-TARGETDURATION:".toList ++ Nat.toDigits 10 t ∈ out ∧ ∀ s ∈ segments, seconds s.duration ≤ t

def Distinct (segments : List (Segment D)) : Prop :=
  segments.Pairwise (fun a b => fileNumber (basename (trim a.uri)) ≠ fileNumber (basename (trim b.uri)))

-- What is asked of a rewriting: of all playlists with segments that are numbered and as long as this.
def Rewrites (std : Std D) (seconds : D → Rat) (fits : Nat → Prop) (short : Rat → Prop) : Prop :=
  ∀ (stored : List (Segment D)) (rest : List Line) (content : List Char) (base keyUri initUri : Line) (preferFmp4 : Bool),
    lines content = stored.flatMap Segment.lines ++ rest → (∀ s ∈ stored, s.Reads std) → (∀ line ∈ rest, extinf line = false) → media stored ≠ [] →
    (∀ s ∈ media stored, short (seconds s.duration) ∧ ∃ n, fits n ∧ fileNumber (basename (trim s.uri)) = some n) → Distinct (media stored) →
    ∃ out, rewriteStoredPlaylist std content ('/' :: base) keyUri initUri preferFmp4 = some out ∧
      Preserves std seconds ('/' :: base) keyUri (preferFmp4 || playlistUsesFmp4 content) (media stored) out

variable {std : Std D} {seconds : D → Rat} {stored : List (Segment D)} {s : Segment D} {rest out : List Line} {text line name : Line} {duration : D} {n : Nat}
  {entries : List (Line × D)} {baseUrl keyUri : Line}

theorem extinfDuration_read (plain : ∀ c ∈ text, c ≠ ',' ∧ c ≠ '#') (title : Line) :
    extinfDuration std ("#EXTINF:".toList ++ (text ++ ',' :: title)) = std.parseDuration (trim text) := by
  have other : ¬"#EXTINF:".toList <+: text ++ ',' :: title := by
    rintro ⟨tail,same⟩
    cases text with
    | nil => cases same
    | cons c text => exact (plain c mem_cons_self).2 (List.cons.inj same).1.symm
  have stays : ∀ fuel, trimStartMatches "#EXTINF:".toList fuel (text ++ ',' :: title) = text ++ ',' :: title := by
    intro fuel
    cases fuel with
    | zero => rfl
    | succ fuel => rw [trimStartMatches,stripPrefix,if_neg other]
  have front : (text ++ ',' :: title).takeWhile (fun c => decide (c ≠ ',')) = text := by
    rw [takeWhile_append_of_pos (fun c member => decide_eq_true (plain c member).1),takeWhile_cons_of_neg (by simp),append_nil]
  obtain ⟨fuel,long⟩ : ∃ fuel, ("#EXTINF:".toList ++ (text ++ ',' :: title)).length = fuel + 1 :=
    Nat.exists_eq_add_one_of_ne_zero (by simp)
  rw [extinfDuration,long,trimStartMatches,stripPrefix,if_pos (prefix_append _ _),drop_left]
  dsimp only
  rw [stays,front]

theorem pairs_gap {between : List Line} (quiet : ∀ line ∈ between, isUri line = false) :
    pairs std (some duration) (between ++ rest) = pairs std (some duration) rest := by
  induction between with
  | nil => rfl
  | cons line between ih =>
    rw [cons_append,pairs,if_neg (by simp [quiet line mem_cons_self])]
    exact ih (fun other member => quiet other (mem_cons_of_mem _ member))

theorem pairs_heads {heads : List Line} (quiet : ∀ line ∈ heads, extinf line = false) :
    pairs std none (heads ++ rest) = pairs std none rest := by
  induction heads with
  | nil => rfl
  | cons line heads ih =>
    rw [cons_append,pairs,quiet line mem_cons_self]
    exact ih (fun other member => quiet other (mem_cons_of_mem _ member))

theorem pairs_segment (reads : s.Reads std) : pairs std none (s.lines ++ rest) =
    (pairs std none rest).map (fun entries => (if s.isMedia then [s.entry] else []) ++ entries) := by
  obtain ⟨before,plain,read,-,quiet,uri⟩ := reads
  have timed : extinf ("#EXTINF:".toList ++ (s.text ++ ',' :: s.title)) = true := startsWith_iff.mpr (prefix_append _ _)
  have shown : (s.between ++ [s.uri] ++ rest).any isUri = true := by simp [uri]
  rw [Segment.lines,append_assoc,pairs_heads before,cons_append,pairs,if_pos timed,extinfDuration_read plain,read,Option.bind_some,
    if_pos shown,append_assoc,pairs_gap quiet,singleton_append,pairs,if_pos uri]
  unfold Segment.isMedia
  split
  · rename_i media
    simp [media,Segment.entry]
  · rename_i init
    simp [not_not.mp init]

theorem pairs_stored (fine : ∀ s ∈ stored, s.Reads std) (quiet : ∀ line ∈ rest, extinf line = false) :
    pairs std none (stored.flatMap Segment.lines ++ rest) = some ((media stored).map Segment.entry) := by
  induction stored with
  | nil => exact (congrArg (pairs std none) (append_nil rest).symm).trans (pairs_heads quiet)
  | cons s stored ih =>
    have later := ih (fun other member => fine other (mem_cons_of_mem _ member))
    rw [flatMap_cons,append_assoc,pairs_segment (fine s mem_cons_self),later]
    unfold media
    rw [filter_cons]
    split
    · rfl
    · rfl

theorem number_sequence (number : fileNumber name = some n) (small : n ≤ u32Max) : segmentSequenceFromFilename name = some n := by
  obtain ⟨digits,found,read⟩ := Option.bind_eq_some_iff.mp number
  rw [segmentSequenceFromFilename,found,Option.bind_some]
  split at read
  · cases read
  · rename_i some
    have unsigned : stripPlus digits = digits := by
      rw [stripPlus,if_neg]
      intro plus
      obtain ⟨tail,rfl⟩ := head?_eq_some_iff.mp plus
      cases read
    rw [parseUnsigned,unsigned,if_neg some,read,Option.filter_some,if_pos (decide_eq_true small)]

theorem stripSuffix_append (stem tail : Line) : stripSuffix tail (stem ++ tail) = some stem := by
  rw [stripSuffix,if_pos (suffix_append _ _),length_append,Nat.add_sub_cancel,take_left]

theorem playback_number (fmp4 : Bool) (number : fileNumber name = some n) :
    fileNumber (normalizePlaybackSegmentBasename name fmp4) = some n := by
  unfold normalizePlaybackSegmentBasename
  split
  · split
    · rename_i stem stripped
      have other : stripSuffix ".m4s".toList name = none := by
        rw [stripSuffix,if_neg]
        rintro ⟨front,same⟩
        have both := congrArg List.reverse (same.trans (stripSuffix_some stripped))
        rw [reverse_append,reverse_append] at both
        cases both
      rw [fileNumber,other,stripped] at number
      rw [fileNumber,stripSuffix_append]
      exact number
    · exact number
  · exact number

theorem sortPaths_increasing (sorts : std.Sorts)
    (numbered : ∀ entry ∈ entries, ∃ n ≤ u32Max, fileNumber (basename entry.1) = some n)
    (distinct : entries.Pairwise (fun a b => fileNumber (basename a.1) ≠ fileNumber (basename b.1))) :
    (sortPaths std entries).Pairwise (fun a b => Increasing a.1 b.1) := by
  have perm := std.sortBy_perm (fun left right => compareSegmentPaths left.1 right.1) entries
  have apart : Apart (basename '' {path | ∃ n ≤ u32Max, fileNumber (basename path) = some n}) := by
    rintro _ - _ - _ ⟨path,⟨n,small,number⟩,rfl⟩ x y - - none
    rw [number_sequence number small] at none
    cases none
  have sorted : ((sortPaths std entries).map (fun entry => basename entry.1)).Pairwise NotAfter :=
    sortPaths_ordered sorts (total_of_apart apart) numbered
  have ordered := pairwise_map.mp sorted
  have strict := (perm.pairwise_iff (fun differ => Ne.symm differ)).mpr distinct
  refine (ordered.and strict).imp_of_mem ?_
  rintro a b left right ⟨before,differ⟩
  obtain ⟨n,small,number⟩ := numbered a (perm.mem_iff.mp left)
  obtain ⟨m,small',number'⟩ := numbered b (perm.mem_iff.mp right)
  unfold NotAfter at before
  rw [number_sequence number small,number_sequence number' small'] at before
  rw [number,number'] at differ
  exact ⟨n,m,number,number',by grind⟩

-- An entry that reads as itself once it is written.
structure Readable (std : Std D) (baseUrl : Line) (entry : Line × D) : Prop where
  number : ∃ n ≤ u32Max, fileNumber (basename entry.1) = some n ∧ fileNumber (basename (segmentUri baseUrl entry.1)) = some n
  uri : isUri (segmentUri baseUrl entry.1) = true
  trimmed : trim (segmentUri baseUrl entry.1) = segmentUri baseUrl entry.1
  whole : ∃ k, std.parseDuration (thousandths k) = some entry.2

theorem named {path : Line} (number : fileNumber (basename path) = some n) :
    segmentName path = basename path ∧ segmentName path ≠ hlsInitFilename := by
  have name : segmentName path = basename path := by
    rw [segmentName,if_neg]
    · rfl
    · intro none
      rw [basename,none] at number
      cases number
  refine ⟨name,?_⟩
  intro init
  rw [← name,init] at number
  cases number

theorem playback_readable {base : Line} (fmp4 : Bool) (reads : s.Reads std) (small : n ≤ u32Max)
    (number : fileNumber (basename (trim s.uri)) = some n) : Readable std ('/' :: base) (playback fmp4 s.entry) ∧
      fileNumber (basename (playback fmp4 s.entry).1) = some n := by
  obtain ⟨-,-,-,whole,-,shown⟩ := reads
  have ended : Ended (trim s.uri) := ⟨of_decide_eq_true (Bool.and_eq_true_iff.mp shown).2,trim_last⟩
  have trimmed : trim (trim s.uri) = trim s.uri := trim_trim
  obtain ⟨lead,path⟩ := playback_path fmp4 trimmed
  have last : Ended ('/' :: normalizePlaybackSegmentBasename (afterLast '/' (trim s.uri)) fmp4) := playback_ended ended
  have name := playback_number fmp4 number
  have clear : '/' ∉ normalizePlaybackSegmentBasename (afterLast '/' (trim s.uri)) fmp4 := playback_clear
  rw [basename] at name
  generalize normalizePlaybackSegmentBasename (afterLast '/' (trim s.uri)) fmp4 = file at path last name clear
  have whole_ : segmentUri ('/' :: base) (playback fmp4 s.entry).1 = ('/' :: base ++ '/' :: lead) ++ '/' :: file := by
    rw [segmentUri,playback,Segment.entry,path,if_pos (by simp)]
    simp
  have tail := last.behind ('/' :: base ++ '/' :: lead)
  have same : trim (('/' :: base ++ '/' :: lead) ++ '/' :: file) = ('/' :: base ++ '/' :: lead) ++ '/' :: file := by
    refine trim_ends ?_ tail.2
    intro c first
    cases first
    decide
  have own : fileNumber (basename (playback fmp4 s.entry).1) = some n := by
    rw [playback,Segment.entry,path,basename,afterLast_append clear,name]
  refine ⟨⟨⟨n,small,own,?_⟩,?_,?_,whole⟩,own⟩
  · rw [whole_,basename,afterLast_append clear,name]
  · rw [whole_]
    refine Bool.and_eq_true_iff.mpr ⟨rfl,decide_eq_true ?_⟩
    rw [same]
    exact tail.1
  · rw [whole_,same]

def written (std : Std D) (baseUrl keyUri : Line) (entry : Line × D) : Segment D :=
  ⟨[formatExtXKeyLine keyUri ((segmentSequenceFromFilename (segmentName entry.1)).getD 0)],std.showDuration entry.2,[],[],
   segmentUri baseUrl entry.1,entry.2⟩

theorem written_reads (measures : std.Measures seconds) {entry : Line × D} (readable : Readable std baseUrl entry) :
    (written std baseUrl keyUri entry).Reads std ∧ (written std baseUrl keyUri entry).isMedia = true ∧
      (written std baseUrl keyUri entry).entry = rebase baseUrl entry := by
  obtain ⟨⟨n,-,-,number⟩,uri,trimmed,k,whole⟩ := readable
  obtain ⟨again,plain⟩ := measures.printed k _ whole
  refine ⟨⟨?_,fun c inside => ⟨(plain c inside).1,(plain c inside).2.1⟩,?_,⟨k,whole⟩,by rintro _ (_ | _),uri⟩,decide_eq_true ?_,
    congrArg (·,entry.2) trimmed⟩
  · intro line member
    cases mem_singleton.mp member
    exact extXKey_extinf format_extXKey
  · change std.parseDuration (trim (std.showDuration entry.2)) = some entry.2
    rw [trim_ends (fun c first => (plain c (mem_of_mem_head? first)).2.2) (fun c last => (plain c (mem_of_getLast? last)).2.2)]
    exact again
  · change segmentName (trim (segmentUri baseUrl entry.1)) ≠ _
    rw [trimmed]
    exact (named number).2

theorem written_pairs (measures : std.Measures seconds)
    (readable : ∀ entry ∈ entries, Readable std baseUrl entry) :
    pairs std none (entries.flatMap (segmentLines std baseUrl keyUri) ++ ["#EXT-X-ENDLIST".toList]) = some (entries.map (rebase baseUrl)) := by
  have split : entries.flatMap (segmentLines std baseUrl keyUri) = (entries.map (written std baseUrl keyUri)).flatMap Segment.lines := by
    simp [flatMap_map,written,Segment.lines]
    rfl
  have all : media (entries.map (written std baseUrl keyUri)) = entries.map (written std baseUrl keyUri) := by
    refine filter_eq_self.mpr (fun s member => ?_)
    obtain ⟨entry,listed,rfl⟩ := mem_map.mp member
    exact (written_reads measures (readable entry listed)).2.1
  rw [split,pairs_stored (fun s member => ?_) (by simp; decide),all,map_map]
  · exact congrArg some (map_congr_left (fun entry member => (written_reads measures (readable entry member)).2.2))
  · obtain ⟨entry,listed,rfl⟩ := mem_map.mp member
    exact (written_reads measures (readable entry listed)).1

theorem le_foldl_max {values : List Rat} {value : Rat} (member : value ∈ values) : value ≤ values.foldl max 0 := by
  rw [foldl_eq_foldr]
  induction values with
  | nil => cases member
  | cons first rest ih =>
    rcases mem_cons.mp member with rfl | later
    · exact le_max_left _ _
    · exact (ih later).trans (le_max_right _ _)

theorem target_covers (measures : std.Measures seconds) (durations : List D) :
    ∃ t : Nat, std.targetDuration durations = Nat.toDigits 10 t ∧ ∀ duration ∈ durations, seconds duration ≤ i32Max → seconds duration ≤ t := by
  refine ⟨_,measures.target durations,?_⟩
  intro duration member small
  have listed : seconds duration ∈ durations.map seconds := mem_map_of_mem member
  generalize durations.map seconds = values at listed ⊢
  have whole : seconds duration ≤ (values.foldl max 0).ceil := (le_foldl_max listed).trans Rat.le_ceil
  have upward : (values.foldl max 0).ceil ≤ ((values.foldl max 0).ceil.toNat : Int) := Int.self_le_toNat _
  rw [Nat.cast_min]
  exact le_min (whole.trans (by exact_mod_cast upward)) small

theorem zipPadded_map (default : D) (f : Line → Line) (entries : List (Line × D)) :
    zipPadded default ((entries.map Prod.fst).map f) (entries.map Prod.snd) = entries.map (fun entry => (f entry.1,entry.2)) := by
  induction entries with
  | nil => rfl
  | cons entry rest ih => rw [map_cons,map_cons,map_cons,zipPadded,ih,map_cons]

theorem sortPaths_fixed (sorts : std.Sorts)
    (numbered : ∀ entry ∈ entries, ∃ n ≤ u32Max, fileNumber (basename entry.1) = some n)
    (increasing : entries.Pairwise (fun a b => Increasing a.1 b.1)) : sortPaths std entries = entries := by
  have apart : entries.Pairwise (fun a b => fileNumber (basename a.1) ≠ fileNumber (basename b.1)) := by
    refine increasing.imp ?_
    rintro a b ⟨n,m,number,number',less⟩ same
    rw [number,number'] at same
    cases same
    exact less.false
  refine List.Perm.eq_of_pairwise ?_ (sortPaths_increasing sorts numbered apart) increasing (std.sortBy_perm _ entries)
  rintro a b - - ⟨n,m,number,number',less⟩ ⟨m',n',again,again',more⟩
  rw [number] at again'
  rw [number'] at again
  cases again
  cases again'
  exact absurd less more.not_gt

theorem same_number {baseUrl : Line} (readable : ∀ entry ∈ entries, Readable std baseUrl entry)
    (increasing : entries.Pairwise (fun a b => Increasing a.1 b.1)) : (entries.map (rebase baseUrl)).Pairwise (fun a b => Increasing a.1 b.1) := by
  refine pairwise_map.mpr (increasing.imp_of_mem ?_)
  rintro a b left right ⟨n,m,number,number',less⟩
  obtain ⟨x,-,own,up⟩ := (readable a left).number
  obtain ⟨y,-,own',up'⟩ := (readable b right).number
  exact ⟨n,m,up.trans (own.symm.trans number),up'.trans (own'.symm.trans number'),less⟩

theorem generate_preserves (sorts : std.Sorts) (measures : std.Measures seconds) {base keyUri initUri : Line} {fmp4 : Bool}
    {segments : List (Segment D)} (perm : entries.Perm (segments.map (fun s => playback fmp4 s.entry)))
    (increasing : entries.Pairwise (fun a b => Increasing a.1 b.1)) (readable : ∀ entry ∈ entries, Readable std ('/' :: base) entry)
    (short : ∀ s ∈ segments, seconds s.duration ≤ i32Max) :
    Preserves std seconds ('/' :: base) keyUri fmp4 segments (headLines std (entries.map Prod.snd) initUri fmp4 ++
      entries.flatMap (segmentLines std ('/' :: base) keyUri) ++ ["#EXT-X-ENDLIST".toList]) := by
  have again := same_number readable increasing
  have fixed : sortPaths std (entries.map (rebase ('/' :: base))) = entries.map (rebase ('/' :: base)) := by
    refine sortPaths_fixed sorts ?_ again
    intro entry member
    obtain ⟨before,listed,rfl⟩ := mem_map.mp member
    obtain ⟨n,small,-,number⟩ := (readable before listed).number
    exact ⟨n,small,number⟩
  constructor
  · intro text same
    refine ⟨(entries.map (rebase ('/' :: base))).map Prod.fst,(entries.map (rebase ('/' :: base))).map Prod.snd,?_,by simp,?_,?_,?_⟩
    · rw [parseSegmentManifest,same,append_assoc,pairs_heads (fun line member => (headLines_quiet line member).2.1),
        written_pairs measures readable,Option.map_some,fixed]
    · have mapped := perm.map (rebase ('/' :: base))
      rw [map_map] at mapped
      rw [zip_map',map_id']
      exact mapped
    · exact pairwise_map.mpr again
    · rw [append_assoc,keyed_skips headLines_quiet,keyed_segments (fun entry member => (readable entry member).uri) (fun key => rfl),
        map_map,map_map]
      refine map_congr_left (fun entry member => ?_)
      obtain ⟨⟨n,small,number,number'⟩,-,trimmed,-⟩ := readable entry member
      simp only [Function.comp,rebase]
      rw [trimmed,(named number).1,number_sequence number small,number_sequence number' small]
  · obtain ⟨t,target,covers⟩ := target_covers measures (entries.map Prod.snd)
    refine ⟨t,?_,?_⟩
    · rw [← target]
      refine mem_append_left _ (mem_append_left _ (mem_append_left _ ?_))
      exact .tail _ (.tail _ (.tail _ (.head _)))
    · intro s member
      refine covers _ ?_ (short s member)
      exact mem_map.mpr ⟨_,perm.mem_iff.mpr (mem_map_of_mem member),rfl⟩

theorem rewriting_preserves (sorts : std.Sorts) (measures : std.Measures seconds) :
    Rewrites std seconds (fun n => n ≤ u32Max) (fun duration => duration ≤ i32Max) := by
  intro stored rest content base keyUri initUri preferFmp4 read fine quiet nonempty numbers distinct
  have numbered : ∀ s ∈ media stored, ∃ n ≤ u32Max, fileNumber (basename (trim s.uri)) = some n := fun s member => (numbers s member).2
  have readable : ∀ fmp4, ∀ s ∈ media stored, Readable std ('/' :: base) (playback fmp4 s.entry) ∧
      fileNumber (basename (playback fmp4 s.entry).1) = fileNumber (basename (trim s.uri)) := by
    intro fmp4 s member
    obtain ⟨n,small,number⟩ := numbered s member
    have reads : s.Reads std := fine s (mem_filter.mp member).1
    rw [number]
    exact playback_readable fmp4 reads small number
  have parsed : parseSegmentManifest std content = some ((sortPaths std ((media stored).map Segment.entry)).map Prod.fst,
      (sortPaths std ((media stored).map Segment.entry)).map Prod.snd) := by
    rw [parseSegmentManifest,read,pairs_stored fine quiet,Option.map_some]
  have perm := std.sortBy_perm (fun left right => compareSegmentPaths left.1 right.1) ((media stored).map Segment.entry)
  change (sortPaths std _).Perm _ at perm
  generalize sortPaths std ((media stored).map Segment.entry) = sorted at parsed perm
  have listed : ¬(sorted.map Prod.fst = [] ∨ (sorted.map Prod.fst).length ≠ (sorted.map Prod.snd).length) := by
    rintro (none | differ)
    · rw [map_eq_nil_iff.mp none] at perm
      exact nonempty (map_eq_nil_iff.mp perm.nil_eq.symm)
    · simp at differ
  rw [rewriteStoredPlaylist,parsed]
  simp only [Option.bind_some]
  rw [if_neg listed]
  generalize (preferFmp4 || playlistUsesFmp4 content) = fmp4
  have played := perm.map (playback fmp4)
  rw [map_map] at played
  have mapped : ∀ entry ∈ sorted.map (playback fmp4), ∃ s ∈ media stored, playback fmp4 s.entry = entry :=
    fun entry member => mem_map.mp (played.mem_iff.mp member)
  have again := std.sortBy_perm (fun left right => compareSegmentPaths left.1 right.1) (sorted.map (playback fmp4))
  refine ⟨_,rfl,?_⟩
  rw [generate,zipPadded_map]
  refine generate_preserves sorts measures (again.trans played) (sortPaths_increasing sorts ?_ ?_) ?_ (fun s member => (numbers s member).1)
  · intro entry member
    obtain ⟨s,inside,rfl⟩ := mapped entry member
    rw [(readable fmp4 s inside).2]
    exact numbered s inside
  · refine (played.pairwise_iff (fun differ => Ne.symm differ)).mpr (pairwise_map.mpr (distinct.imp_of_mem ?_))
    intro a b left right differ
    change fileNumber (basename (playback fmp4 a.entry).1) ≠ fileNumber (basename (playback fmp4 b.entry).1)
    rw [(readable fmp4 a left).2,(readable fmp4 b right).2]
    exact differ
  · intro entry member
    obtain ⟨s,inside,rfl⟩ := mapped entry (again.mem_iff.mp member)
    exact (readable fmp4 s inside).1

end

def millis (text : Line) : Rat := Nat.ofDigitChars 10 (text.filter (fun c => c.isDigit)) 0 / 1000

def milliStd : Std Line :=
  {textStd with targetDuration := fun durations => Nat.toDigits 10 (min ((durations.map millis).foldl max 0).ceil.toNat i32Max)}

theorem thousandths_plain (k : Nat) : ∀ c ∈ thousandths k, c ≠ ',' ∧ c ≠ '#' ∧ isWhitespace c = false := by
  have digit : ∀ n, ∀ c ∈ Nat.toDigits 10 n, c ≠ ',' ∧ c ≠ '#' ∧ isWhitespace c = false := by
    intro n c member
    have isDigit := Nat.isDigit_of_mem_toDigits (by decide) (by decide) member
    simp only [Char.isDigit,Bool.and_eq_true,decide_eq_true_eq,UInt32.le_iff_toNat_le] at isDigit
    have low : 48 ≤ c.toNat := isDigit.1
    have high : c.toNat ≤ 57 := isDigit.2
    refine ⟨by rintro rfl; revert low; decide,by rintro rfl; revert low; decide,?_⟩
    simp [isWhitespace]
    omega
  intro c member
  simp only [thousandths,Digits.padded,mem_append,mem_cons,mem_replicate] at member
  rcases member with front | rfl | ⟨-,rfl⟩ | back
  · exact digit _ c front
  · decide
  · decide
  · exact digit _ c back

theorem milliStd_measures : milliStd.Measures millis := by
  constructor
  · intro k duration parsed
    have same : duration = thousandths k := by
      simp only [milliStd,textStd] at parsed
      split at parsed
      · cases parsed
      · exact (Option.some.inj parsed).symm
    subst same
    exact ⟨parsed,thousandths_plain k⟩
  · exact fun durations => rfl

def twoOf (k : Nat) : List (Segment Line) :=
  [⟨[],thousandths k,[],["#".toList],"10.ts".toList,thousandths k⟩,⟨[],thousandths k,[],[],"a/2.m4s".toList,thousandths k⟩]

def twoText (k : Nat) : List Char := ((twoOf k).flatMap Segment.lines).flatMap (fun line => line ++ ['\n'])

theorem two_rewritten {fits : Nat → Prop} {short : Rat → Prop} (all : Rewrites milliStd millis fits short) (k : Nat)
    (read : lines (twoText k) = (twoOf k).flatMap Segment.lines) (fit : fits 10 ∧ fits 2) (length : short (millis (thousandths k))) :
    ∃ out, rewriteStoredPlaylist milliStd (twoText k) ['/'] [] [] true = some out ∧ Preserves milliStd millis ['/'] [] true (twoOf k) out := by
  have plain := thousandths_plain k
  have parsed : milliStd.parseDuration (thousandths k) = some (thousandths k) := if_neg (by simp [thousandths])
  have trimmed : milliStd.parseDuration (trim (thousandths k)) = some (thousandths k) := by
    rw [trim_ends (fun c first => (plain c (mem_of_mem_head? first)).2.2) (fun c last => (plain c (mem_of_getLast? last)).2.2)]
    exact parsed
  have text : ∀ c ∈ thousandths k, c ≠ ',' ∧ c ≠ '#' := fun c member => ⟨(plain c member).1,(plain c member).2.1⟩
  refine all (twoOf k) [] _ [] [] [] true (by rw [append_nil]; exact read) ?_ (by simp) (cons_ne_nil _ _) ?_ ?_
  · simp only [twoOf,mem_cons,not_mem_nil,or_false,forall_eq_or_imp,forall_eq]
    exact ⟨⟨by simp,text,trimmed,⟨k,parsed⟩,by simp; decide,by dsimp only; decide⟩,by simp,text,trimmed,⟨k,parsed⟩,by simp,by dsimp only; decide⟩
  · change ∀ s ∈ twoOf k,_
    simp only [twoOf,mem_cons,not_mem_nil,or_false,forall_eq_or_imp,forall_eq]
    exact ⟨⟨length,10,fit.1,by decide⟩,length,2,fit.2,by decide⟩
  · change Distinct (twoOf k)
    simp only [Distinct,twoOf,pairwise_pair]
    decide

theorem two_preserved : ∃ out, rewriteStoredPlaylist milliStd (twoText 6000) ['/'] [] [] true = some out ∧
    Preserves milliStd millis ['/'] [] true (twoOf 6000) out :=
  two_rewritten (rewriting_preserves textStd_sorts milliStd_measures) 6000 (by decide +kernel) (by decide) (by decide +kernel)

-- A segment of 95 years, a length that no i32 has.
theorem rewriting_saturates : ¬Rewrites milliStd millis (fun _ => True) (fun _ => True) := by
  intro all
  obtain ⟨out,ran,-,t,listed,covers⟩ := two_rewritten all 3000000000000 (by decide +kernel) ⟨trivial,trivial⟩ trivial
  have capped : (rewriteStoredPlaylist milliStd (twoText 3000000000000) ['/'] [] [] true).map (fun out => out.all (fun line =>
      stripPrefix "#EXT-X-TARGETDURATION:".toList line ∈ [none,some "2147483647".toList])) = some true := by
    decide +kernel
  rw [ran,Option.map_some,Option.some.injEq,all_eq_true] at capped
  have text := of_decide_eq_true (capped _ listed)
  rw [stripPrefix,if_pos (prefix_append _ _),drop_left] at text
  simp only [mem_cons,reduceCtorEq,Option.some.injEq,not_mem_nil,or_false,false_or] at text
  have value : t = 2147483647 := by
    rw [← Nat.ofDigitChars_ten_toDigits (n := t),text]
    decide
  have long : ∃ s ∈ twoOf 3000000000000, ((2147483647 : Nat) : Rat) < millis s.duration := by decide +kernel
  obtain ⟨s,member,long⟩ := long
  rw [value] at covers
  exact absurd (covers s member) long.not_ge

end Ownly.Hls
