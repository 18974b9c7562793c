import Ownly.Hls.Playlist
import Mathlib.Data.List.Sort

-- The sequence a segment is encrypted with, and the ones its players are told.
namespace Ownly.Hls
open Text
open List

-- A player's reading of a manifest: each URI that belongs to an EXTINF, with the last KEY
-- line above it.
def keyed : Option Line → Bool → List Line → List (Line × Option Line)
  | _,_,[] => []
  | key,pending,line :: rest =>
    if extXKey line then keyed (some line) pending rest
    else if extinf line then keyed key true rest
    else if isUri line then (if pending then [(trim line,key)] else []) ++ keyed key false rest
    else keyed key pending rest

-- The manifest has the segment, always under this KEY line.
def Prints (out : List Line) (name line : Line) : Prop :=
  (∃ entry ∈ keyed none false out, segmentName entry.1 = name) ∧
  ∀ entry ∈ keyed none false out, segmentName entry.1 = name → entry.2 = some line

variable {files : List Line} {all : List Line} {a b : Nat} {sequence : Nat} {path : Line}

section reading
variable {D : Type} {std : Std D} {key : Option Line} {pending : Bool} {line name keyUri : Line} {rest out : List Line}
  {seqMap : KeyMap Line Nat} {lead : String}

-- The URIs that belong to an EXTINF, in their order.
def uris : Bool → List Line → List Line
  | _,[] => []
  | pending,line :: rest =>
    if extinf line then uris true rest
    else if isUri line then (if pending then [trim line] else []) ++ uris false rest
    else uris pending rest

theorem startsWith_iff : startsWith lead line = true ↔ lead.toList <+: line := decide_eq_true_iff

theorem startsWith_uri (tag : lead.toList.head? = some '#') (starts : startsWith lead line = true) :
    isUri line = false := by
  obtain ⟨tail,rfl⟩ := of_decide_eq_true starts
  cases text : lead.toList with
  | nil => rw [text] at tag; cases tag
  | cons c more =>
    rw [text] at tag
    cases tag
    exact Bool.and_eq_false_iff.mpr (.inl (by rw [startsWith]; exact congrArg Bool.not (decide_eq_true ⟨more ++ tail,rfl⟩)))

theorem extinf_uri (starts : extinf line = true) : isUri line = false := startsWith_uri rfl starts

theorem extXKey_uri (starts : extXKey line = true) : isUri line = false := startsWith_uri rfl starts

theorem extXKey_extinf (starts : extXKey line = true) : extinf line = false := by
  obtain ⟨tail,rfl⟩ := of_decide_eq_true starts
  refine Bool.eq_false_iff.mpr ?_
  intro other
  obtain ⟨more,same⟩ : "#EXTINF:".toList <+: "#EXT-X-KEY:".toList ++ tail := of_decide_eq_true other
  cases same

theorem uris_none (absent : rest.any isUri = false) (pending : Bool) : uris pending rest = [] := by
  induction rest generalizing pending with
  | nil => rfl
  | cons line rest ih =>
    rw [any_cons,Bool.or_eq_false_iff] at absent
    simp only [uris,absent.1,Bool.false_eq_true,if_false,ih absent.2]
    split
    · rfl
    · rfl

theorem pairs_uris {pending : Option D} {entries : List (Line × D)}
    (parsed : pairs std pending all = some entries) :
    entries.map Prod.fst = (uris pending.isSome all).filter (fun uri => decide (segmentName uri ≠ hlsInitFilename)) := by
  induction all generalizing pending entries with
  | nil =>
    cases pending <;> cases parsed <;> rfl
  | cons line rest ih =>
    cases pending with
    | none =>
      rw [pairs] at parsed
      rw [uris]
      split at parsed
      · rename_i tag
        rw [if_pos tag]
        obtain ⟨duration,_,later⟩ := Option.bind_eq_some_iff.mp parsed
        split at later
        · exact ih later
        · rename_i absent
          rw [ih later,uris_none (Bool.eq_false_iff.mpr absent),uris_none (Bool.eq_false_iff.mpr absent)]
      · rename_i tag
        rw [if_neg tag]
        split
        · exact ih parsed
        · exact ih parsed
    | some duration =>
      rw [pairs] at parsed
      rw [uris]
      split at parsed
      · rename_i uri
        have untagged : ¬extinf line = true := fun tag => by rw [extinf_uri tag] at uri; cases uri
        rw [if_neg untagged,if_pos uri]
        simp only [Option.isSome_some,if_true,singleton_append]
        split at parsed
        · rename_i media
          obtain ⟨later,walked,rfl⟩ := Option.map_eq_some_iff.mp parsed
          rw [filter_cons,if_pos (decide_eq_true media),map_cons,ih walked]
          rfl
        · rename_i init
          rw [filter_cons,if_neg (by simpa using init)]
          exact ih parsed
      · rename_i other
        split
        · exact ih parsed
        · exact ih parsed

theorem keyed_uris : (keyed key pending rest).map Prod.fst = uris pending rest := by
  induction rest generalizing key pending with
  | nil => rfl
  | cons line rest ih =>
    rw [keyed,uris]
    by_cases tagged : extXKey line = true
    · rw [if_pos tagged,if_neg (by rw [extXKey_extinf tagged]; exact Bool.false_ne_true),
        if_neg (by rw [extXKey_uri tagged]; exact Bool.false_ne_true)]
      exact ih
    · rw [if_neg tagged]
      split
      · exact ih
      · split
        · rw [map_append,ih]
          cases pending with
          | true => rfl
          | false => rfl
        · exact ih

def told (keyUri : Line) (seqMap : KeyMap Line Nat) (name : Line) : Option Line :=
  (segmentSequenceFromFilename name <|> seqMap.get name).map (formatExtXKeyLine keyUri)

theorem format_extXKey : extXKey (formatExtXKeyLine keyUri sequence) = true := by
  have head : "#EXT-X-KEY:".toList <+: "#EXT-X-KEY:METHOD=AES-128,URI=\"".toList := by decide
  have lead : "#EXT-X-KEY:".toList <+: formatExtXKeyLine keyUri sequence := by
    unfold formatExtXKeyLine
    exact ((head.trans (prefix_append _ _)).trans (prefix_append _ _)).trans (prefix_append _ _)
  exact startsWith_iff.mpr lead

theorem inject_uris (injected : injectLines keyUri seqMap all = some out) (pending : Bool) :
    uris pending out = uris pending all := by
  induction all generalizing out pending with
  | nil => cases injected; rfl
  | cons line rest ih =>
    rw [injectLines] at injected
    have kept : ∀ {more}, injectLines keyUri seqMap rest = some more → uris pending (line :: more) = uris pending (line :: rest) := by
      intro more walked
      rw [uris,uris]
      split
      · exact ih walked true
      · split
        · rw [ih walked false]
        · exact ih walked pending
    split at injected
    · rename_i tagged
      rw [uris,extXKey_extinf tagged,extXKey_uri tagged]
      exact ih injected pending
    · split at injected
      · rename_i tag
        split at injected
        · split at injected
          · obtain ⟨sequence,_,told⟩ := Option.bind_eq_some_iff.mp injected
            obtain ⟨more,walked,rfl⟩ := Option.map_eq_some_iff.mp told
            rw [uris,extXKey_extinf format_extXKey,extXKey_uri format_extXKey]
            exact kept walked
          · obtain ⟨more,walked,rfl⟩ := Option.map_eq_some_iff.mp injected
            exact kept walked
        · obtain ⟨more,walked,rfl⟩ := Option.map_eq_some_iff.mp injected
          exact kept walked
      · obtain ⟨more,walked,rfl⟩ := Option.map_eq_some_iff.mp injected
        exact kept walked

-- A pending URI finds its own key above it.
def Ready (keyUri : Line) (seqMap : KeyMap Line Nat) (key : Option Line) (pending : Bool) (all : List Line) : Prop :=
  pending = true → ∀ uri, all.find? isUri = some uri → segmentName (trim uri) ≠ hlsInitFilename →
    key = told keyUri seqMap (segmentName (trim uri))

theorem inject_told (injected : injectLines keyUri seqMap all = some out)
    (ready : Ready keyUri seqMap key pending all) :
    ∀ entry ∈ keyed key pending out, segmentName entry.1 ≠ hlsInitFilename → entry.2 = told keyUri seqMap (segmentName entry.1) := by
  induction all generalizing out key pending with
  | nil => cases injected; exact fun _ member => nomatch member
  | cons line rest ih =>
    rw [injectLines] at injected
    split at injected
    · rename_i tagged
      refine ih injected ?_
      intro due uri found
      exact ready due uri (by rw [find?_cons,extXKey_uri tagged]; exact found)
    · rename_i untagged
      have past : ∀ {more}, extinf line = true → keyed key pending (line :: more) = keyed key true more := by
        intro more tag
        rw [keyed,if_neg untagged,if_pos tag]
      split at injected
      · rename_i tag
        split at injected
        · rename_i uri next
          split at injected
          · obtain ⟨sequence,own,later⟩ := Option.bind_eq_some_iff.mp injected
            obtain ⟨more,walked,rfl⟩ := Option.map_eq_some_iff.mp later
            rw [keyed,if_pos format_extXKey,keyed,if_neg untagged,if_pos tag]
            refine ih walked ?_
            intro _ other found _
            rw [next] at found
            cases found
            rw [told,own]
            rfl
          · rename_i init
            obtain ⟨more,walked,rfl⟩ := Option.map_eq_some_iff.mp injected
            rw [past tag]
            refine ih walked ?_
            intro _ other found media
            rw [next] at found
            cases found
            exact absurd media init
        · rename_i none
          obtain ⟨more,walked,rfl⟩ := Option.map_eq_some_iff.mp injected
          rw [past tag]
          refine ih walked ?_
          intro _ other found
          rw [none] at found
          cases found
      · rename_i tag
        obtain ⟨more,walked,rfl⟩ := Option.map_eq_some_iff.mp injected
        rw [keyed,if_neg untagged,if_neg tag]
        split
        · rename_i uri
          intro entry member
          rcases mem_append.mp member with here | later
          · split at here
            · rename_i due
              cases mem_singleton.mp here
              exact ready due line (by rw [find?_cons,uri])
            · cases here
          · exact ih walked (fun due => absurd due Bool.false_ne_true) entry later
        · rename_i other
          refine ih walked ?_
          intro due uri found
          exact ready due uri (by rw [find?_cons,Bool.eq_false_iff.mpr other]; exact found)

theorem find_uris {uri : Line} (found : rest.find? isUri = some uri) : trim uri ∈ uris true rest := by
  induction rest with
  | nil => cases found
  | cons line rest ih =>
    rw [find?_cons] at found
    rw [uris]
    split at found
    · rename_i here
      cases found
      have untagged : ¬extinf uri = true := fun tag => by rw [extinf_uri tag] at here; cases here
      rw [if_neg untagged,if_pos here]
      exact mem_cons_self
    · rename_i other
      split
      · exact ih found
      · rw [if_neg (by rw [other]; exact Bool.false_ne_true)]
        exact ih found

theorem inject_some (known : ∀ uri ∈ uris pending all, segmentName uri ≠ hlsInitFilename →
    (told keyUri seqMap (segmentName uri)).isSome = true) : ∃ out, injectLines keyUri seqMap all = some out := by
  induction all generalizing pending with
  | nil => exact ⟨[],rfl⟩
  | cons line rest ih =>
    rw [uris] at known
    rw [injectLines]
    split
    · rename_i tagged
      rw [extXKey_extinf tagged,extXKey_uri tagged] at known
      exact ih known
    · split
      · rename_i tag
        rw [if_pos tag] at known
        obtain ⟨more,walked⟩ := ih known
        split
        · rename_i uri next
          split
          · rename_i media
            obtain ⟨line',own⟩ := Option.isSome_iff_exists.mp (known _ (find_uris next) media)
            obtain ⟨sequence,own,_⟩ := Option.map_eq_some_iff.mp own
            exact ⟨_,by rw [own,walked]; rfl⟩
          · exact ⟨_,by rw [walked]; rfl⟩
        · exact ⟨_,by rw [walked]; rfl⟩
      · rename_i tag
        rw [if_neg tag] at known
        have later : ∃ more, injectLines keyUri seqMap rest = some more := by
          split at known
          · exact ih (fun uri member => known uri (mem_append_right _ member))
          · exact ih known
        obtain ⟨more,walked⟩ := later
        exact ⟨_,by rw [walked]; rfl⟩

theorem sequences_other {base index : Nat} (absent : name ∉ files.map segmentName) :
    (sequencesFrom base index files seqMap).get name = seqMap.get name := by
  induction files generalizing index seqMap with
  | nil => rfl
  | cons path rest ih =>
    rw [map_cons,mem_cons,not_or] at absent
    rw [sequencesFrom]
    split
    · exact ih absent.2
    · rw [ih absent.2,KeyMap.get_set_ne absent.1]

theorem sequences_get {base index i : Nat} (media : ∀ path ∈ files, segmentName path ≠ hlsInitFilename)
    (distinct : (files.map segmentName).Nodup) (here : files[i]? = some path) (small : index ≤ u32Max) :
    (sequencesFrom base index files seqMap).get (segmentName path) =
      some ((segmentSequenceFromFilename (segmentName path)).getD (saturatingAdd base (min (index + i) u32Max))) := by
  induction files generalizing index i seqMap with
  | nil => cases here
  | cons first rest ih =>
    rw [map_cons,nodup_cons] at distinct
    rw [sequencesFrom,if_neg (media first mem_cons_self)]
    cases i with
    | zero =>
      cases here
      rw [sequences_other distinct.1,KeyMap.get_set_self,Nat.add_zero,Nat.min_eq_left small]
    | succ i =>
      have capped : saturatingAdd index 1 ≤ u32Max := Nat.min_le_right _ _
      rw [ih (fun path member => media path (mem_cons_of_mem _ member)) distinct.2 here capped]
      have place : min (saturatingAdd index 1 + i) u32Max = min (index + (i + 1)) u32Max := by
        unfold saturatingAdd
        omega
      rw [place]

theorem digitChar_inj (small : a < 16) (small' : b < 16) (same : Nat.digitChar a = Nat.digitChar b) : a = b := by
  have all : ∀ a b : Fin 16, Nat.digitChar a = Nat.digitChar b → a = b := by decide
  exact congrArg Fin.val (all ⟨a,small⟩ ⟨b,small'⟩ same)

theorem hexByte_inj (small : a < 256) (small' : b < 256) (same : hexByte a = hexByte b) : a = b := by
  obtain ⟨high,rest⟩ := List.cons.inj same
  obtain ⟨low,_⟩ := List.cons.inj rest
  have high := digitChar_inj (by omega) (by omega) high
  have low := digitChar_inj (by omega) (by omega) low
  omega

theorem ivHex_inj (small : a ≤ u32Max) (small' : b ≤ u32Max) (same : ivHexForHlsSequence a = ivHexForHlsSequence b) :
    a = b := by
  unfold ivHexForHlsSequence hlsMediaSequenceIv at same
  rewrite [flatMap_append,flatMap_append] at same
  have bytes := append_cancel_left (append_cancel_left same)
  simp only [flatMap_cons,flatMap_nil,append_nil] at bytes
  obtain ⟨first,bytes⟩ := append_inj bytes rfl
  obtain ⟨second,bytes⟩ := append_inj bytes rfl
  obtain ⟨third,fourth⟩ := append_inj bytes rfl
  have first := hexByte_inj (Nat.mod_lt _ (by decide)) (Nat.mod_lt _ (by decide)) first
  have second := hexByte_inj (Nat.mod_lt _ (by decide)) (Nat.mod_lt _ (by decide)) second
  have third := hexByte_inj (Nat.mod_lt _ (by decide)) (Nat.mod_lt _ (by decide)) third
  have fourth := hexByte_inj (Nat.mod_lt _ (by decide)) (Nat.mod_lt _ (by decide)) fourth
  have small : a ≤ 4294967295 := small
  have small' : b ≤ 4294967295 := small'
  omega

theorem format_inj (small : a ≤ u32Max) (small' : b ≤ u32Max)
    (same : formatExtXKeyLine keyUri a = formatExtXKeyLine keyUri b) : a = b := by
  unfold formatExtXKeyLine at same
  exact ivHex_inj small small' (append_cancel_left same)

theorem filename_le {n : Nat} (parsed : segmentSequenceFromFilename name = some n) : n ≤ u32Max := by
  obtain ⟨stem,_,number⟩ := Option.bind_eq_some_iff.mp parsed
  exact parseUnsigned_le number

end reading

section playback
variable {D : Type} {std : Std D} {key : Option Line} {pending preferFmp4 : Bool} {line name base keyUri initUri uri file : Line} {heads rest : List Line}
  {durations : List D} {content : List Char}

theorem keyed_skips (quiet : ∀ line ∈ heads, extXKey line = false ∧ extinf line = false ∧ isUri line = false) :
    keyed key pending (heads ++ rest) = keyed key pending rest := by
  induction heads with
  | nil => rfl
  | cons line heads ih =>
    obtain ⟨untagged,untimed,other⟩ := quiet line mem_cons_self
    rw [cons_append,keyed,untagged,untimed,other]
    exact ih (fun line member => quiet line (mem_cons_of_mem _ member))

theorem head_quiet (lead : String) (tag : lead.toList.head? = some '#') (key : ¬"#EXT-X-KEY:".toList <+: lead.toList)
    (shorter : ¬lead.toList <+: "#EXT-X-KEY:".toList) (timed : ¬"#EXTINF:".toList <+: lead.toList)
    (shorter' : ¬lead.toList <+: "#EXTINF:".toList) (tail : Line) :
    extXKey (lead.toList ++ tail) = false ∧ extinf (lead.toList ++ tail) = false ∧ isUri (lead.toList ++ tail) = false := by
  have apart : ∀ other : Line, ¬other <+: lead.toList → ¬lead.toList <+: other → ¬other <+: lead.toList ++ tail := by
    intro other longer shorter starts
    rcases prefix_or_prefix_of_prefix starts (prefix_append _ _) with both | both
    · exact longer both
    · exact shorter both
  refine ⟨?_,?_,startsWith_uri tag (startsWith_iff.mpr (prefix_append _ _))⟩
  · exact Bool.eq_false_iff.mpr (fun starts => apart _ key shorter (startsWith_iff.mp starts))
  · exact Bool.eq_false_iff.mpr (fun starts => apart _ timed shorter' (startsWith_iff.mp starts))

theorem headLines_quiet {fmp4 : Bool} :
    ∀ line ∈ headLines std durations initUri fmp4, extXKey line = false ∧ extinf line = false ∧ isUri line = false := by
  intro line member
  unfold headLines at member
  rcases mem_append.mp member with fixed | map
  · simp only [mem_cons,not_mem_nil,or_false] at fixed
    rcases fixed with rfl | rfl | rfl | rfl | rfl
    · exact head_quiet "#EXTM3U" rfl (by decide) (by decide) (by decide) (by decide) []
    · exact head_quiet "#EXT-X-VERSION:" rfl (by decide) (by decide) (by decide) (by decide) _
    · exact head_quiet "#EXT-X-PLAYLIST-TYPE:VOD" rfl (by decide) (by decide) (by decide) (by decide) []
    · exact head_quiet "#EXT-X-TARGETDURATION:" rfl (by decide) (by decide) (by decide) (by decide) _
    · exact head_quiet "#EXT-X-MEDIA-SEQUENCE:0" rfl (by decide) (by decide) (by decide) (by decide) []
  · split at map
    · rw [mem_singleton] at map
      rw [map,append_assoc]
      exact head_quiet "#EXT-X-MAP:URI=\"" rfl (by decide) (by decide) (by decide) (by decide) _
    · cases map

theorem keyed_segments {entries : List (Line × D)} {baseUrl : Line} (shown : ∀ entry ∈ entries, isUri (segmentUri baseUrl entry.1) = true)
    (done : ∀ key, keyed key false rest = []) :
    keyed key false (entries.flatMap (segmentLines std baseUrl keyUri) ++ rest) = entries.map (fun entry =>
      (trim (segmentUri baseUrl entry.1),
       some (formatExtXKeyLine keyUri ((segmentSequenceFromFilename (segmentName entry.1)).getD 0)))) := by
  induction entries generalizing key with
  | nil => exact done key
  | cons entry entries ih =>
    have timed : extinf ("#EXTINF:".toList ++ std.showDuration entry.2 ++ ",".toList) = true :=
      startsWith_iff.mpr ((prefix_append _ _).trans (prefix_append _ _))
    have untagged : extXKey ("#EXTINF:".toList ++ std.showDuration entry.2 ++ ",".toList) = false :=
      Bool.eq_false_iff.mpr (fun tagged => by rw [extXKey_extinf tagged] at timed; cases timed)
    have uri := shown entry mem_cons_self
    have no_key : extXKey (segmentUri baseUrl entry.1) = false :=
      Bool.eq_false_iff.mpr (fun tagged => by rw [extXKey_uri tagged] at uri; cases uri)
    have no_time : extinf (segmentUri baseUrl entry.1) = false :=
      Bool.eq_false_iff.mpr (fun tag => by rw [extinf_uri tag] at uri; cases uri)
    simp only [flatMap_cons,segmentLines,cons_append,nil_append,keyed,format_extXKey,untagged,timed,no_key,no_time,uri,
      if_true,if_false,Bool.false_eq_true,map_cons]
    rw [ih (fun entry member => shown entry (mem_cons_of_mem _ member))]

def Ended (text : Line) : Prop := text ≠ [] ∧ ∀ c ∈ text.getLast?, isWhitespace c = false

theorem Ended.behind {text : Line} (ended : Ended text) (lead : Line) : Ended (lead ++ text) := by
  refine ⟨fun none => ended.1 (append_eq_nil_iff.mp none).2,?_⟩
  rw [getLast?_append_of_ne_nil _ ended.1]
  exact ended.2

theorem uris_trimmed (member : uri ∈ uris pending all) : Ended uri ∧ trim uri = uri := by
  induction all generalizing pending with
  | nil => cases member
  | cons line rest ih =>
    rw [uris] at member
    split at member
    · exact ih member
    · split at member
      · rename_i shown
        rcases mem_append.mp member with here | later
        · split at here
          · cases mem_singleton.mp here
            exact ⟨⟨of_decide_eq_true (Bool.and_eq_true_iff.mp shown).2,trim_last⟩,trim_trim⟩
          · cases here
        · exact ih later
      · exact ih member

theorem unstripped_m4s (m4s : ".m4s".toList <:+ name) : normalizePlaybackSegmentBasename name preferFmp4 = name := by
  unfold normalizePlaybackSegmentBasename
  split
  · split
    · rename_i stem stripped
      obtain ⟨front,rfl⟩ := m4s
      have both := congrArg List.reverse (stripSuffix_some stripped)
      rw [reverse_append,reverse_append] at both
      cases both
    · rfl
  · rfl

theorem playback_path (preferFmp4 : Bool) (trimmed : trim uri = uri) : ∃ lead, normalizeSegmentRelPathForPlayback uri preferFmp4 =
    lead ++ '/' :: normalizePlaybackSegmentBasename (afterLast '/' uri) preferFmp4 := by
  have path : ∃ lead, normalizeSegmentRelPath uri = lead ++ '/' :: afterLast '/' uri := by
    unfold normalizeSegmentRelPath
    rw [trimmed]
    rcases afterLast_split '/' uri with ⟨last,clear⟩ | ⟨lead,whole⟩
    · rw [if_neg clear,← last]
      exact ⟨"segments".toList,rfl⟩
    · rw [if_pos (by rw [whole]; simp)]
      exact ⟨lead,whole⟩
  obtain ⟨lead,path⟩ := path
  refine ⟨lead,?_⟩
  unfold normalizeSegmentRelPathForPlayback
  split
  · rename_i fmp4
    rw [path,rsplitOnce_append afterLast_clear,fmp4]
  · rename_i plain
    rw [path,normalizePlaybackSegmentBasename,if_neg plain]

theorem m4s_name (m4s : ".m4s".toList <:+ segmentName uri) :
    afterLast '/' uri = segmentName uri ∧ segmentName uri ≠ [] ∧ '/' ∉ segmentName uri := by
  have part : afterLast '/' uri ≠ [] := by
    intro none
    rw [segmentName,if_pos none] at m4s
    obtain ⟨front,whole⟩ := m4s
    rcases afterLast_split '/' uri with ⟨same,_⟩ | ⟨lead,same⟩
    · rw [none] at same
      rw [same] at whole
      exact absurd (append_eq_nil_iff.mp whole).2 (by decide)
    · rw [none] at same
      rw [same] at whole
      have last := congrArg List.reverse whole
      rw [reverse_append,reverse_append] at last
      cases last
  rw [segmentName,if_neg part]
  exact ⟨rfl,part,afterLast_clear⟩

theorem segmentName_append {lead tail : Line} (clear : '/' ∉ tail) (proper : name ≠ []) (clear' : '/' ∉ name) :
    segmentName (lead ++ '/' :: tail) = name ↔ tail = name := by
  rw [segmentName,afterLast_append clear]
  split
  · rename_i none
    subst none
    constructor
    · rintro rfl
      exact absurd (mem_append_right _ mem_cons_self) clear'
    · rintro rfl
      exact absurd rfl proper
  · exact Iff.rfl

theorem playback_clear : '/' ∉ normalizePlaybackSegmentBasename (afterLast '/' uri) preferFmp4 := by
  unfold normalizePlaybackSegmentBasename
  split
  · split
    · rename_i stem stripped
      intro member
      rcases mem_append.mp member with front | tail
      · have inside : '/' ∈ afterLast '/' uri := by rw [stripSuffix_some stripped]; exact mem_append_left _ front
        exact afterLast_clear inside
      · exact absurd tail (by decide)
    · exact afterLast_clear
  · exact afterLast_clear

theorem playback_ended (ended : Ended uri) : Ended ('/' :: normalizePlaybackSegmentBasename (afterLast '/' uri) preferFmp4) := by
  have plain : Ended ('/' :: afterLast '/' uri) := by
    by_cases none : afterLast '/' uri = []
    · rw [none]
      exact ⟨cons_ne_nil _ _,fun c member => by cases member; decide⟩
    · have part : Ended (afterLast '/' uri) := by
        refine ⟨none,?_⟩
        rcases afterLast_split '/' uri with ⟨same,_⟩ | ⟨lead,same⟩
        · rw [← same]
          exact ended.2
        · have last := ended.2
          rw [same,getLast?_append_of_ne_nil _ (cons_ne_nil _ _),getLast?_cons_of_ne_nil none] at last
          exact last
      exact part.behind ['/']
  unfold normalizePlaybackSegmentBasename
  split
  · split
    · rename_i stem _
      have last : ".m4s".toList.getLast? = some 's' := by decide
      have tail : Ended ".m4s".toList := ⟨by decide,fun c member => by rw [last] at member; cases member; decide⟩
      exact tail.behind ('/' :: stem)
    · exact plain
  · exact plain

theorem playback_uri (base : Line) (preferFmp4 : Bool) (ended : Ended uri) (trimmed : trim uri = uri) (proper : name ≠ []) (clear : '/' ∉ name) :
    isUri (segmentUri ('/' :: base) (normalizeSegmentRelPathForPlayback uri preferFmp4)) = true ∧
    (segmentName (trim (segmentUri ('/' :: base) (normalizeSegmentRelPathForPlayback uri preferFmp4))) = name ↔
      segmentName (normalizeSegmentRelPathForPlayback uri preferFmp4) = name) ∧
    (segmentName (normalizeSegmentRelPathForPlayback uri preferFmp4) = name ↔
      normalizePlaybackSegmentBasename (afterLast '/' uri) preferFmp4 = name) := by
  obtain ⟨lead,path⟩ := playback_path preferFmp4 trimmed
  have whole : segmentUri ('/' :: base) (normalizeSegmentRelPathForPlayback uri preferFmp4) =
      (('/' :: base) ++ '/' :: lead) ++ '/' :: normalizePlaybackSegmentBasename (afterLast '/' uri) preferFmp4 := by
    rw [segmentUri,if_pos (by rw [path]; simp),path]
    simp only [append_assoc,cons_append]
  have same : trim (segmentUri ('/' :: base) (normalizeSegmentRelPathForPlayback uri preferFmp4)) =
      segmentUri ('/' :: base) (normalizeSegmentRelPathForPlayback uri preferFmp4) := by
    refine trim_ends ?_ ?_
    · rw [whole]
      intro c member
      cases member
      decide
    · rw [whole]
      exact ((playback_ended ended).behind _).2
  refine ⟨?_,?_,?_⟩
  · refine Bool.and_eq_true_iff.mpr ⟨?_,decide_eq_true (by rw [same,whole]; exact cons_ne_nil _ _)⟩
    rw [whole]
    rfl
  · rw [same,whole,path,segmentName_append playback_clear proper clear,segmentName_append playback_clear proper clear]
  · rw [path,segmentName_append playback_clear proper clear]

theorem zipPadded_files (duration : D) (files : List Line) (durations : List D) :
    (zipPadded duration files durations).map Prod.fst = files := by
  induction files generalizing durations with
  | nil => rfl
  | cons file files ih =>
    cases durations with
    | nil => rw [zipPadded,map_cons,ih]
    | cons first rest => rw [zipPadded,map_cons,ih]

theorem sortPaths_mem {entries : List (Line × D)} :
    path ∈ (sortPaths std entries).map Prod.fst ↔ path ∈ entries.map Prod.fst :=
  ((std.sortBy_perm _ entries).map Prod.fst).mem_iff

theorem manifest_uris
    (accepted : parseSegmentManifest std content = some (files,durations)) :
    files.length = durations.length ∧
    ∀ path, path ∈ files ↔ path ∈ uris false (lines content) ∧ segmentName path ≠ hlsInitFilename := by
  obtain ⟨entries,walked,same⟩ := Option.map_eq_some_iff.mp accepted
  cases same
  refine ⟨by rw [length_map,length_map],?_⟩
  intro path
  rw [sortPaths_mem,pairs_uris walked,mem_filter,decide_eq_true_iff]
  rfl

theorem Prints.unique {out : List Line} {line' : Line} (one : Prints out name line) (other : Prints out name line') : line = line' := by
  obtain ⟨entry,member,named⟩ := one.1
  exact Option.some.inj ((one.2 entry member named).symm.trans (other.2 entry member named))

theorem rewrite_prints (base keyUri initUri : Line) (preferFmp4 : Bool)
    (accepted : parseSegmentManifest std content = some (files,durations)) (member : uri ∈ files)
    (m4s : ".m4s".toList <:+ segmentName uri) :
    ∃ out, rewriteStoredPlaylist std content ('/' :: base) keyUri initUri preferFmp4 = some out ∧
      Prints out (segmentName uri) (formatExtXKeyLine keyUri ((segmentSequenceFromFilename (segmentName uri)).getD 0)) := by
  obtain ⟨lengths,listed⟩ := manifest_uris accepted
  obtain ⟨last,proper,clear⟩ := m4s_name m4s
  have shape : ∀ path ∈ files, Ended path ∧ trim path = path := fun path here => uris_trimmed ((listed path).mp here).1
  generalize fmp4 : (preferFmp4 || playlistUsesFmp4 content) = prefer at *
  refine ⟨generate std ('/' :: base) (files.map (fun path => normalizeSegmentRelPathForPlayback path prefer)) durations keyUri initUri prefer,
    ?_,?_⟩
  · rw [rewriteStoredPlaylist,accepted]
    simp only [Option.bind_some,fmp4]
    rw [if_neg]
    rintro (none | ne)
    · rw [none] at member
      cases member
    · exact ne lengths
  · -- each entry of the manifest comes from one path of the list
    have from_path : ∀ entry ∈ sortPaths std (zipPadded std.hlsSegmentTargetSecs
        (files.map (fun path => normalizeSegmentRelPathForPlayback path prefer)) durations),
        ∃ path ∈ files, normalizeSegmentRelPathForPlayback path prefer = entry.1 := by
      intro entry here
      have file := sortPaths_mem.mp (mem_map_of_mem (f := Prod.fst) here)
      rw [zipPadded_files] at file
      exact mem_map.mp file
    have read : keyed none false (generate std ('/' :: base)
        (files.map (fun path => normalizeSegmentRelPathForPlayback path prefer)) durations keyUri initUri prefer) =
        (sortPaths std (zipPadded std.hlsSegmentTargetSecs
          (files.map (fun path => normalizeSegmentRelPathForPlayback path prefer)) durations)).map (fun entry =>
            (trim (segmentUri ('/' :: base) entry.1),
             some (formatExtXKeyLine keyUri ((segmentSequenceFromFilename (segmentName entry.1)).getD 0)))) := by
      rw [generate,append_assoc,keyed_skips headLines_quiet]
      refine keyed_segments ?_ (fun key => rfl)
      intro entry here
      obtain ⟨path,there,same⟩ := from_path entry here
      rw [← same]
      exact (playback_uri base prefer (shape path there).1 (shape path there).2 proper clear).1
    refine ⟨?_,?_⟩
    · have file : normalizeSegmentRelPathForPlayback uri prefer ∈ (sortPaths std (zipPadded std.hlsSegmentTargetSecs
          (files.map (fun path => normalizeSegmentRelPathForPlayback path prefer)) durations)).map Prod.fst := by
        rw [sortPaths_mem,zipPadded_files]
        exact mem_map_of_mem member
      obtain ⟨entry,here,same⟩ := mem_map.mp file
      refine ⟨_,by rw [read]; exact mem_map_of_mem here,?_⟩
      obtain ⟨_,shown,named⟩ := playback_uri base prefer (shape uri member).1 (shape uri member).2 proper clear
      dsimp only
      rw [same,shown,named,last,unstripped_m4s m4s]
    · intro entry here named
      rw [read] at here
      obtain ⟨pair,there,rfl⟩ := mem_map.mp here
      obtain ⟨path,listed,same⟩ := from_path pair there
      have both := (playback_uri base prefer (shape path listed).1 (shape path listed).2 proper clear).2.1
      dsimp only at named ⊢
      rw [← same] at named ⊢
      rw [both.mp named]

section
variable (accepted : parseSegmentManifest std content = some (files,durations)) (distinct : (files.map segmentName).Nodup)
include accepted distinct

theorem segment_sequence {i : Nat}
    (here : files[i]? = some uri) : ∃ seqMap, segmentAesSequenceMap std content = some seqMap ∧
      seqMap.get (segmentName uri) = some ((segmentSequenceFromFilename (segmentName uri)).getD
        (saturatingAdd (parseMediaSequence content) (min i u32Max))) := by
  refine ⟨_,by rw [segmentAesSequenceMap,accepted]; rfl,?_⟩
  have media : ∀ path ∈ files, segmentName path ≠ hlsInitFilename :=
    fun path member => (((manifest_uris accepted).2 path).mp member).2
  have place : min i u32Max = min (0 + i) u32Max := by rw [Nat.zero_add]
  rw [place]
  exact sequences_get media distinct here (Nat.zero_le _)

theorem inject_prints {seqMap : KeyMap Line Nat}
    (mapped : segmentAesSequenceMap std content = some seqMap) (member : uri ∈ files)
    (own : (segmentSequenceFromFilename (segmentName uri) <|> seqMap.get (segmentName uri)) = some sequence) :
    ∃ out, injectPerSegmentAes128Keys std content keyUri = some out ∧
      Prints out (segmentName uri) (formatExtXKeyLine keyUri sequence) := by
  have listed := (manifest_uris accepted).2
  have known : ∀ path ∈ uris false (lines content), segmentName path ≠ hlsInitFilename →
      (told keyUri seqMap (segmentName path)).isSome = true := by
    intro path there media
    obtain ⟨i,here⟩ := mem_iff_getElem?.mp ((listed path).mpr ⟨there,media⟩)
    obtain ⟨other,same,got⟩ := segment_sequence accepted distinct here
    cases mapped.symm.trans same
    rw [told]
    rw [got]
    cases segmentSequenceFromFilename (segmentName path) with
    | none => rfl
    | some n => rfl
  obtain ⟨out,injected⟩ := inject_some known
  have told_own : told keyUri seqMap (segmentName uri) = some (formatExtXKeyLine keyUri sequence) := by rw [told,own]; rfl
  have same : (keyed none false out).map Prod.fst = uris false (lines content) := by rw [keyed_uris,inject_uris injected]
  obtain ⟨there,media⟩ := (listed uri).mp member
  refine ⟨out,by rw [injectPerSegmentAes128Keys,mapped]; exact injected,?_,?_⟩
  · rw [← same] at there
    obtain ⟨entry,printed,named⟩ := mem_map.mp there
    exact ⟨entry,printed,by rw [named]⟩
  · intro entry printed named
    rw [inject_told injected (fun due => absurd due Bool.false_ne_true) entry printed (by rw [named]; exact media),named,told_own]

end

end playback

def Agree {D : Type} (std : Std D) (content : List Char) (baseUrl keyUri injectedKeyUri initUri : Line) (preferFmp4 : Bool) (name : Line) :
    Prop :=
  ∃ sequence, encryptSequence std content name = some sequence ∧
    (∃ out, rewriteStoredPlaylist std content baseUrl keyUri initUri preferFmp4 = some out ∧
      Prints out name (formatExtXKeyLine keyUri sequence)) ∧
    ∃ out, injectPerSegmentAes128Keys std content injectedKeyUri = some out ∧
      Prints out name (formatExtXKeyLine injectedKeyUri sequence)

theorem extension_m4s {name : Line} (m4s : ".m4s".toList <:+ name) : extension name = some "m4s".toList ↔ name ≠ ".m4s".toList := by
  obtain ⟨stem,rfl⟩ := m4s
  have clear : '.' ∉ "m4s".toList := by decide
  have split : rsplitOnce '.' (stem ++ ".m4s".toList) = some (stem,"m4s".toList) := rsplitOnce_append clear
  rw [extension,split]
  simp only [Option.bind_some]
  cases stem with
  | nil => decide
  | cons c rest =>
    rw [if_neg (cons_ne_nil _ _)]
    refine ⟨?_,fun _ => rfl⟩
    intro _ same
    have length := congrArg List.length same
    rw [length_append] at length
    change (rest.length + 1) + 4 = 4 at length
    omega

theorem saturatingAdd_zero : saturatingAdd a (min b u32Max) = 0 ↔ a = 0 ∧ b = 0 := by
  have positive : 0 < u32Max := by decide
  unfold saturatingAdd
  omega

theorem iv_agrees {D : Type} {std : Std D} {content : List Char} {files : List Line} {durations : List D} {uri : Line}
    (accepted : parseSegmentManifest std content = some (files,durations)) (distinct : (files.map segmentName).Nodup)
    (member : uri ∈ files) (m4s : ".m4s".toList <:+ segmentName uri) (base keyUri injectedKeyUri initUri : Line) (preferFmp4 : Bool) :
    Agree std content ('/' :: base) keyUri injectedKeyUri initUri preferFmp4 (segmentName uri) ↔
      segmentName uri ≠ ".m4s".toList ∧ ((segmentSequenceFromFilename (segmentName uri)).isSome = true ∨
        parseMediaSequence content = 0 ∧ files.head? = some uri) := by
  obtain ⟨i,here⟩ := mem_iff_getElem?.mp member
  obtain ⟨seqMap,mapped,got⟩ := segment_sequence accepted distinct here
  obtain ⟨rewritten,written,printed⟩ := rewrite_prints base keyUri initUri preferFmp4 accepted member m4s
  have number : ∃ sequence, (segmentSequenceFromFilename (segmentName uri) <|> seqMap.get (segmentName uri)) = some sequence ∧
      sequence ≤ u32Max ∧ (sequence = (segmentSequenceFromFilename (segmentName uri)).getD 0 ↔
        (segmentSequenceFromFilename (segmentName uri)).isSome = true ∨ parseMediaSequence content = 0 ∧ i = 0) := by
    rw [got]
    cases named : segmentSequenceFromFilename (segmentName uri) with
    | none =>
      refine ⟨_,rfl,Nat.min_le_right _ _,?_⟩
      rw [Option.getD_none,Option.getD_none,saturatingAdd_zero]
      simp
    | some n => exact ⟨n,rfl,filename_le named,by simp⟩
  obtain ⟨sequence,own,small,equal⟩ := number
  have first : i = 0 ↔ files.head? = some uri := by
    rw [head?_eq_getElem?]
    constructor
    · rintro rfl
      exact here
    · intro head
      by_contra later
      have names := pairwise_iff_getElem.mp distinct
      obtain ⟨bound,at_i⟩ := List.getElem?_eq_some_iff.mp here
      obtain ⟨bound',at_head⟩ := List.getElem?_eq_some_iff.mp head
      have apart := names 0 i (by rwa [length_map]) (by rwa [length_map]) (Nat.pos_of_ne_zero later)
      rw [getElem_map,getElem_map,at_i,at_head] at apart
      exact apart rfl
  have encrypted : encryptSequence std content (segmentName uri) =
      if segmentName uri ≠ ".m4s".toList then some sequence else none := by
    rw [encryptSequence,mapped]
    simp only [Option.bind_some,own,extension_m4s m4s]
  rw [← first,← equal]
  constructor
  · rintro ⟨other,enc,⟨out,ran,shown⟩,_⟩
    rw [encrypted] at enc
    split at enc
    · rename_i proper
      cases enc
      cases written.symm.trans ran
      have zero_or : (segmentSequenceFromFilename (segmentName uri)).getD 0 ≤ u32Max := by
        cases named : segmentSequenceFromFilename (segmentName uri) with
        | none => exact Nat.zero_le _
        | some n => exact filename_le named
      exact ⟨proper,format_inj small zero_or (shown.unique printed)⟩
    · cases enc
  · rintro ⟨proper,same⟩
    refine ⟨sequence,by rw [encrypted,if_pos proper],⟨rewritten,written,by rw [same]; exact printed⟩,?_⟩
    exact inject_prints accepted distinct mapped member own

-- Durations kept as ffmpeg writes them, and a stable sort.
def textStd : Std Line where
  parseDuration text := if text = [] then none else some text
  showDuration text := text
  targetDuration _ := "6".toList
  hlsSegmentTargetSecs := "6.000".toList
  sortBy order entries := entries.insertionSort (fun left right => order left right ≠ .gt)
  sortBy_perm _ entries := perm_insertionSort _ entries

def numbered : List Char := "#EXTM3U\n#EXTINF:6.000,\nsegments/0000.m4s\n#EXTINF:6.000,\nsegments/0001.m4s\n".toList

theorem iv_agrees_numbered : Agree textStd numbered "/api/v1/files/f".toList "/api/v1/files/f/key".toList "key.bin".toList
    "/api/v1/files/f/init".toList true "0001.m4s".toList := by
  have accepted : parseSegmentManifest textStd numbered =
      some (["segments/0000.m4s".toList,"segments/0001.m4s".toList],["6.000".toList,"6.000".toList]) := by decide +kernel
  have name : segmentName "segments/0001.m4s".toList = "0001.m4s".toList := by decide
  rw [← name]
  refine (iv_agrees accepted (by decide) (mem_cons_of_mem _ mem_cons_self) (by decide) _ _ _ _ _).mpr ?_
  exact ⟨by decide,.inl (by decide)⟩

def lettered : List Char := "#EXTM3U\n#EXTINF:6.000,\nsegments/a.m4s\n#EXTINF:6.000,\nsegments/b.m4s\n".toList

theorem iv_disagrees : ¬∀ (D : Type) (std : Std D) (content : List Char) (files : List Line) (durations : List D) (uri : Line),
    parseSegmentManifest std content = some (files,durations) → (files.map segmentName).Nodup → uri ∈ files →
    ".m4s".toList <:+ segmentName uri → ∀ (base keyUri injectedKeyUri initUri : Line) (preferFmp4 : Bool),
    Agree std content ('/' :: base) keyUri injectedKeyUri initUri preferFmp4 (segmentName uri) := by
  intro all
  have accepted : parseSegmentManifest textStd lettered =
      some (["segments/a.m4s".toList,"segments/b.m4s".toList],["6.000".toList,"6.000".toList]) := by decide +kernel
  obtain ⟨sequence,encrypted,⟨out,written,⟨entry,member,named⟩,printed⟩,_⟩ := all Line textStd lettered _ _ "segments/b.m4s".toList
    accepted (by decide) (mem_cons_of_mem _ mem_cons_self) (by decide) [] [] [] [] true
  have one : encryptSequence textStd lettered (segmentName "segments/b.m4s".toList) = some 1 := by decide +kernel
  cases encrypted.symm.trans one
  have line := printed entry member named
  have none : (rewriteStoredPlaylist textStd lettered ['/'] [] [] true).map (fun out =>
      (keyed none false out).all (fun entry => entry.2 ≠ some (formatExtXKeyLine [] 1))) = some true := by decide +kernel
  rw [written,Option.map_some,Option.some_inj,all_eq_true] at none
  exact of_decide_eq_true (none entry member) line

end Ownly.Hls
