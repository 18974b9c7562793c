import Ownly.Hls.Encodes

-- What an attempt has put so far is still there, as long as it has the upload to
-- itself; so what it publishes is one package, and stays one until it is touched.
namespace Ownly.Hls.Encodes
open List Option KeyMap

def Phase.manifested : Phase → Bool
  | .reading => false
  | .manifests => false
  | _ => true

def Phase.complete : Phase → Bool
  | .reading => false
  | .manifests => false
  | .uploading _ _ => false
  | _ => true

def Output.covers (output : Output) : ObjectName → Bool
  | .playlist => true
  | .init => true
  | .segment index => decide (index < output.produced)
  | _ => false

structure Held (objects : Objects) (key : Nat) (written : List ObjectName) (alone : Bool) (output : Output) (phase : Phase) : Prop where
  covered : ∀ name ∈ written,output.covers name = true
  manifests : phase.manifested = true → .playlist ∈ written ∧ .init ∈ written
  segments : phase.complete = true → ∀ index < output.produced,.segment index ∈ written
  kept : alone = true → ∀ name ∈ written,objects.get name = some (output.object key name)

def Attempt.Holds (objects : Objects) (key : Nat) (attempt : Attempt) : Prop :=
  ∀ source output phase,attempt.stage = .packaging source output phase → phase ≠ .reading →
    Held objects key attempt.written attempt.alone output phase

def Standing (sys : System) : Prop :=
  ∃ (key : Nat) (output : Output),output.named = output.produced ∧ sys.row.segmentCount = some (output.produced : Int) ∧
    ∀ name,output.covers name = true → sys.objects.get name = some (output.object key name)

structure Sound (sys : System) : Prop where
  whole : sys.touched = false → Standing sys
  ready : sys.row.hlsReady = true → sys.touched = false ∨ sys.working = true
  held : ∀ key attempt,sys.attempts.get key = some attempt → attempt.Holds sys.objects key

variable {objects : Objects} {written : List ObjectName} {alone : Bool}

section Frames
variable {sys next : System} {key : Nat} {attempt after : Attempt} {name : ObjectName} {object : Object} {row' : FileRow}
  {queue' : Jobs.System} {requests' : KeyMap Nat Request} {output : Output} {attempts : KeyMap Nat Attempt} {by_ : Option Nat}

theorem working_iff : sys.working = true ↔ ∃ key attempt,sys.attempts.get key = some attempt ∧ attempt.running = true := any_iff

theorem covers_packaged (covers : output.covers name = true) : name.packaged = true := by
  cases name with
  | sourceMaster => cases covers
  | ts index => cases covers
  | exportMp4 => cases covers
  | playlist => rfl
  | init => rfl
  | segment index => rfl

theorem Held.packaged {phase : Phase}
    (held : Held objects key written alone output phase) (member : name ∈ written) : name.packaged = true :=
  covers_packaged (held.covered name member)

theorem get_overtake : (overtake attempts by_).get key =
    (attempts.get key).map (fun attempt => if some key = by_ then attempt else {attempt with alone := false}) := get_mapEntries

theorem overtake_self (found : attempts.get key = some attempt) : (overtake attempts (some key)).get key = some attempt := by
  rw [get_overtake,found]
  simp

theorem overtaken (found : (overtake attempts by_).get key = some attempt) : ∃ before,attempts.get key = some before ∧
    (before = attempt ∧ some key = by_ ∨ some key ≠ by_ ∧ attempt = {before with alone := false}) := by
  rw [get_overtake] at found
  obtain ⟨before,there,same⟩ := map_eq_some_iff.mp found
  refine ⟨before,there,?_⟩
  split at same
  · exact .inl ⟨same,by assumption⟩
  · exact .inr ⟨by assumption,same.symm⟩

theorem working_overtake (working : attempts.any (fun _ attempt => attempt.running) = true) :
    (overtake attempts by_).any (fun _ attempt => attempt.running) = true := by
  obtain ⟨key,attempt,found,running⟩ := any_iff.mp working
  refine any_iff.mpr ⟨key,if some key = by_ then attempt else {attempt with alone := false},?_,?_⟩
  · rw [get_overtake,found]
    rfl
  · split
    · exact running
    · exact running

theorem Holds.idle (idle : ∀ source output phase,attempt.stage ≠ .packaging source output phase) :
    attempt.Holds objects key := fun source output phase at_ => absurd at_ (idle source output phase)

theorem Holds.elsewhere {objects other : Objects} (holds : attempt.Holds objects key)
    (same : ∀ source output phase,attempt.stage = .packaging source output phase → phase ≠ .reading →
      ∀ name ∈ attempt.written,other.get name = objects.get name) : attempt.Holds other key := by
  intro source output phase at_ past
  have held := holds source output phase at_ past
  refine ⟨held.covered,held.manifests,held.segments,fun alone name member => ?_⟩
  rw [same source output phase at_ past name member]
  exact held.kept alone name member

theorem Holds.overtaken {other : Objects} (holds : attempt.Holds objects key) :
    ({attempt with alone := false} : Attempt).Holds other key := by
  intro source output phase at_ past
  have held := holds source output phase at_ past
  exact ⟨held.covered,held.manifests,held.segments,fun alone => by cases alone⟩

theorem Standing.elsewhere (standing : Standing sys) (count : next.row.segmentCount = sys.row.segmentCount)
    (same : ∀ name,name.packaged = true → sys.objects.contains name = true → next.objects.get name = sys.objects.get name) :
    Standing next := by
  obtain ⟨key,output,all,counted,stored⟩ := standing
  refine ⟨key,output,all,count.trans counted,fun name covers => ?_⟩
  have there := stored name covers
  have contains : sys.objects.contains name = true := by
    rw [KeyMap.contains,there]
    rfl
  rw [same name (covers_packaged covers) contains]
  exact there

section
variable (sound : Sound sys)
include sound

theorem Sound.hold (found : sys.attempts.get key = some attempt)
    (runs : attempt.running = true → after.running = true ∨ (sys.row.hlsReady = true → sys.spared key = true))
    (holds : after.Holds sys.objects key) : Sound (sys.hold key after) := by
  refine ⟨sound.whole,fun ready => ?_,fun other one there => ?_⟩
  · rcases sound.ready ready with calm | working
    · exact .inl calm
    obtain ⟨other,one,there,running⟩ := working_iff.mp working
    have elsewhere : ∀ other one,other ≠ key → sys.attempts.get other = some one → one.running = true →
        (sys.hold key after).working = true := fun other one ne there running =>
      working_iff.mpr ⟨other,one,(get_set_ne ne).trans there,running⟩
    by_cases same : other = key
    · subst same
      rw [found] at there
      cases there
      rcases runs running with still | spare
      · exact .inr (working_iff.mpr ⟨other,after,get_set_self,still⟩)
      · rcases Bool.or_eq_true_iff.mp (spare ready) with calm | left
        · exact .inl ((Bool.not_eq_true' _).mp calm)
        · obtain ⟨third,one,there,running⟩ := working_iff.mp left
          have ne : third ≠ other := by
            rintro rfl
            rw [System.ends,get_remove_self] at there
            cases there
          exact .inr (elsewhere third one ne ((get_remove_ne ne).symm.trans there) running)
    · exact .inr (elsewhere other one same there running)
  · by_cases same : other = key
    · subst same
      rw [System.hold,get_set_self] at there
      cases there
      exact holds
    · exact sound.held other one ((get_set_ne same).symm.trans there)

theorem Sound.enter (free : sys.attempts.get key = none) (idle : ∀ source output phase,after.stage ≠ .packaging source output phase) :
    Sound (sys.hold key after) := by
  refine ⟨sound.whole,fun ready => (sound.ready ready).imp id (fun working => ?_),fun other one there => ?_⟩
  · obtain ⟨other,one,there,running⟩ := working_iff.mp working
    have ne : other ≠ key := by
      rintro rfl
      rw [free] at there
      cases there
    exact working_iff.mpr ⟨other,one,(get_set_ne ne).trans there,running⟩
  · by_cases same : other = key
    · subst same
      rw [System.hold,get_set_self] at there
      cases there
      exact Holds.idle idle
    · exact sound.held other one ((get_set_ne same).symm.trans there)

theorem Sound.ends (found : sys.attempts.get key = some attempt)
    (spare : attempt.running = true → sys.row.hlsReady = true → sys.spared key = true) : Sound (sys.ends key) := by
  refine ⟨sound.whole,fun ready => ?_,fun other one there => ?_⟩
  · rcases sound.ready ready with calm | working
    · exact .inl calm
    obtain ⟨other,one,there,running⟩ := working_iff.mp working
    by_cases same : other = key
    · subst same
      rw [found] at there
      cases there
      exact (Bool.or_eq_true_iff.mp (spare running ready)).imp (Bool.not_eq_true' _).mp id
    · exact .inr (working_iff.mpr ⟨other,one,(get_remove_ne same).trans there,running⟩)
  · by_cases same : other = key
    · subst same
      rw [System.ends,get_remove_self] at there
      cases there
    · exact sound.held other one ((get_remove_ne same).symm.trans there)

theorem Sound.row (count : row'.segmentCount = sys.row.segmentCount)
    (ready : row'.hlsReady = true → sys.row.hlsReady = true ∨ sys.touched = false ∨ sys.working = true) : Sound {sys with row := row'} :=
  ⟨fun calm => (sound.whole calm).elsewhere count (fun _ _ _ => rfl),
    fun now => (ready now).elim sound.ready id,sound.held⟩

theorem Sound.queue : Sound {sys with queue := queue'} := ⟨sound.whole,sound.ready,sound.held⟩

theorem Sound.requests : Sound {sys with requests := requests'} := ⟨sound.whole,sound.ready,sound.held⟩

end

theorem put_objects : (sys.put key name object).objects = sys.objects.set name object := by
  unfold System.put
  split <;> rfl

theorem put_found (found : sys.attempts.get key = some attempt) : (sys.put key name object).attempts.get key = some attempt := by
  unfold System.put
  split
  · exact overtake_self found
  · exact found

theorem Sound.put (sound : Sound sys) (found : sys.attempts.get key = some attempt) (runs : attempt.running = true)
    (unwritten : name ∉ attempt.written) : Sound (sys.put key name object) := by
  have apart : ∀ {written : List ObjectName},name ∉ written → ∀ other ∈ written,
      (sys.objects.set name object).get other = sys.objects.get other := by
    intro written fresh other member
    refine get_set_ne ?_
    rintro rfl
    exact fresh member
  unfold System.put
  split
  · refine ⟨fun calm => (by cases calm),fun _ => .inr ?_,fun other one there => ?_⟩
    · exact working_iff.mpr ⟨key,attempt,overtake_self found,runs⟩
    · obtain ⟨before,was,⟨rfl,same⟩ | ⟨_,rfl⟩⟩ := overtaken there
      · cases same
        rw [found] at was
        cases was
        exact Holds.elsewhere (sound.held _ _ found) (fun _ _ _ _ _ => apart unwritten)
      · exact Holds.overtaken (sound.held other before was)
  · rename_i outside
    refine ⟨fun calm => ?_,fun ready => sound.ready ready,fun other one there => ?_⟩
    · refine (sound.whole calm).elsewhere rfl (fun other packaged _ => get_set_ne ?_)
      rintro rfl
      exact outside packaged
    · refine Holds.elsewhere (sound.held other one there) (fun source output phase at_ past => apart ?_)
      intro member
      exact outside ((sound.held other one there source output phase at_ past).packaged member)

theorem Sound.erase (sound : Sound sys) (working : sys.row.hlsReady = true → sys.working = true)
    (unwritten : ∀ key attempt source output phase,by_ = some key → sys.attempts.get key = some attempt →
      attempt.stage = .packaging source output phase → phase ≠ .reading → name ∉ attempt.written) : Sound (sys.erase by_ name) := by
  unfold System.erase
  split
  · refine ⟨fun calm => (by cases calm),fun ready => .inr (working_overtake (working ready)),fun other one there => ?_⟩
    obtain ⟨before,was,⟨rfl,same⟩ | ⟨_,rfl⟩⟩ := overtaken there
    · refine Holds.elsewhere (sound.held other before was) (fun source output phase at_ past written member => get_remove_ne ?_)
      rintro rfl
      exact unwritten other before source output phase same.symm was at_ past member
    · exact Holds.overtaken (sound.held other before was)
  · rename_i outside
    refine ⟨fun calm => ?_,fun ready => sound.ready ready,fun other one there => ?_⟩
    · refine (sound.whole calm).elsewhere rfl (fun other packaged present => get_remove_ne ?_)
      rintro rfl
      exact outside (by rw [packaged,present]; rfl)
    · intro source output phase at_ past
      have held := sound.held other one there source output phase at_ past
      refine ⟨held.covered,held.manifests,held.segments,fun alone written member => ?_⟩
      have stored := held.kept alone written member
      refine (get_remove_ne ?_).trans stored
      rintro rfl
      refine outside ?_
      rw [held.packaged member,KeyMap.contains,stored]
      rfl

end Frames

section Attempts
variable {sys next : System} {key : Nat} {attempt after : Attempt} {source : Source} {output : Output} {phase later : Phase}
  {stage : Stage} {reply : Reply} {name : ObjectName} {change : FileRow → FileRow} {message jobId : String} {result : Result} {now : Int}
  {skipped failed : List Nat} {index : Nat}

section
variable (sound : Sound sys) (found : sys.attempts.get key = some attempt)
include sound found

theorem Sound.turn (running : stage.running = true)
    (idle : ∀ source output phase,stage ≠ .packaging source output phase) : Sound (sys.hold key {attempt with stage := stage}) :=
  sound.hold found (fun _ => .inl running) (Holds.idle idle)

theorem Sound.fails : Sound (sys.fails key attempt message) :=
  sound.turn found rfl (fun _ _ _ same => by cases same)

theorem Sound.proceed
    (at_ : attempt.stage = .packaging source output phase) (past : phase ≠ .reading)
    (on : Held sys.objects key attempt.written attempt.alone output phase → Held sys.objects key attempt.written attempt.alone output later) :
    Sound (sys.hold key {attempt with stage := .packaging source output later}) := by
  refine sound.hold found (fun _ => .inl rfl) (fun _ _ _ same _ => ?_)
  cases same
  exact on (sound.held key attempt found _ _ _ at_ past)

end

theorem write_attempts : (sys.write reply change).attempts = sys.attempts := by
  unfold System.write
  split <;> rfl

theorem Sound.write (sound : Sound sys) (count : (change sys.row).segmentCount = sys.row.segmentCount)
    (ready : (change sys.row).hlsReady = true → sys.row.hlsReady = true ∨ sys.touched = false ∨ sys.working = true) :
    Sound (sys.write reply change) := by
  unfold System.write
  split
  · exact sound
  · exact sound.row count ready

theorem markCancelled_count (row : FileRow) : row.markCancelled.segmentCount = row.segmentCount := by
  unfold FileRow.markCancelled
  split <;> rfl

theorem markCancelled_ready (row : FileRow) : row.markCancelled.hlsReady = row.hlsReady := by
  unfold FileRow.markCancelled
  split <;> rfl

theorem restorePackage_count (row : FileRow) : (row.restorePackage message).segmentCount = row.segmentCount := by
  unfold FileRow.restorePackage
  split <;> rfl

theorem packaging_working (found : sys.attempts.get key = some attempt) (running : attempt.running = true) : sys.working = true :=
  working_iff.mpr ⟨key,attempt,found,running⟩

theorem Held.put (held : Held objects key written alone output phase)
    (covers : output.covers name = true) (here : alone = true → objects.get name = some (output.object key name))
    (manifests : later.manifested = true → phase.manifested = true ∨ .playlist ∈ written ++ [name] ∧ .init ∈ written ++ [name])
    (open_ : later.complete = false) : Held objects key (written ++ [name]) alone output later where
  covered := by
    intro other member
    rcases mem_append.mp member with old | new
    · exact held.covered other old
    · rw [mem_singleton.mp new]
      exact covers
  manifests := by
    intro past
    rcases manifests past with before | both
    · exact (held.manifests before).imp (mem_append_left _) (mem_append_left _)
    · exact both
  segments := by
    intro complete
    rw [open_] at complete
    cases complete
  kept := by
    intro still other member
    rcases mem_append.mp member with old | new
    · exact held.kept still other old
    · rw [mem_singleton.mp new]
      exact here still

theorem Sound.stored (sound : Sound sys) (found : sys.attempts.get key = some attempt)
    (at_ : attempt.stage = .packaging source output phase) (past : phase ≠ .reading) (unwritten : name ∉ attempt.written)
    (covers : output.covers name = true)
    (manifests : later.manifested = true → phase.manifested = true ∨ .playlist ∈ attempt.written ++ [name] ∧ .init ∈ attempt.written ++ [name])
    (open_ : later.complete = false) :
    Sound ((sys.put key name (output.object key name)).hold key
      {attempt with written := attempt.written ++ [name],stage := .packaging source output later}) := by
  have running : attempt.running = true := by
    rw [Attempt.running,at_]
    rfl
  have put : Sound (sys.put key name (output.object key name)) := sound.put found running unwritten
  refine put.hold (put_found found) (fun _ => .inl rfl) (fun _ _ _ same _ => ?_)
  cases same
  refine (put.held key attempt (put_found found) _ _ _ at_ past).put covers (fun _ => ?_) manifests open_
  rw [put_objects,get_set_self]

theorem uploaded_all (all : attempt.uploaded output.produced = output.produced) (under : index < output.produced) :
    .segment index ∈ attempt.written := by
  have every := length_filter_eq_length_iff.mp (all.trans length_range.symm)
  exact of_decide_eq_true (every index (mem_range.mpr under))

theorem verified_uploaded {expected uploaded failed : Nat}
    (verified : verifyHlsSegmentsInStorage objects expected uploaded failed reply = .ok ()) : uploaded = expected := by
  unfold verifyHlsSegmentsInStorage validateSegmentUploadOutcome at verified
  by_cases all : uploaded = expected ∧ failed = 0 ∧ 0 < expected
  · exact all.1
  · rw [if_neg all] at verified
    cases verified

theorem readArtifacts_kept (sound : Sound sys) (found : sys.attempts.get key = some attempt)
    (fired : readArtifacts sys key attempt source output reply = some next) : Sound next := by
  unfold readArtifacts at fired
  split at fired
  · cases fired
    refine sound.hold found (fun _ => .inl rfl) (fun _ _ _ same _ => ?_)
    cases same
    exact ⟨fun _ member => (by cases member),fun past => (by cases past),fun past => (by cases past),fun _ _ member => (by cases member)⟩
  · cases fired
    exact sound.fails found
  · cases fired

theorem manifested_open : (manifested written).complete = false := by
  unfold manifested
  split <;> rfl

theorem manifested_both (past : (manifested written).manifested = true) : .playlist ∈ written ∧ .init ∈ written := by
  unfold manifested at past
  split at past
  · assumption
  · cases past

section
variable (sound : Sound sys) (found : sys.attempts.get key = some attempt)
include sound found

theorem uploadManifests_kept (at_ : attempt.stage = .packaging source output .manifests)
    (fired : uploadManifests sys key attempt source output reply = some next) : Sound next := by
  have running : attempt.running = true := by
    rw [Attempt.running,at_]
    rfl
  unfold uploadManifests at fired
  split at fired
  · rename_i name outcome
    split at fired
    · rename_i fresh
      have covers : output.covers name = true := by
        rcases fresh.1 with rfl | rfl
        · rfl
        · rfl
      cases outcome with
      | stored =>
        cases fired
        exact sound.stored found at_ (by simp) fresh.2 covers (fun past => .inr (manifested_both past)) manifested_open
      | unanswered =>
        cases fired
        exact sound.put found running fresh.2
      | refused error =>
        cases fired
        exact sound.fails found
    · cases fired
  · cases fired

section
variable (at_ : attempt.stage = .packaging source output (.uploading skipped failed))
include at_

theorem joinSegments_kept
    (fired : joinSegments sys key attempt source output skipped failed reply = some next) : Sound next := by
  unfold joinSegments at fired
  split at fired
  · cases fired
  · split at fired
    · rename_i verified
      cases fired
      have all := verified_uploaded verified
      refine sound.proceed found at_ (by simp) (fun held => ⟨held.covered,fun _ => held.manifests rfl,fun _ index under => ?_,held.kept⟩)
      exact uploaded_all all under
    · split at fired
      · cases fired
        exact sound.turn found rfl (fun _ _ _ same => by cases same)
      · cases fired
        exact sound.turn found rfl (fun _ _ _ same => by cases same)

theorem uploadHlsSegments_kept
    (fired : uploadHlsSegments sys key attempt source output skipped failed reply = some next) : Sound next := by
  have running : attempt.running = true := by
    rw [Attempt.running,at_]
    rfl
  have proceed : ∀ skipped' failed',Sound (sys.hold key {attempt with stage := .packaging source output (.uploading skipped' failed')}) :=
    fun _ _ => sound.proceed found at_ (by simp) (fun held => ⟨held.covered,fun _ => held.manifests rfl,fun past => (by cases past),held.kept⟩)
  unfold uploadHlsSegments at fired
  split at fired
  · rename_i index outcome
    split at fired
    · rename_i pending
      have pending := of_decide_eq_true pending
      cases outcome with
      | stored =>
        cases fired
        exact sound.stored found at_ (by simp) pending.2.1 (decide_eq_true pending.1) (fun _ => .inl rfl) rfl
      | unanswered =>
        cases fired
        exact sound.put found running pending.2.1
      | refused error =>
        cases fired
        exact proceed _ _
    · cases fired
  · split at fired
    · cases fired
      exact proceed _ _
    · cases fired
  · exact joinSegments_kept sound found at_ fired
  · exact joinSegments_kept sound found at_ fired
  · cases fired

end

theorem askCancelled_kept (at_ : attempt.stage = .packaging source output .verified) : Sound (askCancelled sys key attempt source output reply) := by
  unfold askCancelled
  split
  · split
    · exact sound.turn found rfl (fun _ _ _ same => by cases same)
    · exact sound.turn found rfl (fun _ _ _ same => by cases same)
  · exact sound.proceed found at_ (by simp) (fun held => ⟨held.covered,fun _ => held.manifests rfl,fun _ => held.segments rfl,held.kept⟩)

end

theorem stale_uncovered (stale_ : stale attempt output name = true) : output.covers name = false := by
  unfold stale at stale_
  split at stale_
  · have bounds := of_decide_eq_true stale_
    exact decide_eq_false (by omega)
  · rfl
  · cases stale_

theorem purgeStale_kept (sound : Sound sys) (found : sys.attempts.get key = some attempt)
    (at_ : attempt.stage = .packaging source output .purgingStale)
    (fired : purgeStaleHlsSegments sys key attempt source output reply = some next) : Sound next := by
  have running : attempt.running = true := by
    rw [Attempt.running,at_]
    rfl
  unfold purgeStaleHlsSegments at fired
  split at fired
  · split at fired
    · rename_i stale_
      cases fired
      refine sound.erase (fun _ => packaging_working found running) (fun other one source' output' phase' same there stage past member => ?_)
      cases same
      rw [found] at there
      cases there
      rw [at_] at stage
      cases stage
      have covers := (sound.held key attempt found _ _ _ at_ past).covered _ member
      rw [stale_uncovered stale_] at covers
      cases covers
    · cases fired
  · cases fired
    exact sound.proceed found at_ (by simp) (fun held => ⟨held.covered,fun _ => held.manifests rfl,fun _ => held.segments rfl,held.kept⟩)
  · cases fired

theorem persist_kept (sound : Sound sys) (found : sys.attempts.get key = some attempt)
    (at_ : attempt.stage = .packaging source output .persisting)
    (fired : persistSourceMaster sys key attempt source output reply = some next) : Sound next := by
  have running : attempt.running = true := by
    rw [Attempt.running,at_]
    rfl
  have unwritten : .sourceMaster ∉ attempt.written := by
    intro member
    cases (sound.held key attempt found _ _ _ at_ (by simp)).covered _ member
  have put : Sound (sys.put key .sourceMaster (output.object key .sourceMaster)) := sound.put found running unwritten
  have proceed : ∀ {sys : System},Sound sys → sys.attempts.get key = some attempt → ∀ master,
      Sound (sys.hold key {attempt with stage := .packaging source output (.publishing master)}) :=
    fun sound found _ => sound.proceed found at_ (by simp)
      (fun held => ⟨held.covered,fun _ => held.manifests rfl,fun _ => held.segments rfl,held.kept⟩)
  unfold persistSourceMaster at fired
  split at fired
  · split at fired
    · cases fired
      exact proceed put (put_found found) true
    · cases fired
  · split at fired
    · cases fired
      exact put
    · cases fired
  · split at fired
    · cases fired
      exact proceed sound found _
    · cases fired
  · split at fired
    · cases fired
    · cases fired
      exact proceed sound found _
  · cases fired
    exact proceed sound found _
  · cases fired

theorem Held.whole (held : Held objects key attempt.written true output phase) (complete : phase.complete = true)
    (manifested : phase.manifested = true) (covers : output.covers name = true) : objects.get name = some (output.object key name) := by
  refine held.kept rfl name ?_
  cases name with
  | playlist => exact (held.manifests manifested).1
  | init => exact (held.manifests manifested).2
  | segment index => exact held.segments complete index (of_decide_eq_true covers)
  | ts index => cases covers
  | sourceMaster => cases covers
  | exportMp4 => cases covers

section
variable (sound : Sound sys) (found : sys.attempts.get key = some attempt)
include sound found

theorem publish_kept {master : Bool}
    (at_ : attempt.stage = .packaging source output (.publishing master)) (cares : attempt.cares sys key reply = true)
    (fired : publish sys key attempt output master reply = some next) : Sound next := by
  unfold publish at fired
  split at fired
  · cases fired
    simp only [Attempt.cares,at_] at cares
    obtain ⟨alone,all⟩ := Bool.and_eq_true_iff.mp cares
    have held := sound.held key attempt found _ _ _ at_ (by simp)
    rw [alone] at held
    have published : Sound {sys with row := sys.row.publish output.produced master,touched := false} :=
      ⟨fun _ => ⟨key,output,of_decide_eq_true all,rfl,fun _ covers => held.whole rfl rfl covers⟩,fun _ => .inl rfl,sound.held⟩
    exact published.turn found rfl (fun _ _ _ same => by cases same)
  · cases fired
    exact sound.fails found
  · cases fired

theorem package_kept
    (at_ : attempt.stage = .packaging source output phase) (cares : attempt.cares sys key reply = true)
    (fired : package sys key attempt source output reply phase = some next) : Sound next := by
  cases phase with
  | reading => exact readArtifacts_kept sound found fired
  | manifests => exact uploadManifests_kept sound found at_ fired
  | uploading skipped failed => exact uploadHlsSegments_kept sound found at_ fired
  | verified =>
    cases fired
    exact askCancelled_kept sound found at_
  | purgingStale => exact purgeStale_kept sound found at_ fired
  | invalidating =>
    cases fired
    have written : Sound (sys.write reply FileRow.invalidateDownloadExport) := sound.write rfl .inl
    refine written.proceed (by rw [write_attempts]; exact found) at_ (by simp) ?_
    exact fun held => ⟨held.covered,fun _ => held.manifests rfl,fun _ => held.segments rfl,held.kept⟩
  | persisting => exact persist_kept sound found at_ fired
  | publishing master => exact publish_kept sound found at_ cares fired

theorem askJob_kept {goesOn : Stage}
    (idle : attempt.running = false) (still : ∀ source output phase,goesOn ≠ .packaging source output phase)
    (fired : askJob sys key now attempt goesOn reply = some next) : Sound next := by
  have over_ : ∀ {stage : Stage},(∀ source output phase,stage ≠ .packaging source output phase) →
      Sound (sys.hold key {attempt with stage := stage}) := by
    intro stage unpackaged
    refine sound.hold found (fun running => ?_) (Holds.idle unpackaged)
    rw [idle] at running
    cases running
  unfold askJob at fired
  split at fired
  · split at fired
    · cases fired
      have row : Sound {sys with row := sys.row.markCancelled} :=
        sound.row (markCancelled_count _) (fun ready => .inl ((markCancelled_ready _).symm.trans ready))
      have finalized : Sound (sys.finalize now attempt.jobId) := row.queue
      refine finalized.ends found (fun running => ?_)
      rw [idle] at running
      cases running
    · cases fired
      exact over_ still
  · cases fired
    exact over_ (fun _ _ _ same => by cases same)
  · cases fired

end

section
variable (sound : Sound sys) (found : sys.attempts.get key = some attempt)
include sound found

theorem resolve_kept (fired : resolveEncodeVideoSource sys key attempt reply = some next) : Sound next := by
  unfold resolveEncodeVideoSource at fired
  split at fired
  · split at fired
    · cases fired
      exact sound.turn found rfl (fun _ _ _ same => by cases same)
    · cases fired
  · split at fired
    · cases fired
      exact sound.turn found rfl (fun _ _ _ same => by cases same)
    · cases fired
      exact sound.fails found
  · cases fired

theorem start_kept : Sound (start sys key attempt source reply) := by
  unfold start
  split
  · split
    · exact sound.turn found rfl (fun _ _ _ same => by cases same)
    · exact sound.turn found rfl (fun _ _ _ same => by cases same)
  · exact sound.turn found rfl (fun _ _ _ same => by cases same)

theorem restore_kept :
    Sound (restore sys key attempt message result reply) := by
  unfold restore
  split
  · exact sound.turn found rfl (fun _ _ _ same => by cases same)
  · exact sound.turn found rfl (fun _ _ _ same => by cases same)

theorem work_kept (cares : attempt.cares sys key reply = true)
    (fired : work sys key now attempt reply attempt.stage = some next) : Sound next := by
  have closes : attempt.running = false → ∀ update,Sound ((sys.update update).ends key) := by
    intro idle update
    have updated : Sound (sys.update update) := sound.queue
    refine updated.ends found (fun running => ?_)
    rw [idle] at running
    cases running
  obtain ⟨jobId,prior,written,alone,stage⟩ := attempt
  cases stage with
  | asking =>
    exact askJob_kept sound found rfl (fun _ _ _ same => by cases same) fired
  | loading =>
    cases fired
    exact sound.hold found (fun _ => .inl rfl) (Holds.idle (fun _ _ _ same => by cases same))
  | resolving =>
    exact resolve_kept sound found fired
  | starting source =>
    cases fired
    exact start_kept sound found
  | marking source =>
    cases fired
    exact sound.turn found rfl (fun _ _ _ same => by cases same)
  | marked source status =>
    cases fired
    have written : Sound (sys.write reply (fun row => {row with status := some status,error := none})) := sound.write rfl .inl
    exact written.turn (by rw [write_attempts]; exact found) rfl (fun _ _ _ same => by cases same)
  | keying source =>
    simp only [work] at fired
    split at fired
    · cases fired
      exact sound.turn found rfl (fun _ _ _ same => by cases same)
    · cases fired
      exact sound.fails found
    · cases fired
  | transcoding source =>
    simp only [work] at fired
    split at fired
    · cases fired
      refine sound.hold found (fun _ => .inl rfl) (fun _ _ _ same past => ?_)
      cases same
      exact absurd rfl past
    · cases fired
      exact sound.fails found
    · cases fired
  | packaging source output phase =>
    exact package_kept sound found rfl cares fired
  | failing message purge result =>
    cases fired
    have written : Sound (sys.write reply (FileRow.markFailed message)) := sound.write rfl .inl
    refine written.turn (by rw [write_attempts]; exact found) ?_ ?_
    · cases purge <;> rfl
    · cases purge <;> exact fun _ _ _ same => by cases same
  | purging result =>
    simp only [work] at fired
    split at fired
    · cases fired
      refine sound.erase (fun _ => packaging_working found rfl) (fun other one source output phase same there stage => ?_)
      cases same
      rw [found] at there
      cases there
      cases stage
    · cases fired
      exact sound.turn found rfl (fun _ _ _ same => by cases same)
  | restoring message result =>
    cases fired
    exact restore_kept sound found
  | reviving message result =>
    cases fired
    have written : Sound (sys.write reply (FileRow.restorePackage message)) :=
      sound.write (restorePackage_count _) (fun _ => .inr (.inr (packaging_working found rfl)))
    exact written.turn (by rw [write_attempts]; exact found) rfl (fun _ _ _ same => by cases same)
  | leaving result =>
    cases fired
    simp only [Attempt.cares] at cares
    refine sound.hold found (fun _ => .inr (fun ready => ?_)) (Holds.idle (fun _ _ _ same => by cases same))
    rw [ready] at cares
    exact cares
  | settling result =>
    exact askJob_kept sound found rfl (fun _ _ _ same => by cases same) fired
  | closing result =>
    simp only [work] at fired
    split at fired
    · cases fired
      exact sound.hold found (fun running => nomatch running) (Holds.idle (fun _ _ _ same => by cases same))
    · cases fired
      exact closes rfl _
  | erring message =>
    simp only [work] at fired
    split at fired
    · cases fired
      exact sound.ends found (fun running => nomatch running)
    · cases fired
      exact closes rfl _

end

end Attempts

section Runs
variable {sys next final : System} {key : Nat} {request : Request} {reply : Reply} {event : Event} {now : Int}

theorem serve_kept (sound : Sound sys) (cares : request.cares sys reply = true)
    (fired : serve sys key now request request.kind request.phase reply = some next) : Sound next := by
  have cancelled : Sound {sys with row := sys.row.markCancelled} :=
    sound.row (markCancelled_count _) (fun ready => .inl ((markCancelled_ready _).symm.trans ready))
  unfold Request.cares at cares
  unfold serve at fired
  split at fired
  · split at fired <;> (cases fired; exact sound.requests)
  · cases fired
    exact sound.queue.requests
  · split at fired
    · cases fired
      exact cancelled.requests
    · cases fired
      exact sound.requests
  · rename_i kind phase
    cases fired
    rw [kind,phase] at cares
    refine sound.erase (fun ready => ?_) (fun _ _ _ _ _ same => by cases same)
    rw [ready] at cares
    exact cares
  · cases fired
    exact sound.requests
  · split at fired <;> (cases fired; exact sound.requests)
  · cases fired
    exact sound.queue.requests
  · rename_i kind phase
    rw [kind,phase] at cares
    split at fired
    · rename_i here
      cases fired
      have restored : Sound {sys with row := sys.row.restoreRebuilding} := by
        refine sound.row rfl (fun _ => .inr ?_)
        simp only [here.2,Bool.not_true,Bool.false_or,Bool.or_eq_true,Bool.not_eq_true'] at cares
        exact cares
      exact restored.requests
    · cases fired
      exact sound.requests
  · split at fired
    · cases fired
      exact cancelled.requests
    · cases fired
      exact sound.requests
  · split at fired <;> (cases fired; exact sound.requests)
  · split at fired <;> (cases fired; exact sound.requests)
  · cases fired
    have hidden : Sound {sys with row := sys.row.hide} := sound.row rfl (fun ready => by cases ready)
    exact hidden.queue.requests
  · cases fired

theorem withdraw_count (message : String) (row : FileRow) : (row.withdraw message).segmentCount = row.segmentCount := by
  unfold FileRow.withdraw
  split <;> rfl

theorem withdraw_ready (message : String) (row : FileRow) : (row.withdraw message).hlsReady = false := by
  unfold FileRow.withdraw
  split
  · rfl
  · exact Bool.not_eq_true _ |>.mp (by assumption)

theorem recoverOrphan_kept (spoolOk : Bool) (row : FileRow) :
    (row.recoverOrphan spoolOk).segmentCount = row.segmentCount ∧ (row.recoverOrphan spoolOk).hlsReady = row.hlsReady := by
  unfold FileRow.recoverOrphan
  split
  · exact ⟨rfl,rfl⟩
  · split
    · exact ⟨rfl,rfl⟩
    · split
      · exact ⟨rfl,rfl⟩
      · exact ⟨rfl,rfl⟩

theorem step_kept (sound : Sound sys) (cared : Cared sys event) (fired : step sys event = some next) : Sound next := by
  cases event with
  | queue event =>
    obtain ⟨_,_,rfl⟩ := map_eq_some_iff.mp fired
    exact sound.queue
  | claim now workerId skipped =>
    simp only [step] at fired
    split at fired
    · cases fired
      exact sound
    · split at fired
      · rename_i free
        cases fired
        refine Sound.enter sound.queue ?_ (fun _ _ _ same => by cases same)
        exact not_isSome_iff_eq_none.mp (by simpa [KeyMap.contains] using free.2.2)
      · cases fired
        exact sound.queue
  | work key now reply =>
    obtain ⟨attempt,found,fired⟩ := bind_eq_some_iff.mp fired
    rw [Cared,cares,found] at cared
    exact work_kept sound found cared fired
  | lose key =>
    obtain ⟨attempt,found,rfl⟩ := map_eq_some_iff.mp fired
    rw [Cared,cares,found] at cared
    refine sound.ends found (fun running ready => ?_)
    simpa [running,ready] using cared
  | request key kind userId =>
    simp only [step] at fired
    split at fired
    · cases fired
    · cases fired
      exact sound.requests
  | serve key now reply =>
    obtain ⟨request,found,fired⟩ := bind_eq_some_iff.mp fired
    rw [Cared,cares,found] at cared
    exact serve_kept sound cared fired
  | drop key =>
    obtain ⟨_,_,rfl⟩ := map_eq_some_iff.mp fired
    exact sound.requests
  | withdraw message =>
    cases fired
    refine sound.row (withdraw_count message sys.row) (fun ready => ?_)
    rw [withdraw_ready] at ready
    cases ready
  | recoverOrphan spoolOk =>
    cases fired
    obtain ⟨count,ready⟩ := recoverOrphan_kept spoolOk sys.row
    exact sound.row count (fun now => .inl (ready.symm.trans now))

theorem inserted_sound (fileId userId name : String) : Sound (inserted fileId userId name) :=
  ⟨fun calm => (by cases calm),fun ready => (by cases ready),fun _ _ there => (by cases there)⟩

theorem Sound.coherent (sound : Sound sys) : Coherent sys := by
  intro ready idle
  have calm : sys.touched = false := by
    rcases sound.ready ready with calm | working
    · exact calm
    · rw [idle] at working
      cases working
  obtain ⟨key,output,all,counted,stored⟩ := sound.whole calm
  refine ⟨key,(List.range output.named).map .segment,stored .playlist rfl,?_,fun name member => ?_,?_⟩
  · rw [stored .init rfl]
    rfl
  · obtain ⟨index,under,rfl⟩ := mem_map.mp member
    rw [stored (.segment index) (decide_eq_true (by rw [← all]; exact mem_range.mp under))]
    rfl
  · rw [counted,length_map,length_range,all]

theorem ready_coherent (fileId userId name : String) (events : List Event) (final : System)
    (ran : Schedule.run step (inserted fileId userId name) events = some final)
    (cared : Schedule.Along step Cared (inserted fileId userId name) events) : Coherent final := by
  have sound : Sound final := Schedule.run_along (fun _ _ _ held good fired => step_kept held good fired) (inserted_sound fileId userId name) cared ran
  exact sound.coherent

end Runs

section Videos

def one : Output := ⟨1,1,Nat.le_refl 1⟩

def start_ : System := inserted "v" "ann" "v.mp4"

def uploads : List Event :=
  [Event.queue (.enqueue ⟨"ann",.hlsEncode,"v.mp4",some "file",some "v","/tmp/v"⟩),.queue (.advance 0 1 "job"),.queue (.advance 0 1 "job"),
   .queue (.advance 0 1 "job")]

def encodes (key : Nat) (source : Source) : List Event :=
  [Event.claim 2 "worker" [],.work key 2 .done,.work key 2 .done,.work key 2 (.found source),.work key 2 .done,.work key 2 .done,
   .work key 2 .done,.work key 3 .done,.work key 3 (.encoded one),.work key 4 .done,.work key 5 (.put .playlist .stored),
   .work key 5 (.put .init .stored)]

def publishes (key : Nat) (master : Reply) : List Event :=
  [Event.work key 6 (.put (.segment 0) .stored),.work key 7 .done,.work key 7 .done,.work key 7 .done,.work key 7 .done,.work key 7 master,
   .work key 8 .done,.work key 8 .done,.work key 8 .done,.work key 8 .done]

def rebuilds : List Event :=
  [Event.request 0 .reprocess "ann",.serve 0 9 .done,.serve 0 9 .done,.serve 0 9 .done,.queue (.advance 1 9 "rebuild"),
   .queue (.advance 1 9 "rebuild"),.queue (.advance 1 9 "rebuild")]

def halfway : List Event := uploads ++ encodes 0 .spool ++ publishes 0 (.put .sourceMaster .stored) ++ rebuilds ++ encodes 1 .master

theorem ready_coherent_rebuilt : ∃ final,Schedule.run step start_ (halfway ++ publishes 1 .done) = some final ∧ Coherent final := by
  have goes : (Schedule.run step start_ (halfway ++ publishes 1 .done)).isSome = true := by decide +kernel
  obtain ⟨final,ran⟩ := isSome_iff_exists.mp goes
  exact ⟨final,ran,ready_coherent "v" "ann" "v.mp4" _ final ran (by decide +kernel)⟩

def cancelled : List Event :=
  [Event.request 0 .cancelReprocess "ann",.serve 0 10 .done,.serve 0 10 .done,.serve 0 10 .done,
   .work 1 11 (.put (.segment 0) (.refused "no connection")),.work 1 12 .done,.work 1 12 .done,.work 1 12 .done,.work 1 12 .done]

theorem ready_mixed : ∃ final,Schedule.run step start_ (halfway ++ cancelled) = some final ∧ ¬Coherent final := by
  obtain ⟨final,ran,ready,idle,segments,first⟩ : ∃ final,Schedule.run step start_ (halfway ++ cancelled) = some final ∧
      final.row.hlsReady = true ∧ final.working = false ∧ final.objects.get .playlist = some ⟨1,[.segment 0]⟩ ∧
      final.objects.get (.segment 0) = some ⟨0,[]⟩ := Schedule.reached_of_any (by decide +kernel)
  refine ⟨final,ran,fun coherent => ?_⟩
  obtain ⟨key,names,playlist,_,stored,_⟩ := coherent ready idle
  rw [segments] at playlist
  cases playlist
  have mixed := stored (.segment 0) mem_cons_self
  rw [first] at mixed
  cases mixed

end Videos

end Ownly.Hls.Encodes
