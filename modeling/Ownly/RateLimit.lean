import Ownly.AppError
import Mathlib.Data.List.Basic
import Mathlib.Algebra.Group.Nat.Defs

-- backend/src/rate_limit.rs, on one key. Instants and durations are nanoseconds.
namespace Ownly.RateLimit
open List

structure PerKeyRateLimiter where
  max : Nat
  window : Nat

structure RateLimitSnapshot where
  limit : Nat
  used : Nat
  remaining : Nat
  windowSecs : Nat
  retryAfterSecs : Option Nat

def second : Nat := 1000000000

-- `duration_since` is zero for a later instant.
def active (limiter : PerKeyRateLimiter) (now : Nat) (entries : List Nat) : List Nat :=
  entries.filter (fun t => decide (now - t < limiter.window))

-- `as_secs().max(1)`
def retryAfter (limiter : PerKeyRateLimiter) (now oldest : Nat) : Nat := max ((limiter.window - (now - oldest)) / second) 1

-- A key that is not there has no entries.
def snapshot (limiter : PerKeyRateLimiter) (entries : List Nat) (now : Nat) : RateLimitSnapshot :=
  let live := active limiter now entries
  {limit := limiter.max
   used := live.length
   remaining := limiter.max - live.length
   windowSecs := limiter.window / second
   retryAfterSecs := if limiter.max ≤ live.length then live.min?.map (retryAfter limiter now) else none}

def enforce (limiter : PerKeyRateLimiter) (entries : List Nat) (now : Nat) : List Nat × Except AppError Unit :=
  let live := active limiter now entries
  if limiter.max ≤ live.length then
    (live,.error (match live.min? with
      | none => .internal "rate limit entries empty at cap"
      | some oldest => .rateLimited (retryAfter limiter now oldest)))
  else (live ++ [now],.ok ())

inductive Call where
  | enforce
  | snapshot
  -- no call
  | pause

inductive Answer where
  | enforced (result : Except AppError Unit)
  | shown (snapshot : RateLimitSnapshot)
  | none

def Answer.accepts : Answer → Bool
  | .enforced (.ok _) => true
  | _ => false

def Answer.retryAfterSecs : Answer → Option Nat
  | .enforced (.error (.rateLimited secs)) => some secs
  | .shown snapshot => snapshot.retryAfterSecs
  | _ => .none

-- `accepted` has the instants of all accepted calls.
structure State where
  clock : Nat
  entries : List Nat
  accepted : List Nat

def answer (limiter : PerKeyRateLimiter) (entries : List Nat) (now : Nat) : Call → Answer
  | .enforce => .enforced (enforce limiter entries now).2
  | .snapshot => .shown (snapshot limiter entries now)
  | .pause => .none

-- A call some time after the one before.
def State.call (limiter : PerKeyRateLimiter) (s : State) (delay : Nat) (which : Call) : State where
  clock := s.clock + delay
  entries := match which with
    | .enforce => (enforce limiter s.entries (s.clock + delay)).1
    | _ => s.entries
  accepted := if (answer limiter s.entries (s.clock + delay) which).accepts then s.accepted ++ [s.clock + delay] else s.accepted

def State.run (limiter : PerKeyRateLimiter) (s : State) (calls : List (Nat × Call)) : State :=
  calls.foldl (fun s c => s.call limiter c.1 c.2) s

def start : State := ⟨0,[],[]⟩

structure Sound (limiter : PerKeyRateLimiter) (s : State) : Prop where
  same : ∀ now, s.clock ≤ now → active limiter now s.entries = active limiter now s.accepted
  past : ∀ t ∈ s.accepted, t ≤ s.clock
  bounded : ∀ first, (s.accepted.filter (fun t => decide (first ≤ t ∧ t < first + limiter.window))).length ≤ limiter.max

-- With no call accepted in between, the one at the announced instant is.
def Kept (limiter : PerKeyRateLimiter) (s : State) (retry : Nat) : Prop :=
  ∀ calls, (s.run limiter calls).clock ≤ s.clock + retry * second → (s.run limiter calls).accepted = s.accepted →
    (answer limiter (s.run limiter calls).entries (s.clock + retry * second) .enforce).accepts = true

-- Whatever is called next, the same calls are accepted and get the same answers.
def Alike (limiter : PerKeyRateLimiter) (s t : State) : Prop :=
  ∀ calls, (s.run limiter calls).accepted = (t.run limiter calls).accepted ∧
    ∀ delay which, answer limiter (s.run limiter calls).entries ((s.run limiter calls).clock + delay) which =
      answer limiter (t.run limiter calls).entries ((t.run limiter calls).clock + delay) which

-- The oldest call in the window is a whole number of seconds old, or leaves it within one.
def Whole (limiter : PerKeyRateLimiter) (accepted : List Nat) (now : Nat) : Prop :=
  ∀ oldest, (active limiter now accepted).min? = some oldest → second ∣ now - oldest ∨ limiter.window - (now - oldest) ≤ second

variable {limiter : PerKeyRateLimiter} {s t : State} {delay now later : Nat} {which : Call} {entries : List Nat} {calls : List (Nat × Call)}

theorem active_active (after : now ≤ later) (entries : List Nat) :
    active limiter later (active limiter now entries) = active limiter later entries := by
  rw [active,active,filter_filter]
  refine filter_congr (fun t _ => ?_)
  rw [← Bool.decide_and,decide_eq_decide]
  omega

theorem answer_active (same : active limiter now entries = active limiter now s.accepted) :
    answer limiter entries now which = answer limiter s.accepted now which := by
  cases which <;> simp only [answer,enforce,snapshot,same]

theorem accepts_iff : (answer limiter entries now which).accepts = true ↔
    which = .enforce ∧ (active limiter now entries).length < limiter.max := by
  cases which with
  | enforce =>
    simp only [answer,enforce]
    split <;> simp_all [Answer.accepts]
  | snapshot => simp [answer,Answer.accepts]
  | pause => simp [answer,Answer.accepts]

theorem call_sound (sound : Sound limiter s) (delay : Nat) (which : Call) : Sound limiter (s.call limiter delay which) := by
  have older : ∀ t ∈ s.accepted, t ≤ s.clock + delay := fun t member => Nat.le_add_right_of_le (sound.past t member)
  have same := fun now (after : s.clock + delay ≤ now) => sound.same now (Nat.le_of_add_right_le after)
  cases which with
  | pause => exact ⟨same,older,sound.bounded⟩
  | snapshot => exact ⟨same,older,sound.bounded⟩
  | enforce =>
    by_cases full : limiter.max ≤ (active limiter (s.clock + delay) s.entries).length
    · simp only [State.call,answer,enforce,full,if_true,Answer.accepts,Bool.false_eq_true,if_false]
      exact ⟨fun now after => (active_active after _).trans (same now after),older,sound.bounded⟩
    · simp only [State.call,answer,enforce,full,if_true,Answer.accepts,if_false]
      refine ⟨fun now after => ?_,fun t member => ?_,fun first => ?_⟩
      · have old := (active_active after s.entries).trans (same now after)
        exact (filter_append ..).trans ((congrArg (· ++ _) old).trans (filter_append ..).symm)
      · rcases mem_append.mp member with old | new
        · exact older t old
        · exact Nat.le_of_eq (mem_singleton.mp new)
      · rw [filter_append,length_append]
        by_cases inside : first ≤ s.clock + delay ∧ s.clock + delay < first + limiter.window
        · rw [same _ (Nat.le_refl _)] at full
          have fewer : (s.accepted.filter (fun t => decide (first ≤ t ∧ t < first + limiter.window))).length ≤
              (active limiter (s.clock + delay) s.accepted).length := by
            refine (monotone_filter_right _ (fun t within => ?_)).length_le
            rw [decide_eq_true_iff] at within ⊢
            omega
          have one := length_filter_le (fun t => decide (first ≤ t ∧ t < first + limiter.window)) [s.clock + delay]
          rw [length_singleton] at one
          omega
        · have none_ : [s.clock + delay].filter (fun t => decide (first ≤ t ∧ t < first + limiter.window)) = [] := by simpa using inside
          rw [none_]
          exact sound.bounded first

theorem run_sound (sound : Sound limiter s) (calls : List (Nat × Call)) : Sound limiter (s.run limiter calls) := by
  induction calls generalizing s with
  | nil => exact sound
  | cons c rest ih => exact ih (call_sound sound c.1 c.2)

theorem start_sound (limiter : PerKeyRateLimiter) : Sound limiter start := ⟨fun _ _ => rfl,nofun,fun _ => Nat.zero_le _⟩

theorem Sound.full (sound : Sound limiter s) (after : s.clock ≤ now) : (active limiter now s.accepted).length ≤ limiter.max := by
  refine le_of_eq_of_le (congrArg List.length (filter_congr (fun t member => ?_))) (sound.bounded (now + 1 - limiter.window))
  have bound := sound.past t member
  rw [decide_eq_decide]
  omega

section
variable (sound : Sound limiter s) (sound' : Sound limiter t) (clock : s.clock = t.clock)
include sound sound' clock

-- What is answered hangs on the accepted calls alone.
theorem alike_answer (accepted : s.accepted = t.accepted)
    (delay : Nat) (which : Call) :
    answer limiter s.entries (s.clock + delay) which = answer limiter t.entries (t.clock + delay) which := by
  rw [answer_active (sound.same _ (Nat.le_add_right _ _)),answer_active (sound'.same _ (Nat.le_add_right _ _)),clock,accepted]

theorem alike_run (accepted : s.accepted = t.accepted) : Alike limiter s t := by
  intro calls
  induction calls generalizing s t with
  | nil => exact ⟨accepted,alike_answer sound sound' clock accepted⟩
  | cons c rest ih =>
    refine ih (call_sound sound c.1 c.2) (call_sound sound' c.1 c.2) (congrArg (· + c.1) clock) ?_
    have told := alike_answer sound sound' clock accepted c.1 c.2
    simp only [State.call,told,accepted]
    rw [clock]

end

theorem retry_some (positive : 1 ≤ limiter.max) {r : Nat} (told : (answer limiter entries now which).retryAfterSecs = some r) :
    limiter.max ≤ (active limiter now entries).length ∧
      ∃ oldest, (active limiter now entries).min? = some oldest ∧ retryAfter limiter now oldest = r := by
  cases which with
  | pause => cases told
  | snapshot =>
    simp only [answer,snapshot,Answer.retryAfterSecs] at told
    split at told
    · next full => exact ⟨full,Option.map_eq_some_iff.mp told⟩
    · cases told
  | enforce =>
    simp only [answer,enforce] at told
    split at told
    · next full =>
      refine ⟨full,?_⟩
      cases oldest : (active limiter now entries).min? with
      | none =>
        rw [min?_eq_none_iff.mp oldest] at full
        exact absurd full (Nat.not_le.mpr positive)
      | some o =>
        simp only [oldest,Answer.retryAfterSecs,Option.some.injEq] at told
        exact ⟨o,rfl,told⟩
    · cases told

theorem retry_late_iff {window age : Nat} (whole : second ∣ window) (young : age < window) :
    window ≤ age + max ((window - age) / second) 1 * second ↔ second ∣ age ∨ window - age ≤ second := by
  have parts := Nat.div_add_mod (window - age) second
  have small := Nat.mod_lt (window - age) (show 0 < second by decide)
  rw [← Nat.dvd_sub_iff_right (Nat.le_of_lt young) whole,Nat.dvd_iff_mod_eq_zero]
  generalize (window - age) / second = q at parts ⊢
  rcases Nat.eq_zero_or_pos q with rfl | more
  · rw [Nat.max_eq_right (Nat.zero_le 1)]
    omega
  · have one : second * 1 ≤ second * q := Nat.mul_le_mul_left _ more
    rw [Nat.max_eq_left more,Nat.mul_comm q]
    omega

theorem kept_iff (sound : Sound limiter s) (positive : 1 ≤ limiter.max) (whole : second ∣ limiter.window) {r : Nat}
    (told : (answer limiter s.entries (s.clock + delay) which).retryAfterSecs = some r) :
    Kept limiter (s.call limiter delay which) r ↔ Whole limiter s.accepted (s.clock + delay) := by
  have after := call_sound sound delay which
  rw [answer_active (sound.same _ (Nat.le_add_right _ _))] at told
  obtain ⟨full,oldest,least,rfl⟩ := retry_some positive told
  have most := sound.full (Nat.le_add_right s.clock delay)
  have refused : (answer limiter s.entries (s.clock + delay) which).accepts = false := by
    rw [answer_active (sound.same _ (Nat.le_add_right _ _)),← Bool.not_eq_true,accepts_iff]
    exact fun taken => absurd taken.2 (Nat.not_lt.mpr full)
  have silent : (s.call limiter delay which).accepted = s.accepted := by simp [State.call,refused]
  obtain ⟨among,first⟩ := min?_eq_some_iff.mp least
  obtain ⟨member,young⟩ := mem_filter.mp among
  have old := sound.past oldest member
  rw [decide_eq_true_iff] at young
  have exact_ : Whole limiter s.accepted (s.clock + delay) ↔
      second ∣ s.clock + delay - oldest ∨ limiter.window - (s.clock + delay - oldest) ≤ second := by
    simp [Whole,least]
  rw [exact_,← retry_late_iff whole young,← retryAfter]
  generalize retryAfter limiter (s.clock + delay) oldest = r
  have leaves : (active limiter (s.clock + delay + r * second) s.accepted).length < limiter.max ↔
      limiter.window ≤ s.clock + delay - oldest + r * second := by
    rw [← active_active (Nat.le_add_right (s.clock + delay) (r * second))]
    constructor
    · intro fewer
      by_contra stays
      rw [active,filter_eq_self.mpr (fun t kept => decide_eq_true (by have bound := first t kept; omega))] at fewer
      omega
    · intro gone
      exact Nat.lt_of_lt_of_le (length_filter_lt_length_iff_exists.mpr ⟨oldest,among,by simp; omega⟩) most
  have taken : ∀ calls, ((s.call limiter delay which).run limiter calls).clock ≤ s.clock + delay + r * second →
      ((s.call limiter delay which).run limiter calls).accepted = (s.call limiter delay which).accepted →
      ((answer limiter ((s.call limiter delay which).run limiter calls).entries (s.clock + delay + r * second) .enforce).accepts = true ↔
        limiter.window ≤ s.clock + delay - oldest + r * second) := by
    intro calls early none_
    rw [answer_active ((run_sound after calls).same _ early),none_,silent,accepts_iff,leaves]
    exact and_iff_right rfl
  exact ⟨fun kept => (taken [] (Nat.le_add_right _ _) rfl).mp (kept [] (Nat.le_add_right _ _) rfl),
    fun gone calls early none_ => (taken calls early none_).mpr gone⟩

-- The announced seconds are cut off, and too few unless the oldest call is whole seconds old.
theorem rolling_window_iff (limiter : PerKeyRateLimiter) (calls : List (Nat × Call)) (positive : 1 ≤ limiter.max)
    (whole : second ∣ limiter.window) :
    let s := start.run limiter calls
    (∀ first, (s.accepted.filter (fun t => decide (first ≤ t ∧ t < first + limiter.window))).length ≤ limiter.max) ∧
    (∀ delay which, (answer limiter s.entries (s.clock + delay) which).accepts = false →
      (which = .enforce → (active limiter (s.clock + delay) s.accepted).length = limiter.max) ∧
      Alike limiter (s.call limiter delay which) (s.call limiter delay .pause)) ∧
    ∀ delay which r, (answer limiter s.entries (s.clock + delay) which).retryAfterSecs = some r →
      (Kept limiter (s.call limiter delay which) r ↔ Whole limiter s.accepted (s.clock + delay)) := by
  intro s
  have sound := run_sound (start_sound limiter) calls
  refine ⟨sound.bounded,fun delay which refused => ⟨?_,?_⟩,fun delay which r told => kept_iff sound positive whole told⟩
  · rintro rfl
    have most := sound.full (Nat.le_add_right _ delay)
    rw [answer_active (sound.same _ (Nat.le_add_right _ _)),← Bool.not_eq_true,accepts_iff] at refused
    simp only [true_and,Nat.not_lt] at refused
    exact Nat.le_antisymm most refused
  · refine alike_run (call_sound sound delay which) (call_sound sound delay .pause) rfl ?_
    simp only [State.call,refused]
    rfl

-- Refused half a second after the only call, with 59 of 60 seconds to wait.
theorem retry_too_early : ¬∀ (limiter : PerKeyRateLimiter) (calls : List (Nat × Call)) (delay r : Nat) (which : Call), 1 ≤ limiter.max →
    second ∣ limiter.window →
    (answer limiter (start.run limiter calls).entries ((start.run limiter calls).clock + delay) which).retryAfterSecs = some r →
    Kept limiter ((start.run limiter calls).call limiter delay which) r := by
  intro kept
  have early := kept ⟨1,60 * second⟩ [(0,.enforce)] (second / 2) 59 .enforce (by decide) ⟨60,Nat.mul_comm _ _⟩
    (by decide +kernel) [] (Nat.le_add_right _ _) rfl
  exact absurd early (by decide +kernel)

theorem rolling_window_one : ((start.run ⟨1,second⟩ [(0,.enforce)]).accepted.filter (fun t => decide (0 ≤ t ∧ t < 0 + second))).length ≤ 1 :=
  (rolling_window_iff ⟨1,second⟩ [(0,.enforce)] (by decide) ⟨1,rfl⟩).1 0

end Ownly.RateLimit
