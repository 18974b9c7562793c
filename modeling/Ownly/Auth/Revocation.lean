import Ownly.Auth.Sessions
import Ownly.Lib.Schedule
import Mathlib.Data.List.Find

-- What the revocations of one user amount to: a book of the sessions logged in and
-- of those revoked, and the stores that have to agree with it.
namespace Ownly.Auth.Revocation
open Sessions
open List

structure Book where
  sessions : List String := []
  revoked : List String := []
  newestRevoked : Nat := 0
deriving DecidableEq

structure Meaning where
  revoke : Book → String → List String
  allExcept : Book → String → List String

def exactly : Meaning := ⟨fun _ sid => [sid],fun book keep => book.sessions.filter (fun sid => decide (sid ≠ keep))⟩

def recent (book : Book) : List String := book.sessions.take sessionWindow

-- The session that stays: the one to keep if it is recent, else the newest that is not revoked.
def kept (book : Book) (keep : String) : Option String :=
  if keep ∈ recent book then some keep else (recent book).find? (fun sid => !book.revoked.contains sid)

-- The newest login is revoked by a new epoch, which ends every session so far; the
-- other call looks at the recent logins.
def byEpoch : Meaning where
  revoke book sid :=
    if book.sessions.head? = some sid ∧ book.newestRevoked < maxEpoch then sid :: book.sessions else [sid]
  allExcept book keep := (recent book).filter (fun sid => decide (kept book keep ≠ some sid))

structure State where
  store : Store := {}
  tokens : List Token := []
  book : Book := {}
deriving DecidableEq

inductive Event where
  | login (id : String) (createdAt : Int)
  | revoke (sessionId : String)
  | revokeAllExcept (keep : String)
deriving DecidableEq

def note (meaning : Meaning) (book : Book) : Event → Book
  | .login id _ => { book with sessions := id :: book.sessions }
  | .revoke sid =>
    { book with
      revoked := meaning.revoke book sid ++ book.revoked
      newestRevoked := if book.sessions.head? = some sid then book.newestRevoked + 1 else book.newestRevoked }
  | .revokeAllExcept keep => { book with revoked := meaning.allExcept book keep ++ book.revoked }

def enabled (s : State) : Event → Bool
  | .login id createdAt => s.store.auditLogs.all (fun row => row.id != id && decide (row.createdAt < createdAt))
  | .revoke _ => true
  | .revokeAllExcept keep => s.book.sessions.contains keep && !s.book.revoked.contains keep

def step (meaning : Meaning) (s : State) (e : Event) : Option State :=
  if enabled s e then
    let book := note meaning s.book e
    match e with
    | .login id createdAt =>
      let (store,token) := login s.store id createdAt
      some { store, tokens := token :: s.tokens, book }
    | .revoke sid => some { s with store := revokeSessionId s.store sid, book }
    | .revokeAllExcept keep => some { s with store := revokeAllExceptSession s.store (some keep), book }
  else none

def start : State := {}

def accepts (store : Store) (token : Token) : Bool := isTokenSessionValid store token.sid token.ver token.iat

def Exact (s : State) : Prop :=
  ∀ token ∈ s.tokens, ∀ sid, token.sid = some sid → (accepts s.store token = true ↔ sid ∉ s.book.revoked)

structure Good (s : State) : Prop where
  ids : s.book.sessions = s.store.auditLogs.map (·.id)
  distinct : s.book.sessions.Nodup
  ordered : Ordered s.store.auditLogs
  carried : s.tokens.map (·.sid) = s.book.sessions.map some
  -- A newer token never has the lower epoch, and the epoch of today bounds them all.
  aged : s.tokens.Pairwise (fun newer older => older.ver ≤ newer.ver)
  bounded : ∀ token ∈ s.tokens, token.ver ≤ loadSessionEpoch s.store
  counted : loadSessionEpoch s.store = min s.book.newestRevoked maxEpoch
  listed : ∀ sid ∈ loadRevokedSessionIds s.store, sid ∈ s.book.revoked
  -- A revoked id that never logged in can only be in the list.
  absent : ∀ sid, sid ∉ s.book.sessions → sid ∈ s.book.revoked → sid ∈ loadRevokedSessionIds s.store
  exact_ : ∀ token ∈ s.tokens, ∀ sid, token.sid = some sid →
    (loadSessionEpoch s.store ≤ token.ver ∧ sid ∉ loadRevokedSessionIds s.store ↔ sid ∉ s.book.revoked)

theorem start_good : Good start where
  ids := rfl
  distinct := nodup_nil
  ordered := List.Pairwise.nil
  carried := rfl
  aged := List.Pairwise.nil
  bounded := fun _ member => nomatch member
  counted := rfl
  listed := fun _ member => nomatch member
  absent := fun _ _ member => nomatch member
  exact_ := fun _ member => nomatch member

theorem Good.exact {s : State} (good : Good s) : Exact s := by
  intro token member sid named
  rw [accepts,named,valid_iff]
  exact good.exact_ token member sid named

variable {s next : State} {sid : String}

theorem Good.session (good : Good s) {token : Token} (member : token ∈ s.tokens)
    (named : token.sid = some sid) : sid ∈ s.book.sessions := by
  have mapped : some sid ∈ s.tokens.map (·.sid) := mem_map.mpr ⟨token,member,named⟩
  rw [good.carried] at mapped
  obtain ⟨other,found,same⟩ := mem_map.mp mapped
  exact Option.some.inj same ▸ found

theorem Good.token (good : Good s) (member : sid ∈ s.book.sessions) :
    ∃ token ∈ s.tokens, token.sid = some sid := by
  have mapped : some sid ∈ s.tokens.map (·.sid) := by
    rw [good.carried]
    exact mem_map.mpr ⟨sid,member,rfl⟩
  obtain ⟨token,found,named⟩ := mem_map.mp mapped
  exact ⟨token,found,named⟩

section
variable (good : Good s) {keep : String}
include good

theorem login_good (fresh : enabled s (.login sid createdAt) = true) :
    Good ⟨(login s.store sid createdAt).1,(login s.store sid createdAt).2 :: s.tokens,
      note meaning s.book (.login sid createdAt)⟩ := by
  have each : ∀ row ∈ s.store.auditLogs, row.id ≠ sid ∧ row.createdAt < createdAt := by
    simpa only [enabled,all_eq_true,Bool.and_eq_true,bne_iff_ne,decide_eq_true_eq] using fresh
  have unknown : sid ∉ s.book.sessions := by
    rw [good.ids]
    intro member
    obtain ⟨row,found,same⟩ := mem_map.mp member
    exact (each row found).1 same
  exact {
    ids := congrArg (sid :: ·) good.ids
    distinct := nodup_cons.mpr ⟨unknown,good.distinct⟩
    ordered := pairwise_cons.mpr ⟨fun row found => (each row found).2,good.ordered⟩
    carried := congrArg (some sid :: ·) good.carried
    aged := pairwise_cons.mpr ⟨good.bounded,good.aged⟩
    bounded := by
      rintro token (_ | ⟨_,old⟩)
      · exact Nat.le_refl _
      · exact good.bounded token old
    counted := good.counted
    listed := good.listed
    absent := fun other absent revoked => good.absent other (fun member => absent (mem_cons_of_mem _ member)) revoked
    exact_ := by
      rintro token (_ | ⟨_,old⟩) other named
      · cases Option.some.inj named
        refine ⟨fun ⟨_,unlisted⟩ revoked => unlisted (good.absent sid unknown revoked),fun unrevoked => ?_⟩
        exact ⟨Nat.le_refl _,fun listed => unrevoked (good.listed sid listed)⟩
      · exact good.exact_ token old other named }

theorem revoke_good (sid : String) :
    Good { s with store := revokeSessionId s.store sid, book := note byEpoch s.book (.revoke sid) } := by
  have logs := revokeSessionId_logs s.store sid
  have epoch := revokeSessionId_epoch good.ordered sid
  rw [← good.ids] at epoch
  have list := revokeSessionId_list s.store sid
  have named : sid ∈ (byEpoch.revoke s.book sid) := by
    simp only [byEpoch]
    split <;> exact mem_cons_self ..
  have below : loadSessionEpoch s.store ≤ loadSessionEpoch (revokeSessionId s.store sid) := by
    rw [epoch,nextEpoch]
    have := good.counted
    split <;> omega
  refine {
    ids := by rw [logs]; exact good.ids
    distinct := good.distinct
    ordered := by rw [logs]; exact good.ordered
    carried := good.carried
    aged := good.aged
    bounded := fun token member => Nat.le_trans (good.bounded token member) below
    counted := ?_
    listed := ?_
    absent := ?_
    exact_ := ?_ }
  · dsimp only [note]
    rw [epoch,good.counted,nextEpoch]
    split <;> omega
  · intro x member
    rcases (list x).mp member with rfl | old
    · exact mem_append_left _ named
    · exact mem_append_right _ (good.listed x old)
  · intro x absent revoked
    rw [list]
    rcases mem_append.mp revoked with new | old
    · simp only [byEpoch] at new
      split at new
      · rcases mem_cons.mp new with same | member
        · exact .inl same
        · exact absurd member absent
      · exact .inl (mem_singleton.mp new)
    · exact .inr (good.absent x absent old)
  · intro token member x carries
    have before := good.exact_ token member x carries
    have session := good.session member carries
    have bound := good.bounded token member
    have counted := good.counted
    dsimp only [note,byEpoch]
    rw [list,epoch,nextEpoch]
    by_cases all : s.book.sessions.head? = some sid ∧ s.book.newestRevoked < maxEpoch
    · rw [if_pos all,if_pos all.1]
      refine ⟨fun ⟨above,_⟩ => by omega,fun unrevoked => ?_⟩
      exact absurd (mem_append_left _ (mem_cons_of_mem _ session)) unrevoked
    · rw [if_neg all]
      have same : (if s.book.sessions.head? = some sid then min (loadSessionEpoch s.store + 1) maxEpoch
          else loadSessionEpoch s.store) = loadSessionEpoch s.store := by
        split
        · rename_i newest
          have full : maxEpoch ≤ s.book.newestRevoked := Nat.not_lt.mp (fun room => all ⟨newest,room⟩)
          omega
        · rfl
      rw [same,mem_append,mem_singleton,not_or,not_or]
      constructor
      · rintro ⟨above,other,unlisted⟩
        exact ⟨other,before.mp ⟨above,unlisted⟩⟩
      · rintro ⟨other,unrevoked⟩
        exact ⟨(before.mpr unrevoked).1,other,(before.mpr unrevoked).2⟩

theorem recent_rows : (recentLogins s.store sessionWindow).map (·.id) = recent s.book := by
  rw [recentLogins_eq good.ordered,recent,good.ids,map_take]

theorem Good.split {token : Token} (member : token ∈ s.tokens) (named : token.sid = some sid) :
    token ∈ s.tokens.take sessionWindow ∧ sid ∈ recent s.book ∨ token ∈ s.tokens.drop sessionWindow ∧ sid ∉ recent s.book := by
  have parts := good.distinct
  rw [← take_append_drop sessionWindow s.book.sessions,nodup_append] at parts
  rw [← take_append_drop sessionWindow s.tokens,mem_append] at member
  rcases member with new | old
  · refine .inl ⟨new,?_⟩
    have mapped : some sid ∈ (s.tokens.take sessionWindow).map (·.sid) := mem_map.mpr ⟨token,new,named⟩
    rw [map_take,good.carried,← map_take] at mapped
    obtain ⟨other,found,same⟩ := mem_map.mp mapped
    exact Option.some.inj same ▸ found
  · refine .inr ⟨old,fun new => ?_⟩
    have mapped : some sid ∈ (s.tokens.drop sessionWindow).map (·.sid) := mem_map.mpr ⟨token,old,named⟩
    rw [map_drop,good.carried,← map_drop] at mapped
    obtain ⟨other,found,same⟩ := mem_map.mp mapped
    exact parts.2.2 sid new other found (Option.some.inj same).symm

section
variable (session : keep ∈ s.book.sessions) (unrevoked : keep ∉ s.book.revoked)
include session unrevoked

theorem recent_valid
    (old : keep ∉ recent s.book) {token : Token} (member : token ∈ s.tokens) (named : token.sid = some sid)
    (new : sid ∈ recent s.book) : loadSessionEpoch s.store ≤ token.ver := by
  obtain ⟨older,found,same⟩ := good.token session
  have valid := ((good.exact_ older found keep same).mpr unrevoked).1
  have late : older ∈ s.tokens.drop sessionWindow := by
    rcases good.split found same with ⟨_,recent⟩ | ⟨late,_⟩
    · exact absurd recent old
    · exact late
  have early : token ∈ s.tokens.take sessionWindow := by
    rcases good.split member named with ⟨early,_⟩ | ⟨_,other⟩
    · exact early
    · exact absurd new other
  have aged := good.aged
  rw [← take_append_drop sessionWindow s.tokens,pairwise_append] at aged
  exact Nat.le_trans valid (aged.2.2 token early older late)

theorem spared_eq :
    spared (preferredKeep (recentLogins s.store sessionWindow) (loadRevokedSessionIds s.store) (some keep))
      (loadRevokedSessionIds s.store) (recentLogins s.store sessionWindow) = kept s.book keep := by
  have rows := recent_rows good
  have among : (recentLogins s.store sessionWindow).any (·.id == keep) = decide (keep ∈ recent s.book) := by
    rw [← rows]
    simp [any_eq]
  have unlisted : keep ∉ loadRevokedSessionIds s.store := fun listed => unrevoked (good.listed keep listed)
  have preferred : preferredKeep (recentLogins s.store sessionWindow) (loadRevokedSessionIds s.store) (some keep) =
      if keep ∈ recent s.book then some keep else none := by
    rw [preferredKeep,Option.filter_some,among]
    by_cases new : keep ∈ recent s.book <;> simp [new,unlisted]
  rw [preferred,kept]
  by_cases new : keep ∈ recent s.book
  · rw [if_pos new,if_pos new]
    rfl
  · rw [if_neg new,if_neg new,spared]
    have same : ∀ sid ∈ recent s.book, (sid ∈ loadRevokedSessionIds s.store ↔ sid ∈ s.book.revoked) := by
      intro sid member
      obtain ⟨token,found,named⟩ := good.token (mem_of_mem_take member)
      have above := recent_valid good session unrevoked new found named member
      have judged := good.exact_ token found sid named
      grind
    have moved : ((recentLogins s.store sessionWindow).find? (fun row => !(loadRevokedSessionIds s.store).contains row.id)).map
        (·.id) = (recent s.book).find? (fun sid => !(loadRevokedSessionIds s.store).contains sid) := by
      rw [← rows,find?_map]
      rfl
    rw [moved]
    apply find?_congr
    intro sid member
    simp only [contains_eq_mem,same sid member]

theorem revokeAllExcept_list
    (x : String) :
    x ∈ loadRevokedSessionIds (revokeAllExceptSession s.store (some keep)) ↔
      x ∈ loadRevokedSessionIds s.store ∨ x ∈ byEpoch.allExcept s.book keep := by
  have rows := recent_rows good
  have distinct : ((recentLogins s.store sessionWindow).map (·.id)).Nodup := by
    rw [rows]
    exact good.distinct.sublist (take_sublist _ _)
  rw [(revokeAllExceptSession_parts s.store (some keep)).1,sweepRows_revoked _ _ distinct,spared_eq good session unrevoked,rows]
  simp only [byEpoch,mem_filter,decide_eq_true_eq,and_comm]

theorem revokeAllExcept_good
    :
    Good { s with store := revokeAllExceptSession s.store (some keep), book := note byEpoch s.book (.revokeAllExcept keep) } := by
  obtain ⟨_,epoch,logs⟩ := revokeAllExceptSession_parts s.store (some keep)
  have list := revokeAllExcept_list good session unrevoked
  refine {
    ids := by rw [logs]; exact good.ids
    distinct := good.distinct
    ordered := by rw [logs]; exact good.ordered
    carried := good.carried
    aged := good.aged
    bounded := by rw [epoch]; exact good.bounded
    counted := by rw [epoch]; exact good.counted
    listed := ?_
    absent := ?_
    exact_ := ?_ }
  · intro x member
    rcases (list x).mp member with old | new
    · exact mem_append_right _ (good.listed x old)
    · exact mem_append_left _ new
  · intro x absent revoked
    rcases mem_append.mp revoked with new | old
    · exact absurd (mem_of_mem_take (mem_filter.mp new).1) absent
    · exact (list x).mpr (.inl (good.absent x absent old))
  · intro token member x carries
    have before := good.exact_ token member x carries
    dsimp only [note]
    rw [list,epoch,mem_append,not_or,not_or]
    constructor
    · rintro ⟨above,unlisted,stays⟩
      exact ⟨stays,before.mp ⟨above,unlisted⟩⟩
    · rintro ⟨stays,unrevoked⟩
      exact ⟨(before.mpr unrevoked).1,(before.mpr unrevoked).2,stays⟩

end

theorem step_good (fired : step byEpoch s e = some next) : Good next := by
  unfold step at fired
  split at fired
  · rename_i allowed
    cases e with
    | login sid createdAt =>
      cases fired
      exact login_good good allowed
    | revoke sid =>
      cases fired
      exact revoke_good good sid
    | revokeAllExcept keep =>
      cases fired
      obtain ⟨session,unrevoked⟩ : keep ∈ s.book.sessions ∧ keep ∉ s.book.revoked := by
        simpa [enabled] using allowed
      exact revokeAllExcept_good good session unrevoked
  · cases fired

end

theorem keep_spared (book : Book) (keep : String) : keep ∉ byEpoch.allExcept book keep := by
  intro member
  obtain ⟨new,other⟩ := mem_filter.mp member
  exact of_decide_eq_true other (if_pos new)

-- Along every run the accepted tokens are those of the sessions that the calls have
-- not revoked, and the session to keep is accepted after its call.
theorem session_revocation_exact (ran : Schedule.run (step byEpoch) start events = some final) :
    Exact final ∧ ∀ keep next, step byEpoch final (.revokeAllExcept keep) = some next →
      Exact next ∧ ∃ token ∈ next.tokens, token.sid = some keep ∧ accepts next.store token = true := by
  have good : Good final := Schedule.run_preserves (fun _ _ _ held fired => step_good held fired) start_good ran
  refine ⟨good.exact,fun keep next fired => ?_⟩
  have later := step_good good fired
  have allowed : enabled final (.revokeAllExcept keep) = true := by
    by_contra closed
    simp [step,closed] at fired
  obtain ⟨session,unrevoked⟩ : keep ∈ final.book.sessions ∧ keep ∉ final.book.revoked := by
    simpa [enabled] using allowed
  have shape : next.book = note byEpoch final.book (.revokeAllExcept keep) := by
    simp only [step,allowed,if_true,Option.some.injEq] at fired
    rw [← fired]
  have still : keep ∈ next.book.sessions := by
    rw [shape]
    exact session
  have stays : keep ∉ next.book.revoked := by
    rw [shape,note,mem_append,not_or]
    exact ⟨keep_spared _ _,unrevoked⟩
  obtain ⟨token,member,named⟩ := later.token still
  exact ⟨later.exact,token,member,named,(later.exact token member keep named).mpr stays⟩

def twoLogins : List Event := [.login "laptop" 1000000,.login "phone" 2000000]

theorem session_revocation_exact_kept :
    ∃ final, Schedule.run (step byEpoch) start (twoLogins ++ [.revokeAllExcept "laptop"]) = some final ∧
      Exact final ∧ final.book.revoked = ["phone"] := by
  obtain ⟨final,ran,revoked⟩ : ∃ final, Schedule.run (step byEpoch) start (twoLogins ++ [.revokeAllExcept "laptop"]) = some final ∧
      final.book.revoked = ["phone"] := Schedule.reached_of_any (by decide +kernel)
  exact ⟨final,ran,(session_revocation_exact ran).1,revoked⟩

def manyLogins : List Event := (List.range 27).map (fun n => .login (String.ofList (List.replicate n 'a')) n)

-- Revoking the newest login also ends the older one; and a login older than the recent
-- ones outlives a call that keeps another.
theorem revocation_inexact :
    (¬∀ events final, Schedule.run (step exactly) start events = some final → Exact final) ∧
    ¬∀ events final, Schedule.run (step { byEpoch with allExcept := exactly.allExcept }) start events = some final →
      Exact final := by
  constructor
  · intro all
    obtain ⟨final,ran,token,other⟩ : ∃ final, Schedule.run (step exactly) start (twoLogins ++ [.revoke "phone"]) = some final ∧
        (⟨some "laptop",0,1⟩ ∈ final.tokens ∧ "laptop" ∉ final.book.revoked ∧
          accepts final.store ⟨some "laptop",0,1⟩ = false) :=
      Schedule.reached_of_any (by decide +kernel)
    have accepted := (all _ final ran _ token "laptop" rfl).mpr other.1
    rw [other.2] at accepted
    cases accepted
  · intro all
    obtain ⟨final,ran,token,other⟩ : ∃ final, Schedule.run (step { byEpoch with allExcept := exactly.allExcept }) start
        (manyLogins ++ [.revokeAllExcept "aa"]) = some final ∧
        (⟨some "a",0,0⟩ ∈ final.tokens ∧ "a" ∈ final.book.revoked ∧ accepts final.store ⟨some "a",0,0⟩ = true) :=
      Schedule.reached_of_any (by decide +kernel)
    exact (all _ final ran _ token "a" rfl).mp other.2 other.1

end Ownly.Auth.Revocation
