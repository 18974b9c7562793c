import Mathlib.Algebra.Group.Int.Defs
import Mathlib.Tactic.Common

-- One row of a table under READ COMMITTED: the committed version, and the version of
-- the one transaction that has written it and is still open.
structure RowVersion (τ ν : Type*) where
  committed : ν
  pending : Option (τ × ν)

namespace RowVersion
variable {τ ν : Type*} {row next : RowVersion τ ν} {tx other : τ} {v : ν} {f : ν → ν} {measure : ν → Int}

-- A statement outside any transaction commits at once; `none` is one that waits.
def writeThrough (f : ν → ν) (row : RowVersion τ ν) : Option (RowVersion τ ν) :=
  match row.pending with
  | none => some ⟨f row.committed,none⟩
  | some _ => none

-- The transaction has not written the row.
def Idle (tx : τ) (row : RowVersion τ ν) : Prop := ∀ v, row.pending ≠ some (tx,v)

def Each (P : ν → Prop) (row : RowVersion τ ν) : Prop := P row.committed ∧ ∀ tx v, row.pending = some (tx,v) → P v

theorem held_or_idle (tx : τ) (row : RowVersion τ ν) : (∃ v, row.pending = some (tx,v)) ∨ row.Idle tx := by
  by_cases held : ∃ v, row.pending = some (tx,v)
  · exact .inl held
  · exact .inr (fun v same => held ⟨v,same⟩)

theorem idle_other (held : row.pending = some (tx,v)) (ne : other ≠ tx) : row.Idle other := by
  intro v' again
  rw [held] at again
  cases again
  exact ne rfl

theorem idle_free (free : row.pending = none) : row.Idle tx := by
  intro v held
  rw [free] at held
  cases held

theorem writeThrough_exact : row.writeThrough f = some next ↔ row.pending = none ∧ next = ⟨f row.committed,none⟩ := by
  unfold writeThrough
  cases row.pending with
  | none => simp [eq_comm]
  | some held => simp

variable [DecidableEq τ]

-- A write waits while another transaction has the row; then it works on the newest
-- version.
def write (tx : τ) (f : ν → ν) (row : RowVersion τ ν) : Option (RowVersion τ ν) :=
  match row.pending with
  | none => some ⟨row.committed,some (tx,f row.committed)⟩
  | some (owner,v) => if owner = tx then some ⟨row.committed,some (tx,f v)⟩ else none

def commit (tx : τ) (row : RowVersion τ ν) : RowVersion τ ν :=
  match row.pending with
  | none => row
  | some (owner,v) => if owner = tx then ⟨v,none⟩ else row

def rollback (tx : τ) (row : RowVersion τ ν) : RowVersion τ ν :=
  match row.pending with
  | none => row
  | some (owner,_) => if owner = tx then ⟨row.committed,none⟩ else row

def delta (measure : ν → Int) (tx : τ) (row : RowVersion τ ν) : Int :=
  match row.pending with
  | none => 0
  | some (owner,v) => if owner = tx then measure v - measure row.committed else 0

-- A step that is none of a transaction's own leaves what it has written.
structure Undisturbed (tx : τ) (row next : RowVersion τ ν) : Prop where
  idle : row.Idle tx → next.Idle tx
  delta : ∀ measure, next.delta measure tx = row.delta measure tx

theorem Undisturbed.refl (tx : τ) (row : RowVersion τ ν) : Undisturbed tx row row := ⟨id,fun _ => rfl⟩

theorem delta_idle (idle : row.Idle tx) : row.delta measure tx = 0 := by
  unfold delta
  split
  · rfl
  · rename_i owner v held
    exact if_neg (fun same => idle v (by rw [held,same]))

theorem delta_held (held : row.pending = some (tx,v)) : row.delta measure tx = measure v - measure row.committed := by
  simp [delta,held]

theorem undisturbed_idle (before : row.Idle tx) (after : next.Idle tx) : Undisturbed tx row next :=
  ⟨fun _ => after,fun _ => by rw [delta_idle before,delta_idle after]⟩

theorem writeThrough_undisturbed (wrote : row.writeThrough f = some next) (tx : τ) : Undisturbed tx row next := by
  obtain ⟨free,rfl⟩ := writeThrough_exact.mp wrote
  exact undisturbed_idle (idle_free free) (idle_free rfl)

section
variable (idle : row.Idle tx) (wrote : row.write tx f = some next)
include idle wrote

theorem write_first :
    row.pending = none ∧ next = ⟨row.committed,some (tx,f row.committed)⟩ := by
  unfold write at wrote
  split at wrote
  · rename_i free
    cases wrote
    exact ⟨free,rfl⟩
  · rename_i owner v held
    split at wrote
    · rename_i same
      exact absurd (by rw [held,same]) (idle v)
    · cases wrote

theorem write_delta :
    next.delta measure tx = measure (f row.committed) - measure row.committed := by
  obtain ⟨_,rfl⟩ := write_first idle wrote
  exact if_pos rfl

theorem write_undisturbed (ne : other ≠ tx) :
    Undisturbed other row next := by
  obtain ⟨free,rfl⟩ := write_first idle wrote
  exact undisturbed_idle (idle_free free) (idle_other rfl ne)

end

theorem commit_held (held : row.pending = some (tx,v)) : row.commit tx = ⟨v,none⟩ := by
  simp [commit,held]

theorem commit_of_idle (idle : row.Idle tx) : row.commit tx = row := by
  unfold commit
  split
  · rfl
  · rename_i owner v held
    exact if_neg (fun same => idle v (by rw [held,same]))

theorem measure_commit (measure : ν → Int) (tx : τ) (row : RowVersion τ ν) :
    measure (row.commit tx).committed = measure row.committed + row.delta measure tx := by
  rcases held_or_idle tx row with ⟨v,held⟩ | idle
  · rw [commit_held held,delta_held held]
    dsimp only
    omega
  · rw [commit_of_idle idle,delta_idle idle]
    exact (Int.add_zero _).symm

theorem commit_idle : (row.commit tx).Idle tx := by
  rcases held_or_idle tx row with ⟨v,held⟩ | idle
  · rw [commit_held held]
    exact idle_free rfl
  · rw [commit_of_idle idle]
    exact idle

theorem commit_undisturbed (ne : other ≠ tx) : Undisturbed other row (row.commit tx) := by
  rcases held_or_idle tx row with ⟨v,held⟩ | idle
  · rw [commit_held held]
    exact undisturbed_idle (idle_other held ne) (idle_free rfl)
  · rw [commit_of_idle idle]
    exact .refl other row

theorem Each.commit (each : row.Each P) : (row.commit tx).Each P := by
  rcases held_or_idle tx row with ⟨v,held⟩ | idle
  · rw [commit_held held]
    exact ⟨each.2 tx v held,fun _ _ none => nomatch none⟩
  · rw [commit_of_idle idle]
    exact each

theorem rollback_held (held : row.pending = some (tx,v)) : row.rollback tx = ⟨row.committed,none⟩ := by
  simp [rollback,held]

theorem rollback_of_idle (idle : row.Idle tx) : row.rollback tx = row := by
  unfold rollback
  split
  · rfl
  · rename_i owner v held
    exact if_neg (fun same => idle v (by rw [held,same]))

theorem rollback_committed : (row.rollback tx).committed = row.committed := by
  rcases held_or_idle tx row with ⟨v,held⟩ | idle
  · rw [rollback_held held]
  · rw [rollback_of_idle idle]

theorem rollback_idle : (row.rollback tx).Idle tx := by
  rcases held_or_idle tx row with ⟨v,held⟩ | idle
  · rw [rollback_held held]
    exact idle_free rfl
  · rw [rollback_of_idle idle]
    exact idle

theorem rollback_undisturbed (ne : other ≠ tx) : Undisturbed other row (row.rollback tx) := by
  rcases held_or_idle tx row with ⟨v,held⟩ | idle
  · rw [rollback_held held]
    exact undisturbed_idle (idle_other held ne) (idle_free rfl)
  · rw [rollback_of_idle idle]
    exact .refl other row

theorem Each.rollback (each : row.Each P) : (row.rollback tx).Each P := by
  rcases held_or_idle tx row with ⟨v,held⟩ | idle
  · rw [rollback_held held]
    exact ⟨each.1,fun _ _ none => nomatch none⟩
  · rw [rollback_of_idle idle]
    exact each

end RowVersion
