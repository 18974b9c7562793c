import Mathlib.Data.List.Perm.Subperm
import Mathlib.Logic.Function.Basic

-- Nodes with at most one node above each: the way up, when no way leads back, and what
-- a new link does to that.
namespace Ancestry
open List Option Function
variable {α : Type*} {up up' : α → Option α} {a b c child target : α} {j k n : Nat} {nodes : List α}

def climb (up : α → Option α) : Nat → α → Option α
  | 0,a => some a
  | k + 1,a => (up a).bind (climb up k)

def Reaches (up : α → Option α) (a b : α) : Prop := ∃ k, climb up k a = some b

def Acyclic (up : α → Option α) : Prop := ∀ a b, up a = some b → ¬Reaches up b a

-- The first `n` nodes of the way up, `a` among them.
def trail (up : α → Option α) : Nat → α → List α
  | 0,_ => []
  | n + 1,a => a :: (up a).elim [] (trail up n)

theorem climb_succ (step : up a = some b) : climb up (k + 1) a = climb up k b := by
  rw [climb,step]
  rfl

theorem climb_add : climb up (j + k) a = (climb up j a).bind (climb up k) := by
  induction j generalizing a with
  | zero =>
    rw [Nat.zero_add]
    rfl
  | succ j ih =>
    rw [Nat.succ_add]
    cases step : up a with
    | none =>
      rw [climb,climb,step]
      rfl
    | some b =>
      rw [climb_succ step,climb_succ step]
      exact ih

theorem reaches_refl (up : α → Option α) (a : α) : Reaches up a a := ⟨0,rfl⟩

theorem Reaches.head (step : up a = some b) (rest : Reaches up b c) : Reaches up a c := by
  obtain ⟨k,climbed⟩ := rest
  exact ⟨k + 1,(climb_succ step).trans climbed⟩

theorem Reaches.trans (first : Reaches up a b) (second : Reaches up b c) : Reaches up a c := by
  obtain ⟨j,lower⟩ := first
  obtain ⟨k,upper⟩ := second
  refine ⟨j + k,?_⟩
  rw [climb_add,lower]
  exact upper

theorem Reaches.tail (first : Reaches up a b) (step : up b = some c) : Reaches up a c :=
  first.trans (Reaches.head step (reaches_refl up c))

theorem reaches_iff : Reaches up a c ↔ a = c ∨ ∃ b, up a = some b ∧ Reaches up b c := by
  constructor
  · rintro ⟨k,climbed⟩
    cases k with
    | zero => exact .inl (Option.some.inj climbed)
    | succ k =>
      obtain ⟨b,step,rest⟩ := bind_eq_some_iff.mp climbed
      exact .inr ⟨b,step,k,rest⟩
  · rintro (rfl | ⟨b,step,rest⟩)
    · exact reaches_refl up a
    · exact rest.head step

theorem Reaches.rec_up {motive : α → Prop} (here : motive c)
    (below : ∀ a b, up a = some b → Reaches up b c → motive b → motive a) (reaches : Reaches up a c) : motive a := by
  obtain ⟨k,climbed⟩ := reaches
  induction k generalizing a with
  | zero => exact Option.some.inj climbed ▸ here
  | succ k ih =>
    obtain ⟨b,step,rest⟩ := bind_eq_some_iff.mp climbed
    exact below a b step ⟨k,rest⟩ (ih rest)

theorem Reaches.mono (sub : ∀ a b, up a = some b → up' a = some b) (reaches : Reaches up a c) : Reaches up' a c :=
  reaches.rec_up (motive := (Reaches up' · c)) (reaches_refl up' c) (fun _ _ step _ above => above.head (sub _ _ step))

theorem acyclic_of_sub (sub : ∀ a b, up' a = some b → up a = some b) (acyclic : Acyclic up) : Acyclic up' :=
  fun a b step back => acyclic a b (sub a b step) (back.mono sub)

theorem acyclic_of_rank {rank : α → Nat} (falls : ∀ a b, up a = some b → rank b < rank a) : Acyclic up := by
  intro a b step back
  have low : rank a ≤ rank b := by
    refine back.rec_up (motive := fun b => rank a ≤ rank b) (Nat.le_refl _) ?_
    intro c d link _ above
    exact Nat.le_trans above (Nat.le_of_lt (falls c d link))
  exact absurd (falls a b step) (Nat.not_lt_of_le low)

theorem Acyclic.no_return (acyclic : Acyclic up) : climb up (k + 1) a ≠ some a := by
  intro back
  obtain ⟨b,step,rest⟩ := bind_eq_some_iff.mp back
  exact acyclic a b step ⟨k,rest⟩

section Relink
variable [DecidableEq α] {link : Option α}

theorem climb_update_ne (ne : a ≠ child) (step : Function.update up child link a = some b) : up a = some b := by
  rwa [update_of_ne ne] at step

theorem reaches_update_self : Reaches (Function.update up child link) a child ↔ Reaches up a child := by
  constructor
  · intro reaches
    refine reaches.rec_up (motive := (Reaches up · child)) (reaches_refl up child) ?_
    intro a b step _ above
    by_cases same : a = child
    · exact same ▸ reaches_refl up child
    · exact above.head (climb_update_ne same step)
  · intro reaches
    refine reaches.rec_up (motive := (Reaches (Function.update up child link) · child)) (reaches_refl _ child) ?_
    intro a b step _ above
    by_cases same : a = child
    · subst same
      exact reaches_refl _ a
    · exact above.head (by rw [update_of_ne same]; exact step)

theorem reaches_update_or (reaches : Reaches (Function.update up child link) a c) :
    Reaches up a c ∨ Reaches (Function.update up child link) a child ∧ Reaches (Function.update up child link) child c := by
  refine reaches.rec_up (motive := fun a => Reaches up a c ∨
    Reaches (Function.update up child link) a child ∧ Reaches (Function.update up child link) child c)
    (.inl (reaches_refl up c)) ?_
  intro a b step rest above
  by_cases same : a = child
  · subst same
    exact .inr ⟨reaches_refl _ a,rest.head step⟩
  · rcases above with plain | ⟨lower,upper⟩
    · exact .inl (plain.head (climb_update_ne same step))
    · exact .inr ⟨lower.head step,upper⟩

theorem acyclic_relink (acyclic : Acyclic up) :
    Acyclic (Function.update up child (some target)) ↔ ¬Reaches up target child := by
  constructor
  · intro still above
    exact still child target (update_self ..) (reaches_update_self.mpr above)
  · intro clear a b step back
    have free : ¬Reaches (Function.update up child (some target)) target child := fun above => clear (reaches_update_self.mp above)
    have closes : Reaches (Function.update up child (some target)) child a → Reaches (Function.update up child (some target)) a child → False := by
      intro upward downward
      rcases reaches_iff.mp upward with same | ⟨next,link,rest⟩
      · subst same
        rw [update_self] at step
        cases step
        exact free back
      · rw [update_self] at link
        cases link
        exact free (rest.trans downward)
    by_cases same : a = child
    · subst same
      exact closes (reaches_refl _ a) (reaches_refl _ a)
    · rcases reaches_update_or back with plain | ⟨lower,upper⟩
      · exact acyclic a b (climb_update_ne same step) plain
      · exact closes upper (lower.head step)

theorem acyclic_unlink (acyclic : Acyclic up) : Acyclic (Function.update up child none) := by
  refine acyclic_of_sub ?_ acyclic
  intro a b step
  by_cases same : a = child
  · subst same
    rw [update_self] at step
    cases step
  · exact climb_update_ne same step

end Relink

theorem mem_trail : b ∈ trail up n a ↔ ∃ k, k < n ∧ climb up k a = some b := by
  induction n generalizing a with
  | zero => exact ⟨fun member => absurd member not_mem_nil,fun ⟨k,less,_⟩ => absurd less (Nat.not_lt_zero k)⟩
  | succ n ih =>
    rw [trail,mem_cons]
    constructor
    · rintro (rfl | later)
      · exact ⟨0,Nat.zero_lt_succ n,rfl⟩
      · cases step : up a with
        | none =>
          rw [step] at later
          exact absurd later not_mem_nil
        | some next =>
          rw [step] at later
          obtain ⟨k,less,climbed⟩ := ih.mp later
          exact ⟨k + 1,Nat.succ_lt_succ less,(climb_succ step).trans climbed⟩
    · rintro ⟨k,less,climbed⟩
      cases k with
      | zero => exact .inl (Option.some.inj climbed).symm
      | succ k =>
        obtain ⟨next,step,rest⟩ := bind_eq_some_iff.mp climbed
        rw [step]
        exact .inr (ih.mpr ⟨k,Nat.lt_of_succ_lt_succ less,rest⟩)

theorem trail_nodup (acyclic : Acyclic up) : (trail up n a).Nodup := by
  induction n generalizing a with
  | zero => exact nodup_nil
  | succ n ih =>
    rw [trail]
    cases step : up a with
    | none => exact nodup_cons.mpr ⟨not_mem_nil,nodup_nil⟩
    | some next =>
      refine nodup_cons.mpr ⟨?_,ih⟩
      intro member
      obtain ⟨k,_,climbed⟩ := mem_trail.mp member
      exact acyclic a next step ⟨k,climbed⟩

theorem trail_length (climbed : climb up k a = some b) : (trail up k a).length = k := by
  induction k generalizing a with
  | zero => rfl
  | succ k ih =>
    obtain ⟨next,step,rest⟩ := bind_eq_some_iff.mp climbed
    rw [trail,step]
    exact congrArg Nat.succ (ih rest)

theorem climb_bounded (acyclic : Acyclic up) (linked : ∀ a b, up a = some b → a ∈ nodes) (climbed : climb up k a = some b) :
    k ≤ nodes.length := by
  have inside : trail up k a ⊆ nodes := by
    intro c member
    obtain ⟨i,less,here⟩ := mem_trail.mp member
    obtain ⟨rest,rfl⟩ : ∃ rest, k = i + (rest + 1) := ⟨k - i - 1,by omega⟩
    rw [climb_add,here] at climbed
    change (up c).bind (climb up rest) = some b at climbed
    obtain ⟨next,step,_⟩ := bind_eq_some_iff.mp climbed
    exact linked c next step
  have shorter := ((trail_nodup acyclic).subperm inside).length_le
  rwa [trail_length climbed] at shorter

end Ancestry
