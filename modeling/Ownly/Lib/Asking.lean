import Mathlib.Logic.Basic
import Mathlib.Control.Basic

-- A computation that asks for values as it goes, as the tree of its questions: run against
-- fixed answers, or against answers that change a state.
inductive Asking (κ ν ρ : Type) where
  | done (r : ρ)
  | ask (q : κ) (next : ν → Asking κ ν ρ)

namespace Asking
variable {κ ν ρ τ σ : Type}

def bind : Asking κ ν ρ → (ρ → Asking κ ν τ) → Asking κ ν τ
  | .done r,f => f r
  | .ask q next,f => .ask q (fun v => (next v).bind f)

instance : Monad (Asking κ ν) where
  pure := .done
  bind := bind

def answer (q : κ) : Asking κ ν ν := .ask q .done

def run (known : κ → ν) : Asking κ ν ρ → ρ
  | .done r => r
  | .ask q next => (next (known q)).run known

inductive Ensures (P : ρ → Prop) : Asking κ ν ρ → Prop
  | done {r : ρ} (holds : P r) : Ensures P (.done r)
  | ask {q : κ} {next : ν → Asking κ ν ρ} (all : ∀ v, Ensures P (next v)) : Ensures P (.ask q next)

variable {x : Asking κ ν ρ} {f : ρ → Asking κ ν τ} {P Q : ρ → Prop} {known : κ → ν}

@[simp] theorem pure_done (r : ρ) : (pure r : Asking κ ν ρ) = .done r := rfl

@[simp] theorem done_bind (r : ρ) (f : ρ → Asking κ ν τ) : (.done r >>= f) = f r := rfl

@[simp] theorem ask_bind (q : κ) (next : ν → Asking κ ν ρ) (f : ρ → Asking κ ν τ) :
    (.ask q next >>= f) = .ask q (fun v => next v >>= f) := rfl

theorem bind_done (x : Asking κ ν ρ) : (x >>= .done) = x := by
  induction x with
  | done r => rfl
  | ask q next ih => rw [ask_bind,funext ih]

theorem bind_assoc' {υ : Type} (x : Asking κ ν ρ) (f : ρ → Asking κ ν τ) (g : τ → Asking κ ν υ) :
    (x >>= f >>= g) = x >>= fun r => f r >>= g := by
  induction x with
  | done r => rfl
  | ask q next ih => rw [ask_bind,ask_bind,ask_bind,funext ih]

instance : LawfulMonad (Asking κ ν) := LawfulMonad.mk' _ bind_done (fun _ _ => rfl) bind_assoc'

@[simp] theorem run_done (r : ρ) : (Asking.done r : Asking κ ν ρ).run known = r := rfl

@[simp] theorem run_bind (x : Asking κ ν ρ) (f : ρ → Asking κ ν τ) : (x >>= f).run known = (f (x.run known)).run known := by
  induction x with
  | done r => rfl
  | ask q next ih => exact ih (known q)

@[simp] theorem run_answer (q : κ) : (answer q : Asking κ ν ν).run known = known q := rfl

@[simp] theorem ensures_done (r : ρ) : (Asking.done r : Asking κ ν ρ).Ensures P ↔ P r := by
  constructor
  · intro ensured
    cases ensured with
    | done holds => exact holds
  · exact .done

@[simp] theorem ensures_ask (q : κ) (next : ν → Asking κ ν ρ) : (Asking.ask q next).Ensures P ↔ ∀ v, (next v).Ensures P := by
  constructor
  · intro ensured
    cases ensured with
    | ask all => exact all
  · exact .ask

@[simp] theorem ensures_bind {R : τ → Prop} (x : Asking κ ν ρ) (f : ρ → Asking κ ν τ) :
    (x >>= f).Ensures R ↔ x.Ensures (fun r => (f r).Ensures R) := by
  induction x with
  | done r => simp
  | ask q next ih => simp [ih]

@[simp] theorem ensures_answer {P : ν → Prop} (q : κ) : (answer q : Asking κ ν ν).Ensures P ↔ ∀ v, P v := by simp [answer]

theorem Ensures.run (ensured : x.Ensures P) (known : κ → ν) : P (x.run known) := by
  induction ensured with
  | done holds => exact holds
  | ask _ ih => exact ih _

theorem Ensures.mono (ensured : x.Ensures P) (weaker : ∀ r, P r → Q r) : x.Ensures Q := by
  induction ensured with
  | done holds => exact .done (weaker _ holds)
  | ask _ ih => exact .ask ih

theorem ensures_trivial (always : ∀ r, P r) (x : Asking κ ν ρ) : x.Ensures P := by
  induction x with
  | done r => exact .done (always r)
  | ask q next ih => exact .ask ih

end Asking
