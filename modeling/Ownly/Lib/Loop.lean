import Mathlib

-- A while loop each round of which uses up some of a measure, as many rounds of it as there is
-- fuel for.
namespace Loop
variable {σ : Type*} {next : σ → Option σ} {measure : σ → Nat} {s t : σ} {fuel : Nat}

-- `next` is one round, and none where the loop's condition fails.
def run (next : σ → Option σ) : Nat → σ → σ
  | 0,s => s
  | fuel + 1,s => match next s with
    | none => s
    | some after => run next fuel after

def Reaches (next : σ → Option σ) : σ → σ → Prop := Relation.ReflTransGen (fun s t => next s = some t)

theorem Reaches.refl : Reaches next s s := Relation.ReflTransGen.refl

theorem Reaches.trans {u : σ} (path : Reaches next s t) (rest : Reaches next t u) : Reaches next s u :=
  Relation.ReflTransGen.trans path rest

theorem Reaches.one (round : next s = some t) : Reaches next s t := Relation.ReflTransGen.single round

theorem run_of_reaches (falls : ∀ {s t}, next s = some t → measure t < measure s) (path : Reaches next s t)
    (ended : next t = none) (enough : measure s ≤ fuel) : run next fuel s = t := by
  induction path using Relation.ReflTransGen.head_induction_on generalizing fuel with
  | refl => cases fuel <;> simp [run,ended]
  | head round _ ih =>
    have less := falls round
    cases fuel with
    | zero => omega
    | succ fuel =>
      rw [run,round]
      exact ih (by omega)

end Loop
