import Mathlib.Data.List.Basic

-- Replaying a list of steps from a state, and the same steps replayed in another order.
namespace Reorder
open List
variable {σ ε : Type*} {act : σ → ε → σ} {s : σ} {late : ε} {before after steps : List ε}

def Swaps (act : σ → ε → σ) (a b : ε) : Prop := ∀ s, act (act s a) b = act (act s b) a

-- Taken after the others, `late` could have been taken before them: it swaps with each
-- in turn, in the state that one was taken from.
def Slides (act : σ → ε → σ) (late : ε) : σ → List ε → Prop
  | _,[] => True
  | s,step :: rest => act (act s step) late = act (act s late) step ∧ Slides act late (act s step) rest

theorem Slides.of_swaps (swaps : ∀ step ∈ steps, Swaps act step late) (s : σ) : Slides act late s steps := by
  induction steps generalizing s with
  | nil => trivial
  | cons step rest ih =>
    refine ⟨swaps step mem_cons_self s,?_⟩
    exact ih (fun other member => swaps other (mem_cons_of_mem _ member)) _

theorem Slides.first (slides : Slides act late s steps) :
    act (steps.foldl act s) late = steps.foldl act (act s late) := by
  induction steps generalizing s with
  | nil => rfl
  | cons step rest ih =>
    rw [foldl_cons,foldl_cons,ih slides.2,slides.1]

theorem Slides.pulled (slides : Slides act late s before) :
    (before ++ late :: after).foldl act s = (before ++ after).foldl act (act s late) := by
  rw [foldl_append,foldl_cons,slides.first,foldl_append]

theorem foldl_idle (idle : ∀ step ∈ steps, act s step = s) : steps.foldl act s = s := by
  induction steps with
  | nil => rfl
  | cons step rest ih =>
    rw [foldl_cons,idle step mem_cons_self]
    exact ih (fun other member => idle other (mem_cons_of_mem _ member))

end Reorder
