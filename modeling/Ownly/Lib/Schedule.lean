import Mathlib.Data.List.Basic

namespace Schedule
open List
variable {σ ε : Type*} {step : σ → ε → Option σ} {good : σ → ε → Prop} {motive : σ → Prop} {good other : σ → ε → Prop}

-- A schedule is the list of events some environment picked. An event that is
-- not enabled in the state it meets has no run through it.
def run (step : σ → ε → Option σ) : σ → List ε → Option σ
  | s,[] => some s
  | s,e :: rest => (step s e).bind (run step · rest)

-- Every event of the schedule meets `good` in the state it fires from.
def Along (step : σ → ε → Option σ) (good : σ → ε → Prop) : σ → List ε → Prop
  | _,[] => True
  | s,e :: rest => good s e ∧ ∀ next, step s e = some next → Along step good next rest

instance decidableAlong {good : σ → ε → Prop} [∀ s e, Decidable (good s e)] :
    (s : σ) → (events : List ε) → Decidable (Along step good s events)
  | _,[] => .isTrue trivial
  | s,e :: rest => match fired : step s e with
    | none => decidable_of_iff (good s e) ⟨fun now => ⟨now,fun _ some => by rw [fired] at some; cases some⟩,And.left⟩
    | some next => by
      have later : Decidable (Along step good next rest) := decidableAlong next rest
      exact decidable_of_iff (good s e ∧ Along step good next rest)
        ⟨fun both => ⟨both.1,fun _ same => by rw [fired] at same; cases same; exact both.2⟩,
         fun along => ⟨along.1,along.2 next fired⟩⟩

theorem run_nil (ran : run step s [] = some final) : s = final := Option.some.inj ran

theorem run_cons (ran : run step s (e :: rest) = some final) :
    ∃ next, step s e = some next ∧ run step next rest = some final :=
  Option.bind_eq_some_iff.mp ran

theorem run_append (step : σ → ε → Option σ) (s : σ) (left right : List ε) :
    run step s (left ++ right) = (run step s left).bind (run step · right) := by
  induction left generalizing s with
  | nil => rfl
  | cons e rest ih =>
    simp only [cons_append,run]
    cases step s e with
    | none => rfl
    | some next => exact ih next

theorem Along.imp (imp : ∀ s e, good s e → other s e) (along : Along step good s events) :
    Along step other s events := by
  induction events generalizing s with
  | nil => trivial
  | cons e rest ih => exact ⟨imp s e along.1,fun next fired => ih (along.2 next fired)⟩

theorem Along.here (along : Along step good s (left ++ e :: right))
    (ran : run step s left = some middle) : good middle e := by
  induction left generalizing s with
  | nil => cases run_nil ran; exact along.1
  | cons first rest ih =>
    obtain ⟨next,fired,ran⟩ := run_cons ran
    exact ih (along.2 next fired) ran

theorem along_iff : Along step good s events ↔
    ∀ left e right middle, events = left ++ e :: right → run step s left = some middle → good middle e := by
  constructor
  · rintro along left e right middle rfl ran
    exact along.here ran
  · intro all
    induction events generalizing s with
    | nil => trivial
    | cons e rest ih =>
      refine ⟨all [] e rest s rfl rfl,fun next fired => ih (fun left later right middle split ran => ?_)⟩
      refine all (e :: left) later right middle (by rw [split]; rfl) ?_
      rw [run,fired]
      exact ran

theorem Along.suffix (along : Along step good s (left ++ right)) (ran : run step s left = some middle) :
    Along step good middle right := by
  refine along_iff.mpr (fun before e after_ reached split more => along_iff.mp along (left ++ before) e after_ reached ?_ ?_)
  · rw [split,append_assoc]
  · rw [run_append,ran]
    exact more

theorem along_of (hold : ∀ s e, motive s → good s e)
    (keep : ∀ s e next, motive s → step s e = some next → motive next) (start : motive s) : Along step good s events := by
  induction events generalizing s with
  | nil => trivial
  | cons e rest ih => exact ⟨hold s e start,fun next fired => ih (keep s e next start fired)⟩

theorem along_under (hold : ∀ s e, motive s → other s e → good s e)
    (keep : ∀ s e next, motive s → other s e → step s e = some next → motive next) (start : motive s)
    (along : Along step other s events) : Along step good s events := by
  induction events generalizing s with
  | nil => trivial
  | cons e rest ih =>
    exact ⟨hold s e start along.1,fun next fired => ih (keep s e next start along.1 fired) (along.2 next fired)⟩

theorem along_congr_among {among : ε → Prop}
    (same : ∀ s e, motive s → among e → (good s e ↔ other s e))
    (keep : ∀ s e next, motive s → among e → other s e → step s e = some next → motive next)
    (start : motive s) (picked : ∀ e ∈ events, among e) :
    Along step good s events ↔ Along step other s events := by
  induction events generalizing s with
  | nil => exact Iff.rfl
  | cons e rest ih =>
    have here := picked e mem_cons_self
    have later : ∀ e ∈ rest, among e := fun e member => picked e (mem_cons_of_mem _ member)
    constructor
    · intro along
      have now := (same s e start here).mp along.1
      exact ⟨now,fun next fired => (ih (keep _ _ _ start here now fired) later).mp (along.2 next fired)⟩
    · intro along
      exact ⟨(same s e start here).mpr along.1,
        fun next fired => (ih (keep _ _ _ start here along.1 fired) later).mpr (along.2 next fired)⟩

theorem along_congr
    (same : ∀ s e, motive s → (good s e ↔ other s e))
    (keep : ∀ s e next, motive s → other s e → step s e = some next → motive next) (start : motive s) :
    Along step good s events ↔ Along step other s events :=
  along_congr_among (fun s e holds _ => same s e holds)
    (fun s e next holds _ => keep s e next holds) start (fun _ _ => trivial)

theorem along_run_congr
    (same : ∀ s e next, motive s → step s e = some next → (good s e ↔ other s e))
    (keep : ∀ s e next, motive s → other s e → step s e = some next → motive next)
    (start : motive s) (ran : run step s events = some final) : Along step good s events ↔ Along step other s events := by
  induction events generalizing s with
  | nil => exact Iff.rfl
  | cons e rest ih =>
    obtain ⟨next,fired,ran⟩ := run_cons ran
    have here := same s e next start fired
    have later : other s e → (Along step good next rest ↔ Along step other next rest) :=
      fun now => ih (keep s e next start now fired) ran
    have only : ∀ {demand : σ → ε → Prop}, Along step demand s (e :: rest) ↔ demand s e ∧ Along step demand next rest := by
      intro demand
      refine and_congr_right (fun _ => ⟨fun all => all next fired,fun one other' same' => ?_⟩)
      rw [fired] at same'
      cases same'
      exact one
    rw [only,only]
    constructor
    · rintro ⟨now,rest⟩
      exact ⟨here.mp now,(later (here.mp now)).mp rest⟩
    · rintro ⟨now,rest⟩
      exact ⟨here.mpr now,(later now).mpr rest⟩

theorem reached_of_any {P : σ → Prop} [DecidablePred P] (found : (run step s events).any (fun final => decide (P final)) = true) :
    ∃ final, run step s events = some final ∧ P final := by
  obtain ⟨final,ran,holds⟩ := (Option.any_eq_true _ _).mp found
  exact ⟨final,ran,of_decide_eq_true holds⟩

theorem reached_of_isSome {P : σ → Prop} (ran : (run step s events).isSome = true) (all : ∀ final, run step s events = some final → P final) :
    ∃ final, run step s events = some final ∧ P final := by
  obtain ⟨final,ran⟩ := Option.isSome_iff_exists.mp ran
  exact ⟨final,ran,all final ran⟩

theorem run_along
    (keep : ∀ s e next, motive s → good s e → step s e = some next → motive next)
    (start : motive s) (along : Along step good s events) (ran : run step s events = some final) : motive final := by
  induction events generalizing s with
  | nil => cases run_nil ran; exact start
  | cons e rest ih =>
    obtain ⟨next,fired,ran⟩ := run_cons ran
    exact ih (keep _ _ _ start along.1 fired) (along.2 next fired) ran

theorem Along.reached (along : Along step good s events)
    (keep : ∀ s e next, motive s → good s e → step s e = some next → motive next) (start : motive s) (split : events = left ++ right)
    (ran : run step s left = some middle) : motive middle := by
  subst split
  induction left generalizing s with
  | nil => cases run_nil ran; exact start
  | cons e rest ih =>
    obtain ⟨next,fired,ran⟩ := run_cons ran
    exact ih (keep _ _ _ start along.1 fired) ran (along.2 next fired)

theorem run_preserves (keep : ∀ s e next, motive s → step s e = some next → motive next)
    (start : motive s) (ran : run step s events = some final) : motive final := by
  induction events generalizing s with
  | nil => cases run_nil ran; exact start
  | cons e rest ih =>
    obtain ⟨next,fired,ran⟩ := run_cons ran
    exact ih (keep _ _ _ start fired) ran

theorem along_reached_iff {holds : σ → Prop} (start : holds s) :
    Along step (fun s e => ∀ next, step s e = some next → holds next) s events ↔
      ∀ left right reached, events = left ++ right → run step s left = some reached → holds reached := by
  constructor
  · intro along left right reached split ran
    subst split
    induction left generalizing s with
    | nil => cases run_nil ran; exact start
    | cons e rest ih =>
      obtain ⟨next,fired,ran⟩ := run_cons ran
      exact ih (along.1 next fired) ran (along.2 next fired)
  · intro reached
    induction events generalizing s with
    | nil => trivial
    | cons e rest ih =>
      have here : ∀ next, step s e = some next → holds next := by
        intro next fired
        refine reached [e] rest next rfl ?_
        rw [run,fired]
        rfl
      refine ⟨here,fun next fired => ih (here next fired) ?_⟩
      intro left right last split ran
      refine reached (e :: left) right last (by rw [split]; rfl) ?_
      rw [run,fired]
      exact ran

-- A state is kept as it should be by just the events that meet a demand, so all reached
-- states are so exactly if all events meet it.
theorem reached_iff_along {holds side : σ → Prop}
    (exact_ : ∀ s e next, side s → holds s → step s e = some next → side next ∧ (holds next ↔ good s e))
    (beside : side s) (start : holds s) (ran : run step s events = some final) :
    (∀ left right reached, events = left ++ right → run step s left = some reached → holds reached) ↔ Along step good s events := by
  rw [← along_reached_iff start]
  refine along_run_congr (motive := fun s => side s ∧ holds s) ?_ ?_ ⟨beside,start⟩ ran
  · intro s e next held fired
    rw [← (exact_ s e next held.1 held.2 fired).2]
    constructor
    · exact fun all => all next fired
    · intro kept other same
      rw [fired] at same
      cases same
      exact kept
  · intro s e next held good fired
    obtain ⟨still,kept⟩ := exact_ s e next held.1 held.2 fired
    exact ⟨still,kept.mpr good⟩

def outputs {ο : Type*} (step : σ → ε → Option σ) (give : σ → ε → σ → List ο) : σ → List ε → List ο
  | _,[] => []
  | s,e :: rest => match step s e with
    | none => []
    | some next => give s e next ++ outputs step give next rest

theorem run_outputs {ο : Type*} {give : σ → ε → σ → List ο} {motive : List ο → σ → Prop}
    {given : List ο}
    (keep : ∀ given s e next, motive given s → good s e → step s e = some next → motive (given ++ give s e next) next)
    (start : motive given s) (along : Along step good s events) (ran : run step s events = some final) :
    motive (given ++ outputs step give s events) final := by
  induction events generalizing s given with
  | nil =>
    cases run_nil ran
    rw [outputs,append_nil]
    exact start
  | cons e rest ih =>
    obtain ⟨next,fired,ran⟩ := run_cons ran
    rw [outputs,fired]
    dsimp only
    rw [← append_assoc]
    exact ih (keep _ _ _ _ start along.1 fired) (along.2 next fired) ran

-- Guarded steps that each match at most one step of another system: a run of the
-- one is matched by a run of the other.
theorem run_simulates {τ γ : Type*} {above : τ → γ → Option τ} {motive : σ → τ → Prop} {t : τ}
    (keep : ∀ s t e next, motive s t → good s e → step s e = some next →
      ∃ t', (t' = t ∨ ∃ c, above t c = some t') ∧ motive next t')
    (start : motive s t) (along : Along step good s events) (ran : run step s events = some final) :
    ∃ matched t', run above t matched = some t' ∧ motive final t' := by
  induction events generalizing s t with
  | nil =>
    cases run_nil ran
    exact ⟨[],t,rfl,start⟩
  | cons e rest ih =>
    obtain ⟨next,fired,ran⟩ := run_cons ran
    obtain ⟨t',moved,related⟩ := keep _ _ _ _ start along.1 fired
    obtain ⟨matched,last,path,held⟩ := ih related (along.2 next fired) ran
    rcases moved with rfl | ⟨c,first⟩
    · exact ⟨matched,last,path,held⟩
    · refine ⟨c :: matched,last,?_,held⟩
      rw [run,first]
      exact path

end Schedule
