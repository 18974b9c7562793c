import Ownly.Lib.Asking
import Mathlib.Logic.Relation
import Mathlib.Logic.Function.Basic
import Mathlib.Data.List.Perm.Subperm

-- Programs that ask for each other's results, evaluated with a table of the results so far
-- and a set of the programs in progress: one that is asked for while it runs is cut short.
namespace Memo
open List Option
variable {κ ν ρ : Type}

def asked (known : κ → ν) : Asking κ ν ρ → List κ
  | .done _ => []
  | .ask q next => q :: asked known (next (known q))

theorem run_congr {known known' : κ → ν} {tree : Asking κ ν ρ} (same : ∀ q ∈ asked known tree, known q = known' q) :
    tree.run known = tree.run known' ∧ asked known tree = asked known' tree := by
  induction tree with
  | done r => exact ⟨rfl,rfl⟩
  | ask q next ih =>
    have first := same q mem_cons_self
    obtain ⟨run,rest⟩ := ih (known q) (fun q' member => same q' (mem_cons_of_mem _ member))
    rw [Asking.run,Asking.run,asked,asked,run,rest,first]
    exact ⟨rfl,rfl⟩

structure System (κ ν ρ : Type) where
  program : κ → Option (Asking κ ν ρ)
  plain : κ → ν
  value : ρ → ν
  cut : ρ

structure State (κ ρ : Type) where
  visiting : List κ
  cache : κ → Option ρ

def start : State κ ρ := ⟨[],fun _ => none⟩

def interpret (read : κ → State κ ρ → ν × State κ ρ) : Asking κ ν ρ → State κ ρ → ρ × State κ ρ
  | .done r,s => (r,s)
  | .ask q next,s => match read q s with
    | (v,s) => interpret read (next v) s

def enter (p : κ) (s : State κ ρ) : State κ ρ := {s with visiting := p :: s.visiting}

section evaluate
variable [DecidableEq κ]

def leave (p : κ) (s : State κ ρ) (r : ρ) : State κ ρ := ⟨s.visiting.erase p,Function.update s.cache p (some r)⟩

def evaluate (system : System κ ν ρ) : Nat → κ → Asking κ ν ρ → State κ ρ → ρ × State κ ρ
  | 0,_,_,s => (system.cut,s)
  | fuel + 1,p,tree,s =>
    if p ∈ s.visiting then (system.cut,s)
    else match s.cache p with
    | some r => (r,s)
    | none => match interpret (fun q s => match system.program q with
        | none => (system.plain q,s)
        | some tree => match evaluate system fuel q tree s with
          | (r,s) => (system.value r,s)) tree (enter p s) with
      | (r,s) => (r,leave p s r)

def read (system : System κ ν ρ) (fuel : Nat) (q : κ) (s : State κ ρ) : ν × State κ ρ := match system.program q with
  | none => (system.plain q,s)
  | some tree => match evaluate system fuel q tree s with
    | (r,s) => (system.value r,s)

def evaluateAll (system : System κ ν ρ) (fuel : Nat) (order : List κ) (s : State κ ρ) : State κ ρ :=
  order.foldl (fun s p => (read system fuel p s).2) s

end evaluate

namespace System
variable (system : System κ ν ρ)

-- What is read where `results` are the results.
def known (results : κ → ρ) (q : κ) : ν := match system.program q with
  | none => system.plain q
  | some _ => system.value (results q)

def Refers (results : κ → ρ) (p q : κ) : Prop :=
  ∃ tree, system.program p = some tree ∧ q ∈ asked (system.known results) tree

instance [DecidableEq κ] (results : κ → ρ) (p q : κ) : Decidable (system.Refers results p q) :=
  decidable_of_iff (∃ tree ∈ system.program p, q ∈ asked (system.known results) tree) Iff.rfl

def OnCycle (results : κ → ρ) (p : κ) : Prop := Relation.TransGen (system.Refers results) p p

def Reached (roots : List κ) (results : κ → ρ) (p : κ) : Prop :=
  ∃ root ∈ roots, Relation.ReflTransGen (system.Refers results) root p

-- Each program gives its own result when it reads those of the others, and what lies on a
-- cycle has the result of a cut.
structure Solves (roots : List κ) (results : κ → ρ) : Prop where
  own : ∀ p tree, system.Reached roots results p → system.program p = some tree →
    results p = tree.run (system.known results)
  cycle : ∀ p, system.Reached roots results p → system.OnCycle results p → results p = system.cut

end System

section step
variable {system : System κ ν ρ} {fuel : Nat} {p q : κ} {tree : Asking κ ν ρ} {s s' s'' : State κ ρ} {r : ρ}
variable {reader : κ → State κ ρ → ν × State κ ρ} {next : ν → Asking κ ν ρ}

theorem interpret_ask :
    interpret reader (.ask q next) s = interpret reader (next (reader q s).1) (reader q s).2 := rfl

structure Leads (s s' : State κ ρ) : Prop where
  visiting : s'.visiting = s.visiting
  grows : ∀ q r, s.cache q = some r → s'.cache q = some r
  apart : ∀ q ∈ s.visiting, s.cache q = none → s'.cache q = none

theorem Leads.refl (s : State κ ρ) : Leads s s := ⟨rfl,fun _ _ cached => cached,fun _ _ fresh => fresh⟩

theorem Leads.trans (early : Leads s s') (late : Leads s' s'') : Leads s s'' where
  visiting := late.visiting.trans early.visiting
  grows := fun q r cached => late.grows q r (early.grows q r cached)
  apart := fun q inside fresh => late.apart q (early.visiting ▸ inside) (early.apart q inside fresh)

theorem interpret_leads (reads : ∀ q s, Leads s (reader q s).2) (tree : Asking κ ν ρ) (s : State κ ρ) :
    Leads s (interpret reader tree s).2 := by
  induction tree generalizing s with
  | done r => exact .refl s
  | ask q next ih => exact (reads q s).trans (ih _ _)

variable [DecidableEq κ]

theorem read_plain (plain : system.program q = none) : read system fuel q s = (system.plain q,s) := by simp [read,plain]

theorem read_program (program : system.program q = some tree) :
    read system fuel q s = (system.value (evaluate system fuel q tree s).1,(evaluate system fuel q tree s).2) := by
  simp [read,program]

theorem evaluate_visiting (inside : p ∈ s.visiting) : evaluate system fuel p tree s = (system.cut,s) := by
  cases fuel with
  | zero => rfl
  | succ fuel => simp [evaluate,inside]

theorem evaluate_cached (outside : p ∉ s.visiting) (cached : s.cache p = some r) :
    evaluate system (fuel + 1) p tree s = (r,s) := by
  simp [evaluate,outside,cached]

theorem evaluate_fresh (outside : p ∉ s.visiting) (fresh : s.cache p = none) :
    evaluate system (fuel + 1) p tree s =
      ((interpret (read system fuel) tree (enter p s)).1,
        leave p (interpret (read system fuel) tree (enter p s)).2 (interpret (read system fuel) tree (enter p s)).1) := by
  rw [evaluate,if_neg outside,fresh]
  rfl

theorem leave_leads (outside : p ∉ s.visiting) (fresh : s.cache p = none) (inner : Leads (enter p s) s') :
    Leads s (leave p s' r) where
  visiting := by simp [leave,inner.visiting,enter]
  grows := by
    intro q r' cached
    have other : q ≠ p := by
      rintro rfl
      rw [fresh] at cached
      cases cached
    simpa [leave,other] using inner.grows q r' cached
  apart := by
    intro q inside unknown
    have other : q ≠ p := fun same => outside (same ▸ inside)
    simpa [leave,other] using inner.apart q (mem_cons_of_mem _ inside) unknown

theorem evaluate_leads (system : System κ ν ρ) (fuel : Nat) (p : κ) (tree : Asking κ ν ρ) (s : State κ ρ) :
    Leads s (evaluate system fuel p tree s).2 := by
  induction fuel generalizing p tree s with
  | zero => exact .refl s
  | succ fuel ih =>
    by_cases inside : p ∈ s.visiting
    · rw [evaluate_visiting inside]
      exact .refl s
    · cases cached : s.cache p with
      | some r =>
        rw [evaluate_cached inside cached]
        exact .refl s
      | none =>
        rw [evaluate_fresh inside cached]
        refine leave_leads inside cached (interpret_leads (fun q s => ?_) tree _)
        cases program : system.program q with
        | none =>
          rw [read_plain program]
          exact .refl s
        | some tree =>
          rw [read_program program]
          exact ih q tree s

theorem read_leads (system : System κ ν ρ) (fuel : Nat) (q : κ) (s : State κ ρ) : Leads s (read system fuel q s).2 := by
  cases program : system.program q with
  | none =>
    rw [read_plain program]
    exact .refl s
  | some tree =>
    rw [read_program program]
    exact evaluate_leads ..

end step

section run
variable {system : System κ ν ρ} {results : κ → ρ} {roots cells trail : List κ} {p q : κ} {tree : Asking κ ν ρ} {s : State κ ρ}
  {fuel : Nat}

def Trail (system : System κ ν ρ) (results : κ → ρ) : List κ → κ → Prop
  | [],_ => True
  | p :: trail,q => system.Refers results p q ∧ Trail system results trail p

theorem Trail.leads (asks : Trail system results trail q) (member : p ∈ trail) :
    Relation.TransGen (system.Refers results) p q := by
  induction trail generalizing q with
  | nil => cases member
  | cons a trail ih =>
    rcases mem_cons.mp member with rfl | later
    · exact .single asks.1
    · exact (ih asks.2 later).tail asks.1

theorem System.Reached.next (reached : system.Reached roots results p) (refers : system.Refers results p q) :
    system.Reached roots results q := by
  obtain ⟨root,member,path⟩ := reached
  exact ⟨root,member,path.tail refers⟩

structure Right (system : System κ ν ρ) (roots : List κ) (results : κ → ρ) (s : State κ ρ) : Prop where
  reached : ∀ q r, s.cache q = some r → system.Reached roots results q
  held : ∀ q r, s.cache q = some r → results q = r
  own : ∀ q r tree, s.cache q = some r → system.program q = some tree → r = tree.run (system.known results)
  reads : ∀ q r tree, s.cache q = some r → system.program q = some tree →
    ∀ q' ∈ asked (system.known results) tree, (system.program q').isSome → (s.cache q').isSome ∨ q' ∈ s.visiting

theorem right_start : Right system roots results start where
  reached := fun q r cached => by cases cached
  held := fun q r cached => by cases cached
  own := fun q r tree cached => by cases cached
  reads := fun q r tree cached => by cases cached

def Fits (system : System κ ν ρ) (roots : List κ) (results : κ → ρ) (s : State κ ρ) : Prop :=
  (∀ p tree, system.Reached roots results p → system.program p = some tree → results p = tree.run (system.known results)) ∨
    ∀ q r, s.cache q = some r → results q = r

theorem Fits.early {s s' : State κ ρ} (fits : Fits system roots results s') (leads : Leads s s') : Fits system roots results s := by
  rcases fits with solution | later
  · exact .inl solution
  · exact .inr (fun q r cached => later q r (leads.grows q r cached))

structure Gives (system : System κ ν ρ) (roots : List κ) (results : κ → ρ) (q : κ) (outcome : ν × State κ ρ) : Prop where
  answer : outcome.1 = system.known results q
  right : Right system roots results outcome.2
  there : (system.program q).isSome → (outcome.2.cache q).isSome ∨ q ∈ outcome.2.visiting

theorem interpret_right {reader : κ → State κ ρ → ν × State κ ρ} (leads : ∀ q s, Leads s (reader q s).2)
    (gives : ∀ q s', s'.visiting = s.visiting → Right system roots results s' → Fits system roots results (reader q s').2 →
      q ∈ asked (system.known results) tree → Gives system roots results q (reader q s'))
    (right : Right system roots results s) (fits : Fits system roots results (interpret reader tree s).2) :
    (interpret reader tree s).1 = tree.run (system.known results) ∧ Right system roots results (interpret reader tree s).2 ∧
      ∀ q ∈ asked (system.known results) tree, (system.program q).isSome →
        ((interpret reader tree s).2.cache q).isSome ∨ q ∈ (interpret reader tree s).2.visiting := by
  induction tree generalizing s with
  | done r => exact ⟨rfl,right,fun q member => by cases member⟩
  | ask q next ih =>
    rw [interpret_ask] at fits ⊢
    have later := interpret_leads leads (next (reader q s).1) (reader q s).2
    have first := gives q s rfl right (fits.early later) mem_cons_self
    rw [first.answer] at fits later ⊢
    have same : (reader q s).2.visiting = s.visiting := (leads q s).visiting
    obtain ⟨result,kept,rest⟩ := ih (system.known results q) (s := (reader q s).2)
      (fun q' s' visiting right fits member => gives q' s' (visiting.trans same) right fits (mem_cons_of_mem _ member))
      first.right fits
    refine ⟨result,kept,fun q' member program => ?_⟩
    rcases mem_cons.mp member with rfl | member
    · rcases first.there program with cached | inside
      · obtain ⟨r,cached⟩ := isSome_iff_exists.mp cached
        exact .inl (isSome_iff_exists.mpr ⟨r,later.grows _ _ cached⟩)
      · exact .inr (later.visiting ▸ inside)
    · exact rest q' member program

theorem Right.enter (right : Right system roots results s) (p : κ) : Right system roots results (enter p s) where
  reached := right.reached
  held := right.held
  own := right.own
  reads := fun q r tree cached program q' member formula =>
    (right.reads q r tree cached program q' member formula).imp id (mem_cons_of_mem _)

structure Bounded (cells : List κ) (fuel : Nat) (s : State κ ρ) : Prop where
  distinct : s.visiting.Nodup
  inside : s.visiting ⊆ cells
  enough : cells.length ≤ fuel + s.visiting.length

theorem Bounded.all (bounded : Bounded cells 0 s) (member : p ∈ cells) : p ∈ s.visiting := by
  have fewer := bounded.distinct.subperm bounded.inside
  have all := fewer.perm_of_length_le (by have := bounded.enough; omega)
  exact all.mem_iff.mpr member

theorem Bounded.enter (bounded : Bounded cells (fuel + 1) s) (member : p ∈ cells)
    (outside : p ∉ s.visiting) : Bounded cells fuel (enter p s) where
  distinct := nodup_cons.mpr ⟨outside,bounded.distinct⟩
  inside := cons_subset.mpr ⟨member,bounded.inside⟩
  enough := by
    have := bounded.enough
    simp only [Memo.enter,length_cons]
    omega

variable [DecidableEq κ] {order : List κ} {r : ρ}

theorem right_leave (right : Right system roots results s) (visiting : ∃ rest, s.visiting = p :: rest)
    (reached : system.Reached roots results p) (program : system.program p = some tree) (own : results p = tree.run (system.known results))
    (reads : ∀ q ∈ asked (system.known results) tree, (system.program q).isSome → (s.cache q).isSome ∨ q ∈ s.visiting) :
    Right system roots results (leave p s (results p)) := by
  obtain ⟨rest,visiting⟩ := visiting
  have kept : ∀ q, (s.cache q).isSome ∨ q ∈ s.visiting →
      ((leave p s (results p)).cache q).isSome ∨ q ∈ (leave p s (results p)).visiting := by
    intro q there
    by_cases same : q = p
    · exact .inl (by simp [leave,same])
    · simpa [leave,visiting,same] using there
  have cases_ : ∀ q r, (leave p s (results p)).cache q = some r → (q = p ∧ r = results p) ∨ s.cache q = some r := by
    intro q r cached
    by_cases same : q = p
    · subst same
      exact .inl ⟨rfl,by simpa [leave] using cached.symm⟩
    · exact .inr (by simpa [leave,same] using cached)
  constructor
  · intro q r cached
    rcases cases_ q r cached with ⟨rfl,rfl⟩ | old
    · exact reached
    · exact right.reached q r old
  · intro q r cached
    rcases cases_ q r cached with ⟨rfl,rfl⟩ | old
    · rfl
    · exact right.held q r old
  · intro q r tree' cached program'
    rcases cases_ q r cached with ⟨rfl,rfl⟩ | old
    · rw [program] at program'
      cases program'
      exact own
    · exact right.own q r tree' old program'
  · intro q r tree' cached program' q' member formula
    rcases cases_ q r cached with ⟨rfl,rfl⟩ | old
    · rw [program] at program'
      cases program'
      exact kept q' (reads q' member formula)
    · exact kept q' (right.reads q r tree' old program' q' member formula)

theorem Fits.within (fits : Fits system roots results (leave p s r)) (fresh : s.cache p = none) :
    Fits system roots results s := by
  rcases fits with solution | later
  · exact .inl solution
  · refine .inr (fun q r' cached => later q r' ?_)
    have other : q ≠ p := by
      rintro rfl
      rw [fresh] at cached
      cases cached
    simpa [leave,other] using cached

theorem Fits.own (fits : Fits system roots results (leave p s r)) (reached : system.Reached roots results p)
    (program : system.program p = some tree) (ran : r = tree.run (system.known results)) :
    results p = tree.run (system.known results) := by
  rcases fits with solution | later
  · exact solution p tree reached program
  · rw [← ran]
    exact later p r (by simp [leave])

theorem evaluate_right (cycle : ∀ p, system.Reached roots results p → system.OnCycle results p → results p = system.cut)
    (all : ∀ q, (system.program q).isSome → q ∈ cells) (bounded : Bounded cells fuel s)
    (asks : Trail system results s.visiting p) (reached : system.Reached roots results p) (program : system.program p = some tree)
    (right : Right system roots results s) (fits : Fits system roots results (evaluate system fuel p tree s).2) :
    (evaluate system fuel p tree s).1 = results p ∧ Right system roots results (evaluate system fuel p tree s).2 ∧
      (((evaluate system fuel p tree s).2.cache p).isSome ∨ p ∈ (evaluate system fuel p tree s).2.visiting) := by
  induction fuel generalizing p tree s with
  | zero =>
    have inside := bounded.all (all p (by simp [program]))
    rw [evaluate_visiting inside]
    exact ⟨(cycle p reached (asks.leads inside)).symm,right,.inr inside⟩
  | succ fuel ih =>
    by_cases inside : p ∈ s.visiting
    · rw [evaluate_visiting inside]
      exact ⟨(cycle p reached (asks.leads inside)).symm,right,.inr inside⟩
    cases cached : s.cache p with
    | some r =>
      rw [evaluate_cached inside cached]
      exact ⟨(right.held p r cached).symm,right,.inl (by simp [cached])⟩
    | none =>
      rw [evaluate_fresh inside cached] at fits ⊢
      have inner := interpret_leads (read_leads system fuel) tree (enter p s)
      have fresh := inner.apart p mem_cons_self cached
      have gives : ∀ q s', s'.visiting = (enter p s).visiting → Right system roots results s' →
          Fits system roots results (read system fuel q s').2 → q ∈ asked (system.known results) tree →
          Gives system roots results q (read system fuel q s') := by
        intro q s' visiting right fits member
        have refers : system.Refers results p q := ⟨tree,program,member⟩
        cases formula : system.program q with
        | none =>
          rw [read_plain formula]
          exact ⟨by simp [System.known,formula],right,by simp [formula]⟩
        | some tree' =>
          rw [read_program formula] at fits ⊢
          have bounded' := bounded.enter (all p (by simp [program])) inside
          obtain ⟨result,right,there⟩ := ih (p := q) (s := s')
            ⟨visiting ▸ bounded'.distinct,visiting ▸ bounded'.inside,visiting ▸ bounded'.enough⟩
            (visiting ▸ ⟨refers,asks⟩) (reached.next refers) formula right fits
          exact ⟨by simp [System.known,formula,result],right,fun _ => there⟩
      obtain ⟨ran,kept,reads⟩ := interpret_right (read_leads system fuel) gives (right.enter p) (fits.within fresh)
      have own := fits.own reached program ran
      rw [ran,← own]
      exact ⟨rfl,right_leave kept ⟨s.visiting,inner.visiting⟩ reached program own reads,.inl (by simp [leave])⟩

theorem evaluateAll_leads (system : System κ ν ρ) (fuel : Nat) (order : List κ) (s : State κ ρ) :
    Leads s (evaluateAll system fuel order s) := by
  induction order generalizing s with
  | nil => exact .refl s
  | cons p order ih => exact (read_leads system fuel p s).trans (ih _)

theorem evaluateAll_right (cycle : ∀ p, system.Reached roots results p → system.OnCycle results p → results p = system.cut)
    (all : ∀ q, (system.program q).isSome → q ∈ cells) (within : order ⊆ roots)
    (idle : s.visiting = []) (right : Right system roots results s)
    (fits : Fits system roots results (evaluateAll system cells.length order s)) :
    Right system roots results (evaluateAll system cells.length order s) ∧
      ∀ p ∈ order, (system.program p).isSome → ((evaluateAll system cells.length order s).cache p).isSome := by
  induction order generalizing s with
  | nil => exact ⟨right,fun p member => by cases member⟩
  | cons p order ih =>
    have first := read_leads system cells.length p s
    have later := evaluateAll_leads system cells.length order (read system cells.length p s).2
    have idle' := first.visiting.trans idle
    have root : system.Reached roots results p := ⟨p,within mem_cons_self,.refl⟩
    have here : Right system roots results (read system cells.length p s).2 ∧
        ((system.program p).isSome → ((read system cells.length p s).2.cache p).isSome) := by
      cases program : system.program p with
      | none =>
        rw [read_plain program]
        exact ⟨right,by simp⟩
      | some tree =>
        have early : Fits system roots results (read system cells.length p s).2 := fits.early later
        rw [read_program program] at early ⊢
        have bounded : Bounded cells cells.length s := ⟨by simp [idle],by simp [idle],by simp⟩
        obtain ⟨_,kept,there⟩ := evaluate_right cycle all bounded (by simp [idle,Trail]) root program right early
        rw [(evaluate_leads system cells.length p tree s).visiting,idle] at there
        exact ⟨kept,fun _ => there.resolve_right not_mem_nil⟩
    obtain ⟨kept,rest⟩ := ih (subset_of_cons_subset within) idle' here.1 fits
    refine ⟨kept,fun q member program => ?_⟩
    rcases mem_cons.mp member with rfl | member
    · obtain ⟨r,cached⟩ := isSome_iff_exists.mp (here.2 program)
      exact isSome_iff_exists.mpr ⟨r,later.grows q r cached⟩
    · exact rest q member program

def table (system : System κ ν ρ) (cells order : List κ) : κ → Option ρ := (evaluateAll system cells.length order start).cache

section solution
variable (all : ∀ q, (system.program q).isSome → q ∈ cells)

theorem right_reached (right : Right system roots results (evaluateAll system cells.length roots start))
    (there : ∀ p ∈ roots, (system.program p).isSome → ((evaluateAll system cells.length roots start).cache p).isSome)
    (reached : system.Reached roots results p) (program : (system.program p).isSome) :
    table system cells roots p = some (results p) := by
  have idle := (evaluateAll_leads system cells.length roots start).visiting
  obtain ⟨root,member,path⟩ := reached
  have cached : ((evaluateAll system cells.length roots start).cache p).isSome := by
    induction path with
    | refl => exact there root member program
    | tail before refers ih =>
      obtain ⟨tree,formula,asks⟩ := refers
      obtain ⟨r,known⟩ := isSome_iff_exists.mp (ih (by simp [formula]))
      have next := right.reads _ r tree known formula _ asks program
      rw [idle] at next
      exact next.resolve_right not_mem_nil
  obtain ⟨r,cached⟩ := isSome_iff_exists.mp cached
  rw [right.held p r cached]
  exact cached

include all

theorem table_solved (solves : system.Solves roots results) (within : order ⊆ roots) :
    ∀ p ∈ order, (system.program p).isSome → table system cells order p = some (results p) := by
  obtain ⟨right,there⟩ := evaluateAll_right solves.cycle all within rfl right_start (.inl solves.own)
  intro p member program
  obtain ⟨r,cached⟩ := isSome_iff_exists.mp (there p member program)
  rw [right.held p r cached]
  exact cached

theorem table_cut (solves : system.Solves roots results) (cached : table system cells roots p = some r)
    (cycle : system.OnCycle (fun q => (table system cells roots q).getD system.cut) p) : r = system.cut := by
  obtain ⟨right,there⟩ := evaluateAll_right solves.cycle all (List.Subset.refl roots) rfl right_start (.inl solves.own)
  have step : ∀ a b, system.Reached roots results a →
      system.Refers (fun q => (table system cells roots q).getD system.cut) a b → system.Refers results a b := by
    rintro a b reached ⟨tree,program,asks⟩
    have same : ∀ q ∈ asked (system.known results) tree, system.known results q =
        system.known (fun q => (table system cells roots q).getD system.cut) q := by
      intro q asks
      cases formula : system.program q with
      | none => simp [System.known,formula]
      | some tree' =>
        have found := right_reached right there (reached.next ⟨tree,program,asks⟩) (by simp [formula])
        simp [System.known,formula,found]
    exact ⟨tree,program,(run_congr same).2 ▸ asks⟩
  have reached := right.reached p r cached
  have path : ∀ b, Relation.TransGen (system.Refers (fun q => (table system cells roots q).getD system.cut)) p b →
      Relation.TransGen (system.Refers results) p b := by
    intro b long
    induction long with
    | single refers => exact .single (step p _ reached refers)
    | tail before refers ih =>
      obtain ⟨root,member,early⟩ := reached
      exact ih.tail (step _ _ ⟨root,member,early.trans ih.to_reflTransGen⟩ refers)
  rw [← right.held p r cached]
  exact solves.cycle p reached (path p cycle)

theorem table_solves (cycle : ∀ p, system.OnCycle (fun q => (table system cells roots q).getD system.cut) p →
      (table system cells roots p).getD system.cut = system.cut) :
    system.Solves roots (fun q => (table system cells roots q).getD system.cut) := by
  have fits : ∀ q r, (evaluateAll system cells.length roots start).cache q = some r →
      (table system cells roots q).getD system.cut = r := by
    intro q r cached
    simp [table,cached]
  obtain ⟨right,there⟩ := evaluateAll_right (fun p _ => cycle p) all (List.Subset.refl roots) rfl right_start (.inr fits)
  refine ⟨fun p tree reached program => ?_,fun p _ => cycle p⟩
  have known := right_reached right there reached (by simp [program])
  exact right.own p _ tree known program

end solution

end run

end Memo
