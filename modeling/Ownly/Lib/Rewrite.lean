import Ownly.Lib.Asking

-- Replacement of all the matches of a pattern in a text, from the left, as a global regular
-- expression does it: a match hides the text under it, and sees one character behind it.
namespace Rewrite
open List
variable {α β σ κ ν : Type} {m : Type → Type}

-- What a pattern finds at the front of a text: how long it is, and what was captured.
abbrev Pattern (α β : Type) := Option α → List α → Option (Nat × β)

def rewrite [Monad m] (find : Pattern α β) (out : σ → β → m (List α × σ)) : σ → Option α → Nat → List α → m (List α × σ)
  | s,_,_,[] => pure ([],s)
  | s,_,skip + 1,c :: text => rewrite find out s (some c) skip text
  | s,behind,0,c :: text => match find behind (c :: text) with
    | some (length,captured) => do
      let (replaced,s) ← out s captured
      let (rest,s) ← rewrite find out s (some c) (length - 1) text
      pure (replaced ++ rest,s)
    | none => do
      let (rest,s) ← rewrite find out s (some c) 0 text
      pure (c :: rest,s)

def replace (find : Pattern α β) (out : β → List α) (behind : Option α) (text : List α) : List α :=
  (Id.run (rewrite find (fun s captured => pure (out captured,s)) () behind 0 text)).1

def last (behind : Option α) : List α → Option α
  | [] => behind
  | c :: text => last (some c) text

def Free (find : Pattern α β) : Option α → List α → List α → Prop
  | _,[],_ => True
  | behind,c :: text,rest => find behind (c :: text ++ rest) = none ∧ Free find (some c) text rest

section lemmas
variable {find : Pattern α β} {s : σ} {behind : Option α} {text rest : List α} {c : α} {captured : β}

theorem free_append (front : List α) :
    Free find behind (front ++ text) rest ↔ Free find behind front (text ++ rest) ∧ Free find (last behind front) text rest := by
  induction front generalizing behind with
  | nil => simp [Free,last]
  | cons c front ih =>
    rw [cons_append,Free,Free,ih,cons_append,append_assoc,and_assoc]
    rfl

theorem free_class (C : α → Prop) (begins : ∀ behind c text, find behind (c :: text) ≠ none → C c)
    (absent : ∀ c ∈ text, ¬C c) (behind : Option α) (rest : List α) : Free find behind text rest := by
  induction text generalizing behind with
  | nil => trivial
  | cons c text ih =>
    refine ⟨by_contra fun found => ?_,ih (fun d member => absent d (mem_cons_of_mem _ member)) _⟩
    exact absent c mem_cons_self (begins behind c _ found)

theorem free_needs (C : List α → Prop) (needs : ∀ behind text, find behind text ≠ none → C text)
    (lacks : ∀ tail, tail <:+ text ++ rest → ¬C tail) (behind : Option α) : Free find behind text rest := by
  induction text generalizing behind with
  | nil => trivial
  | cons c text ih =>
    refine ⟨by_contra fun found => ?_,ih (fun tail suffix => lacks tail (suffix.trans (suffix_cons c _))) _⟩
    exact lacks _ (suffix_refl _) (needs behind _ found)

theorem Free.or {other : Pattern α β} (first : Free find behind text rest) (second : Free other behind text rest) :
    Free (fun behind text => (find behind text).or (other behind text)) behind text rest := by
  induction text generalizing behind with
  | nil => trivial
  | cons c text ih =>
    refine ⟨?_,ih first.2 second.2⟩
    change (find behind (c :: text ++ rest)).or (other behind (c :: text ++ rest)) = none
    rw [first.1,second.1]
    rfl

section monad
variable {m : Type → Type} [Monad m] {out : σ → β → m (List α × σ)}

theorem rewrite_skip (text rest : List α) (s : σ) (behind : Option α) :
    rewrite find out s behind text.length (text ++ rest) = rewrite find out s (last behind text) 0 rest := by
  induction text generalizing behind with
  | nil => rfl
  | cons c text ih => exact ih (some c)

theorem rewrite_match (found : find behind (c :: text ++ rest) = some (text.length + 1,captured)) :
    rewrite find out s behind 0 (c :: text ++ rest) = (do
      let (replaced,s) ← out s captured
      let (after,s) ← rewrite find out s (last (some c) text) 0 rest
      pure (replaced ++ after,s)) := by
  rw [cons_append] at found ⊢
  rw [rewrite,found]
  simp only [Nat.add_sub_cancel,rewrite_skip]

variable [LawfulMonad m]

theorem rewrite_free (free : Free find behind text rest) :
    rewrite find out s behind 0 (text ++ rest) = (do
      let (after,s) ← rewrite find out s (last behind text) 0 rest
      pure (text ++ after,s)) := by
  induction text generalizing behind with
  | nil => simp [last]
  | cons c text ih =>
    rw [cons_append,rewrite]
    have none_ : find behind (c :: (text ++ rest)) = none := free.1
    rw [none_]
    simp only [ih free.2,bind_assoc,pure_bind]
    rfl

theorem rewrite_none (free : Free find behind text []) : rewrite find out s behind 0 text = pure (text,s) := by
  have whole : rewrite find out s behind 0 (text ++ []) = _ := rewrite_free free
  rw [append_nil] at whole
  rw [whole]
  simp [rewrite]

end monad

section pure
variable {out : β → List α}

theorem replace_free (free : Free find behind text rest) :
    replace find out behind (text ++ rest) = text ++ replace find out (last behind text) rest := by
  rw [replace,rewrite_free free]
  rfl

theorem replace_match (found : find behind (c :: text ++ rest) = some (text.length + 1,captured)) :
    replace find out behind (c :: text ++ rest) = out captured ++ replace find out (last (some c) text) rest := by
  rw [replace,rewrite_match found]
  rfl

theorem replace_none (free : Free find behind text []) : replace find out behind text = text := by
  rw [replace,rewrite_none free]
  rfl

end pure

theorem run_rewrite (known : κ → ν) (out : σ → β → Asking κ ν (List α × σ)) (skip : Nat) :
    (rewrite find out s behind skip text).run known =
      Id.run (rewrite find (fun s captured => pure ((out s captured).run known)) s behind skip text) := by
  induction text generalizing s behind skip with
  | nil => rfl
  | cons c text ih =>
    cases skip with
    | succ skip => exact ih skip
    | zero =>
      unfold rewrite
      cases find behind (c :: text) with
      | none => simp [ih]
      | some found => simp [ih]

end lemmas

end Rewrite
