import Mathlib

-- Arithmetic in the text of a JavaScript expression: numeric literals, + - *, and parentheses.
-- Tokens are as long as they can be, a sign in front of an operand belongs to it, and * binds
-- before + and -, each of them from the left.
namespace JsArith
open List

inductive Token where
  | number (text : List Char)
  | plus | minus | star
  | increment | decrement | power
  | left | right
  deriving DecidableEq, Repr

def Numeral (c : Char) : Prop := c.isDigit = true ∨ c = '.'

instance (c : Char) : Decidable (Numeral c) := inferInstanceAs (Decidable (_ ∨ _))

def push (tokens : List Token) (c : Char) : Option (List Token) :=
  if Numeral c then
    match tokens with
    | .number text :: rest => some (.number (text ++ [c]) :: rest)
    | _ => some (.number [c] :: tokens)
  else if c = '+' then
    match tokens with
    | .plus :: rest => some (.increment :: rest)
    | _ => some (.plus :: tokens)
  else if c = '-' then
    match tokens with
    | .minus :: rest => some (.decrement :: rest)
    | _ => some (.minus :: tokens)
  else if c = '*' then
    match tokens with
    | .star :: rest => some (.power :: rest)
    | _ => some (.star :: tokens)
  else if c = '(' then some (.left :: tokens)
  else if c = ')' then some (.right :: tokens)
  else none

def lex (text : List Char) : Option (List Token) := (text.foldlM push []).map List.reverse

structure Numbers (ν : Type*) where
  literal : List Char → Option ν
  add : ν → ν → ν
  sub : ν → ν → ν
  mul : ν → ν → ν
  neg : ν → ν

section machine
variable {ν : Type*}

-- What waits for the operand that comes next: a sum and whether it is to be subtracted from,
-- a product, and a sign.
structure Level (ν : Type*) where
  sum : Option (ν × Bool)
  product : Option ν
  negate : Bool

def Level.start : Level ν := ⟨none,none,false⟩

structure Machine (ν : Type*) where
  outer : List (Level ν)
  level : Level ν
  operand : Option ν

def signed (numbers : Numbers ν) (negate : Bool) (n : ν) : ν := if negate then numbers.neg n else n

def timesProduct (numbers : Numbers ν) (level : Level ν) (n : ν) : ν :=
  match level.product with
  | some product => numbers.mul product n
  | none => n

def total (numbers : Numbers ν) (level : Level ν) (n : ν) : ν :=
  match level.sum with
  | some (sum,true) => numbers.sub sum (timesProduct numbers level n)
  | some (sum,false) => numbers.add sum (timesProduct numbers level n)
  | none => timesProduct numbers level n

def step (numbers : Numbers ν) (machine : Machine ν) (token : Token) : Option (Machine ν) :=
  match machine.operand with
  | none => match token with
    | .number text => (numbers.literal text).map (fun n => {machine with operand := some (signed numbers machine.level.negate n)})
    | .left => some ⟨machine.level :: machine.outer,.start,none⟩
    | .minus => some {machine with level := {machine.level with negate := !machine.level.negate}}
    | .plus => some machine
    | _ => none
  | some n => match token with
    | .star => some ⟨machine.outer,⟨machine.level.sum,some (timesProduct numbers machine.level n),false⟩,none⟩
    | .plus => some ⟨machine.outer,⟨some (total numbers machine.level n,false),none,false⟩,none⟩
    | .minus => some ⟨machine.outer,⟨some (total numbers machine.level n,true),none,false⟩,none⟩
    | .right => match machine.outer with
      | level :: outer => some ⟨outer,level,some (signed numbers level.negate (total numbers machine.level n))⟩
      | [] => none
    | _ => none

def finish (numbers : Numbers ν) (machine : Machine ν) : Option ν :=
  match machine.outer,machine.operand with
  | [],some n => some (total numbers machine.level n)
  | _,_ => none

def run (numbers : Numbers ν) (tokens : List Token) : Option ν :=
  (tokens.foldlM (step numbers) ⟨[],.start,none⟩).bind (finish numbers)

def eval (numbers : Numbers ν) (text : List Char) : Option ν := (lex text).bind (run numbers)

end machine

-- Expressions over any leaves, as the grammar has them.
mutual
inductive Expr (α : Type) where
  | term (t : Term α)
  | add (e : Expr α) (t : Term α)
  | sub (e : Expr α) (t : Term α)
inductive Term (α : Type) where
  | factor (f : Factor α)
  | mul (t : Term α) (f : Factor α)
inductive Factor (α : Type) where
  | leaf (a : α)
  | paren (e : Expr α)
end

section grammar
variable {α : Type} {ν : Type*}

mutual
def Expr.print (leaf : α → List Char) : Expr α → List Char
  | .term t => t.print leaf
  | .add e t => e.print leaf ++ '+' :: t.print leaf
  | .sub e t => e.print leaf ++ '-' :: t.print leaf
def Term.print (leaf : α → List Char) : Term α → List Char
  | .factor f => f.print leaf
  | .mul t f => t.print leaf ++ '*' :: f.print leaf
def Factor.print (leaf : α → List Char) : Factor α → List Char
  | .leaf a => leaf a
  | .paren e => '(' :: (e.print leaf ++ [')'])
end

mutual
def Expr.value (numbers : Numbers ν) (leaf : α → ν) : Expr α → ν
  | .term t => t.value numbers leaf
  | .add e t => numbers.add (e.value numbers leaf) (t.value numbers leaf)
  | .sub e t => numbers.sub (e.value numbers leaf) (t.value numbers leaf)
def Term.value (numbers : Numbers ν) (leaf : α → ν) : Term α → ν
  | .factor f => f.value numbers leaf
  | .mul t f => numbers.mul (t.value numbers leaf) (f.value numbers leaf)
def Factor.value (numbers : Numbers ν) (leaf : α → ν) : Factor α → ν
  | .leaf a => leaf a
  | .paren e => e.value numbers leaf
end

structure Printed where
  negative : Bool
  digits : List Char

def Printed.text (p : Printed) : List Char := if p.negative then '-' :: p.digits else p.digits

def Printed.tokens (p : Printed) : List Token := if p.negative then [.minus,.number p.digits] else [.number p.digits]

def glue (token : Token) : List Token → List Token
  | .minus :: rest => if token = .minus then .decrement :: rest else token :: .minus :: rest
  | tokens => token :: tokens

mutual
def Expr.tokens (leaf : α → Printed) : Expr α → List Token
  | .term t => t.tokens leaf
  | .add e t => e.tokens leaf ++ glue .plus (t.tokens leaf)
  | .sub e t => e.tokens leaf ++ glue .minus (t.tokens leaf)
def Term.tokens (leaf : α → Printed) : Term α → List Token
  | .factor f => f.tokens leaf
  | .mul t f => t.tokens leaf ++ glue .star (f.tokens leaf)
def Factor.tokens (leaf : α → Printed) : Factor α → List Token
  | .leaf a => (leaf a).tokens
  | .paren e => .left :: (e.tokens leaf ++ [.right])
end

section lexing
variable {leaf : α → Printed} {acc tokens more : List Token} {text rest : List Char} {token : Token} {c : Char}

def Open (acc : List Token) : Prop := ∀ text, acc.head? ≠ some (.number text)

def join (acc tokens : List Token) : List Token :=
  match acc with
  | .minus :: before => (glue .minus tokens).reverse ++ before
  | acc => tokens.reverse ++ acc

theorem glue_other (other : token ≠ .minus) (tokens : List Token) : glue token tokens = token :: tokens := by
  unfold glue
  split
  · simp [other]
  · rfl

theorem join_glue (token : Token) (acc tokens : List Token) :
    join (token :: acc) tokens = (glue token tokens).reverse ++ acc := by
  by_cases minus : token = .minus
  · subst minus
    rfl
  · rw [glue_other minus]
    cases token <;> simp_all [join]

theorem glue_append (token : Token) (some_ : tokens ≠ []) (more : List Token) :
    glue token (tokens ++ more) = glue token tokens ++ more := by
  cases tokens with
  | nil => exact absurd rfl some_
  | cons first rest =>
    by_cases minus : token = .minus
    · subst minus
      cases first <;> rfl
    · rw [glue_other minus,glue_other minus]
      rfl

theorem join_append (some_ : tokens ≠ []) (acc more : List Token) :
    join acc (tokens ++ more) = more.reverse ++ join acc tokens := by
  cases acc with
  | nil => simp [join]
  | cons token acc => rw [join_glue,join_glue,glue_append token some_,reverse_append,append_assoc]

structure Lexes (text : List Char) (tokens : List Token) : Prop where
  closed : ∃ front last, tokens = front ++ [last] ∧ (last = .right ∨ ∃ digits, last = .number digits)
  lexes : ∀ acc, Open acc → text.foldlM push acc = some (join acc tokens)

theorem open_cons (other : ∀ text, token ≠ .number text) (acc : List Token) : Open (token :: acc) := by
  intro text head
  simp only [head?_cons,Option.some.injEq] at head
  exact other text head

theorem push_numeral (numeral : Numeral c) (fresh : Open acc) : push acc c = some (.number [c] :: acc) := by
  unfold push
  rw [if_pos numeral]
  split
  · rename_i text rest
    exact absurd rfl (fresh text)
  · rfl

theorem push_digits (digits : List Char) (numerals : ∀ c ∈ digits, Numeral c) (text : List Char) (acc : List Token) :
    digits.foldlM push (.number text :: acc) = some (.number (text ++ digits) :: acc) := by
  induction digits generalizing text with
  | nil => simp
  | cons c digits ih =>
    have first : push (.number text ::acc) c = some (.number (text ++ [c]) :: acc) := by
      unfold push
      rw [if_pos (numerals c mem_cons_self)]
    rw [foldlM_cons,first]
    simpa using ih (fun c member => numerals c (mem_cons_of_mem _ member)) (text ++ [c])

theorem push_number {digits : List Char} (some_ : digits ≠ []) (numerals : ∀ c ∈ digits, Numeral c) (fresh : Open acc) :
    digits.foldlM push acc = some (.number digits :: acc) := by
  cases digits with
  | nil => exact absurd rfl some_
  | cons c digits =>
    rw [foldlM_cons,push_numeral (numerals c mem_cons_self) fresh]
    exact push_digits digits (fun c member => numerals c (mem_cons_of_mem _ member)) [c] acc

theorem push_minus (acc : List Token) : push acc '-' = some (join acc [.minus]) := by
  cases acc with
  | nil => rfl
  | cons token acc => cases token <;> rfl

theorem lexes_leaf (p : Printed) (some_ : p.digits ≠ []) (numerals : ∀ c ∈ p.digits, Numeral c) :
    Lexes p.text p.tokens := by
  obtain ⟨negative,digits⟩ := p
  cases negative with
  | false =>
    refine ⟨⟨[],.number digits,rfl,.inr ⟨digits,rfl⟩⟩,fun acc fresh => ?_⟩
    have read := push_number some_ numerals fresh
    cases acc with
    | nil => exact read
    | cons token acc => cases token <;> exact read
  | true =>
    refine ⟨⟨[.minus],.number digits,rfl,.inr ⟨digits,rfl⟩⟩,fun acc fresh => ?_⟩
    have split : Printed.tokens ⟨true,digits⟩ = [.minus] ++ [.number digits] := rfl
    have after : Open (join acc [.minus]) := by
      cases acc with
      | nil => exact open_cons (by simp) _
      | cons token acc => cases token <;> exact open_cons (by simp) _
    rw [Printed.text,if_pos rfl,foldlM_cons,push_minus,split,join_append (by simp)]
    exact push_number some_ numerals after

def Operand (token : Token) : Prop := token = .right ∨ ∃ digits, token = .number digits

theorem Operand.not_minus (operand : Operand token) : token ≠ .minus := by
  rcases operand with rfl | ⟨digits,rfl⟩ <;> simp

theorem Lexes.ends (piece : Lexes text tokens) (acc : List Token) : ∃ last before, Operand last ∧ join acc tokens = last :: before := by
  obtain ⟨front,last,rfl,operand⟩ := piece.closed
  cases front with
  | nil =>
    cases acc with
    | nil => exact ⟨last,[],operand,rfl⟩
    | cons token acc =>
      refine ⟨last,token :: acc,operand,?_⟩
      rw [join_glue]
      cases last with
      | minus => exact absurd rfl (Operand.not_minus operand)
      | _ => rfl
  | cons first front =>
    refine ⟨last,join acc (first :: front),operand,?_⟩
    rw [join_append (by simp)]
    rfl

theorem Lexes.glued (piece : Lexes text tokens) (token : Token) : ∃ front last, glue token tokens = front ++ [last] ∧ Operand last := by
  obtain ⟨front,last,rfl,operand⟩ := piece.closed
  cases front with
  | nil =>
    refine ⟨[token],last,?_,operand⟩
    cases last with
    | minus => exact absurd rfl (Operand.not_minus operand)
    | _ => rfl
  | cons first front => exact ⟨glue token (first :: front),last,glue_append token (by simp) [last],operand⟩

theorem Lexes.some_ (piece : Lexes text tokens) : tokens ≠ [] := by
  obtain ⟨front,last,rfl,_⟩ := piece.closed
  simp

def Pushes (c : Char) (token : Token) : Prop := ∀ last before, Operand last → push (last :: before) c = some (token :: last :: before)

theorem lexes_binary (left : Lexes text tokens) (right : Lexes rest more) (pushes : Pushes c token)
    (plain : ∀ text, token ≠ .number text) : Lexes (text ++ c :: rest) (tokens ++ glue token more) := by
  obtain ⟨front,last,glued,operand⟩ := right.glued token
  refine ⟨⟨tokens ++ front,last,by rw [glued,append_assoc],operand⟩,fun acc fresh => ?_⟩
  obtain ⟨end_,before,closed,shape⟩ := left.ends acc
  have second := right.lexes (token :: join acc tokens) (open_cons plain _)
  rw [foldlM_append,left.lexes acc fresh,join_append left.some_,← join_glue,← second,shape]
  change (c :: rest).foldlM push (end_ :: before) = _
  rw [foldlM_cons,pushes end_ before closed]
  rfl

theorem lexes_paren (inner : Lexes text tokens) : Lexes ('(' :: (text ++ [')'])) (.left :: (tokens ++ [.right])) := by
  refine ⟨⟨.left :: tokens,.right,rfl,.inl rfl⟩,fun acc _ => ?_⟩
  have opened : push acc '(' = some (.left :: acc) := rfl
  have closed : ∀ tokens, push tokens ')' = some (.right :: tokens) := fun _ => rfl
  have whole : join acc (.left :: (tokens ++ [.right])) = .right :: join (.left :: acc) tokens := by
    rw [join_glue,glue_other (by simp)]
    cases acc with
    | nil => simp [join]
    | cons token acc => rw [join_glue]; cases token <;> simp [glue]
  rw [foldlM_cons,opened,whole]
  change (text ++ [')']).foldlM push (.left :: acc) = _
  rw [foldlM_append,inner.lexes _ (open_cons (by simp) acc)]
  exact closed _

theorem pushes_plus : Pushes '+' .plus := by
  rintro last before (rfl | ⟨digits,rfl⟩) <;> rfl

theorem pushes_minus : Pushes '-' .minus := by
  rintro last before (rfl | ⟨digits,rfl⟩) <;> rfl

theorem pushes_star : Pushes '*' .star := by
  rintro last before (rfl | ⟨digits,rfl⟩) <;> rfl

def Numeric (leaf : α → Printed) : Prop := ∀ a, (leaf a).digits ≠ [] ∧ ∀ c ∈ (leaf a).digits, Numeral c

mutual
theorem Expr.lexes (numeric : Numeric leaf) : (e : Expr α) → Lexes (e.print (fun a => (leaf a).text)) (e.tokens leaf)
  | .term t => Term.lexes numeric t
  | .add e t => lexes_binary (Expr.lexes numeric e) (Term.lexes numeric t) pushes_plus (by simp)
  | .sub e t => lexes_binary (Expr.lexes numeric e) (Term.lexes numeric t) pushes_minus (by simp)
theorem Term.lexes (numeric : Numeric leaf) : (t : Term α) → Lexes (t.print (fun a => (leaf a).text)) (t.tokens leaf)
  | .factor f => Factor.lexes numeric f
  | .mul t f => lexes_binary (Term.lexes numeric t) (Factor.lexes numeric f) pushes_star (by simp)
theorem Factor.lexes (numeric : Numeric leaf) : (f : Factor α) → Lexes (f.print (fun a => (leaf a).text)) (f.tokens leaf)
  | .leaf a => lexes_leaf (leaf a) (numeric a).1 (numeric a).2
  | .paren e => lexes_paren (Expr.lexes numeric e)
end

theorem lex_print (numeric : Numeric leaf) (e : Expr α) : lex (e.print (fun a => (leaf a).text)) = some (e.tokens leaf) := by
  have read := (Expr.lexes numeric e).lexes [] (fun _ => by simp)
  rw [lex,read]
  simp [join]

end lexing

mutual
def Expr.leaves : Expr α → List α
  | .term t => t.leaves
  | .add e t => e.leaves ++ t.leaves
  | .sub e t => e.leaves ++ t.leaves
def Term.leaves : Term α → List α
  | .factor f => f.leaves
  | .mul t f => t.leaves ++ f.leaves
def Factor.leaves : Factor α → List α
  | .leaf a => [a]
  | .paren e => e.leaves
end

def Factor.leading : Factor α → Option α
  | .leaf a => some a
  | .paren _ => none

def Term.leading : Term α → Option α
  | .factor f => f.leading
  | .mul t _ => t.leading

-- A minus right in front of a negative leaf.
mutual
def Expr.clashes (negative : α → Bool) : Expr α → Bool
  | .term t => t.clashes negative
  | .add e t => e.clashes negative || t.clashes negative
  | .sub e t => e.clashes negative || (t.clashes negative || t.leading.any negative)
def Term.clashes (negative : α → Bool) : Term α → Bool
  | .factor f => f.clashes negative
  | .mul t f => t.clashes negative || f.clashes negative
def Factor.clashes (negative : α → Bool) : Factor α → Bool
  | .leaf _ => false
  | .paren e => e.clashes negative
end

section texts
variable {leaf : α → List Char} {C : Char → Prop}

mutual
theorem Expr.chars (signs : ∀ c ∈ ['+','-','*','(',')'], C c) :
    (e : Expr α) → (∀ a ∈ e.leaves, ∀ c ∈ leaf a, C c) → ∀ c ∈ e.print leaf, C c
  | .term t => Term.chars signs t
  | .add e t | .sub e t => by
    intro known c member
    simp only [Expr.print,mem_append,mem_cons] at member
    rcases member with front | rfl | back
    · exact Expr.chars signs e (fun a inside => known a (mem_append_left _ inside)) c front
    · exact signs _ (by simp)
    · exact Term.chars signs t (fun a inside => known a (mem_append_right _ inside)) c back
theorem Term.chars (signs : ∀ c ∈ ['+','-','*','(',')'], C c) :
    (t : Term α) → (∀ a ∈ t.leaves, ∀ c ∈ leaf a, C c) → ∀ c ∈ t.print leaf, C c
  | .factor f => Factor.chars signs f
  | .mul t f => by
    intro known c member
    simp only [Term.print,mem_append,mem_cons] at member
    rcases member with front | rfl | back
    · exact Term.chars signs t (fun a inside => known a (mem_append_left _ inside)) c front
    · exact signs _ (by simp)
    · exact Factor.chars signs f (fun a inside => known a (mem_append_right _ inside)) c back
theorem Factor.chars (signs : ∀ c ∈ ['+','-','*','(',')'], C c) :
    (f : Factor α) → (∀ a ∈ f.leaves, ∀ c ∈ leaf a, C c) → ∀ c ∈ f.print leaf, C c
  | .leaf a => fun known => known a mem_cons_self
  | .paren e => by
    intro known c member
    simp only [Factor.print,mem_append,mem_cons,not_mem_nil,or_false] at member
    rcases member with rfl | inside | rfl
    · exact signs _ (by simp)
    · exact Expr.chars signs e known c inside
    · exact signs _ (by simp)
end

-- A relation of two texts that is carried from the back to the front of an expression: by its
-- signs, and by its leaves in front of what may come after one.
section carrying
variable (leaf out : α → List Char) {E : List Char → Prop} {R : List Char → List Char → Prop}

mutual
theorem Expr.carries (signs : ∀ c ∈ ['+','-','*','(',')'], ∀ x y, R x y → R (c :: x) (c :: y)) (ends : ∀ c ∈ ['+','-','*',')'], ∀ x, E (c :: x)) :
    (e : Expr α) → (∀ a ∈ e.leaves, ∀ x y, E x → R x y → R (leaf a ++ x) (out a ++ y)) →
      ∀ x y, E x → R x y → R (e.print leaf ++ x) (e.print out ++ y)
  | .term t => Term.carries signs ends t
  | .add e t => by
    intro leaves x y stop given
    have back := Term.carries signs ends t (fun a member => leaves a (mem_append_right _ member)) x y stop given
    have front := Expr.carries signs ends e (fun a member => leaves a (mem_append_left _ member)) _ _ (ends '+' (by simp) _)
      (signs '+' (by simp) _ _ back)
    simpa [Expr.print] using front
  | .sub e t => by
    intro leaves x y stop given
    have back := Term.carries signs ends t (fun a member => leaves a (mem_append_right _ member)) x y stop given
    have front := Expr.carries signs ends e (fun a member => leaves a (mem_append_left _ member)) _ _ (ends '-' (by simp) _)
      (signs '-' (by simp) _ _ back)
    simpa [Expr.print] using front
theorem Term.carries (signs : ∀ c ∈ ['+','-','*','(',')'], ∀ x y, R x y → R (c :: x) (c :: y)) (ends : ∀ c ∈ ['+','-','*',')'], ∀ x, E (c :: x)) :
    (t : Term α) → (∀ a ∈ t.leaves, ∀ x y, E x → R x y → R (leaf a ++ x) (out a ++ y)) →
      ∀ x y, E x → R x y → R (t.print leaf ++ x) (t.print out ++ y)
  | .factor f => Factor.carries signs ends f
  | .mul t f => by
    intro leaves x y stop given
    have back := Factor.carries signs ends f (fun a member => leaves a (mem_append_right _ member)) x y stop given
    have front := Term.carries signs ends t (fun a member => leaves a (mem_append_left _ member)) _ _ (ends '*' (by simp) _)
      (signs '*' (by simp) _ _ back)
    simpa [Term.print] using front
theorem Factor.carries (signs : ∀ c ∈ ['+','-','*','(',')'], ∀ x y, R x y → R (c :: x) (c :: y)) (ends : ∀ c ∈ ['+','-','*',')'], ∀ x, E (c :: x)) :
    (f : Factor α) → (∀ a ∈ f.leaves, ∀ x y, E x → R x y → R (leaf a ++ x) (out a ++ y)) →
      ∀ x y, E x → R x y → R (f.print leaf ++ x) (f.print out ++ y)
  | .leaf a => fun leaves => leaves a mem_cons_self
  | .paren e => by
    intro leaves x y _ given
    have inner := Expr.carries signs ends e leaves _ _ (ends ')' (by simp) x) (signs ')' (by simp) x y given)
    simpa [Factor.print] using signs '(' (by simp) _ _ inner
end

end carrying

-- The texts of the leaves are parts of the text.
mutual
theorem Expr.inside : (e : Expr α) → ∀ a ∈ e.leaves, ∀ c ∈ leaf a, c ∈ e.print leaf
  | .term t => t.inside
  | .add e t => fun a member c within => mem_append.mpr ((mem_append.mp member).imp (fun front => e.inside a front c within)
      (fun back => mem_cons_of_mem _ (t.inside a back c within)))
  | .sub e t => fun a member c within => mem_append.mpr ((mem_append.mp member).imp (fun front => e.inside a front c within)
      (fun back => mem_cons_of_mem _ (t.inside a back c within)))
theorem Term.inside : (t : Term α) → ∀ a ∈ t.leaves, ∀ c ∈ leaf a, c ∈ t.print leaf
  | .factor f => f.inside
  | .mul t f => fun a member c within => mem_append.mpr ((mem_append.mp member).imp (fun front => t.inside a front c within)
      (fun back => mem_cons_of_mem _ (f.inside a back c within)))
theorem Factor.inside : (f : Factor α) → ∀ a ∈ f.leaves, ∀ c ∈ leaf a, c ∈ f.print leaf
  | .leaf _ => fun _ member _ within => mem_singleton.mp member ▸ within
  | .paren e => fun a member c within => mem_cons_of_mem _ (mem_append_left _ (e.inside a member c within))
end

mutual
theorem Expr.some_leaf : (e : Expr α) → ∃ a, a ∈ e.leaves
  | .term t => t.some_leaf
  | .add e _ => e.some_leaf.imp (fun _ member => mem_append_left _ member)
  | .sub e _ => e.some_leaf.imp (fun _ member => mem_append_left _ member)
theorem Term.some_leaf : (t : Term α) → ∃ a, a ∈ t.leaves
  | .factor f => f.some_leaf
  | .mul t _ => t.some_leaf.imp (fun _ member => mem_append_left _ member)
theorem Factor.some_leaf : (f : Factor α) → ∃ a, a ∈ f.leaves
  | .leaf a => ⟨a,mem_cons_self⟩
  | .paren e => e.some_leaf
end

end texts

def Expr.sum (first : α) (rest : List α) : Expr α := rest.foldl (fun e a => .add e (.factor (.leaf a))) (.term (.factor (.leaf first)))

theorem print_fold (leaf : α → List Char) (rest : List α) (e : Expr α) :
    (rest.foldl (fun e a => Expr.add e (.factor (.leaf a))) e).print leaf = e.print leaf ++ rest.flatMap (fun a => '+' :: leaf a) := by
  induction rest generalizing e with
  | nil => simp
  | cons a rest ih =>
    rw [foldl_cons,ih]
    simp [Expr.print,Term.print,Factor.print]

theorem clashes_fold (negative : α → Bool) (rest : List α) (e : Expr α) :
    (rest.foldl (fun e a => Expr.add e (.factor (.leaf a))) e).clashes negative = e.clashes negative := by
  induction rest generalizing e with
  | nil => rfl
  | cons a rest ih =>
    rw [foldl_cons,ih]
    simp [Expr.clashes,Term.clashes,Factor.clashes]

theorem value_fold (numbers : Numbers ν) (leaf : α → ν) (rest : List α) (e : Expr α) :
    (rest.foldl (fun e a => Expr.add e (.factor (.leaf a))) e).value numbers leaf =
      rest.foldl (fun sum a => numbers.add sum (leaf a)) (e.value numbers leaf) := by
  induction rest generalizing e with
  | nil => rfl
  | cons a rest ih =>
    rw [foldl_cons,ih]
    rfl

section running
variable {leaf : α → Printed} {tokens : List Token} {token : Token} {digits : List Char} {numbers : Numbers ν} {read : α → ν}

theorem Printed.minus (p : Printed) : p.tokens.head? = some .minus ↔ p.negative = true := by
  obtain ⟨negative,digits⟩ := p
  cases negative <;> simp [Printed.tokens]

theorem Printed.some_ (p : Printed) : p.tokens ≠ [] := by
  unfold Printed.tokens
  split <;> simp

theorem head_append (some_ : tokens ≠ []) (more : List Token) : (tokens ++ more).head? = tokens.head? := by
  cases tokens with
  | nil => exact absurd rfl some_
  | cons first rest => rfl

theorem Factor.head (f : Factor α) :
    f.tokens leaf ≠ [] ∧ ((f.tokens leaf).head? = some .minus ↔ f.leading.any (fun a => (leaf a).negative) = true) := by
  cases f with
  | leaf a => exact ⟨(leaf a).some_,(leaf a).minus⟩
  | paren e => simp [Factor.tokens,Factor.leading]

theorem Term.head : (t : Term α) →
    t.tokens leaf ≠ [] ∧ ((t.tokens leaf).head? = some .minus ↔ t.leading.any (fun a => (leaf a).negative) = true)
  | .factor f => f.head
  | .mul t f => by
    obtain ⟨some_,same⟩ := Term.head t
    rw [Term.tokens,head_append some_]
    exact ⟨by simp [some_],same⟩

theorem decrement_minus (tokens : List Token) :
    .decrement ∈ glue .minus tokens ↔ .decrement ∈ tokens ∨ tokens.head? = some .minus := by
  cases tokens with
  | nil => simp [glue]
  | cons first rest => cases first <;> simp [glue]

theorem number_glue (token : Token) (member : .number digits ∈ tokens) : .number digits ∈ glue token tokens := by
  cases tokens with
  | nil => cases member
  | cons first rest =>
    unfold glue
    split
    · split <;> simp_all
    · exact mem_cons_of_mem _ member

theorem Printed.plain (p : Printed) : .decrement ∉ p.tokens := by
  unfold Printed.tokens
  split <;> simp

-- The token -- stands where a minus meets a sign, and nowhere else.
mutual
theorem Expr.decrement : (e : Expr α) → (.decrement ∈ e.tokens leaf ↔ e.clashes (fun a => (leaf a).negative) = true)
  | .term t => t.decrement
  | .add e t => by simp [Expr.tokens,Expr.clashes,glue_other,e.decrement,t.decrement]
  | .sub e t => by
    simp only [Expr.tokens,Expr.clashes,mem_append,decrement_minus,e.decrement,t.decrement,t.head.2,Bool.or_eq_true]
theorem Term.decrement : (t : Term α) → (.decrement ∈ t.tokens leaf ↔ t.clashes (fun a => (leaf a).negative) = true)
  | .factor f => f.decrement
  | .mul t f => by simp [Term.tokens,Term.clashes,glue_other,t.decrement,f.decrement]
theorem Factor.decrement : (f : Factor α) → (.decrement ∈ f.tokens leaf ↔ f.clashes (fun a => (leaf a).negative) = true)
  | .leaf a => by simp [Factor.tokens,Factor.clashes,(leaf a).plain]
  | .paren e => by simp [Factor.tokens,Factor.clashes,e.decrement]
end

theorem power_glue (other : token ≠ .power) (absent : .power ∉ tokens) : .power ∉ glue token tokens := by
  cases tokens with
  | nil => simpa [glue] using other.symm
  | cons first rest =>
    unfold glue
    split
    · split <;> simp_all [eq_comm]
    · simp_all [eq_comm]

mutual
theorem Expr.power : (e : Expr α) → .power ∉ e.tokens leaf
  | .term t => t.power
  | .add e t => fun member => (mem_append.mp member).elim e.power (power_glue (by simp) t.power)
  | .sub e t => fun member => (mem_append.mp member).elim e.power (power_glue (by simp) t.power)
theorem Term.power : (t : Term α) → .power ∉ t.tokens leaf
  | .factor f => f.power
  | .mul t f => fun member => (mem_append.mp member).elim t.power (power_glue (by simp) f.power)
theorem Factor.power : (f : Factor α) → .power ∉ f.tokens leaf
  | .leaf a => by
    unfold Factor.tokens Printed.tokens
    split <;> simp
  | .paren e => by simp [Factor.tokens,e.power]
end

mutual
theorem Expr.number : (e : Expr α) → ∀ a ∈ e.leaves, .number (leaf a).digits ∈ e.tokens leaf
  | .term t => t.number
  | .add e t => fun a member => mem_append.mpr ((mem_append.mp member).imp (e.number a) (fun inside => number_glue _ (t.number a inside)))
  | .sub e t => fun a member => mem_append.mpr ((mem_append.mp member).imp (e.number a) (fun inside => number_glue _ (t.number a inside)))
theorem Term.number : (t : Term α) → ∀ a ∈ t.leaves, .number (leaf a).digits ∈ t.tokens leaf
  | .factor f => f.number
  | .mul t f => fun a member => mem_append.mpr ((mem_append.mp member).imp (t.number a) (fun inside => number_glue _ (f.number a inside)))
theorem Factor.number : (f : Factor α) → ∀ a ∈ f.leaves, .number (leaf a).digits ∈ f.tokens leaf
  | .leaf b => by
    intro a member
    rw [Factor.leaves,mem_singleton] at member
    subst member
    unfold Factor.tokens Printed.tokens
    split <;> simp
  | .paren e => fun a member => mem_cons_of_mem _ (mem_append_left _ (e.number a member))
end

def leafValue (numbers : Numbers ν) (leaf : α → Printed) (read : α → ν) (a : α) : ν :=
  signed numbers (leaf a).negative (read a)

-- A machine that waits for an operand reads a factor as its operand, a term as its operand
-- with the product before it, an expression as all of its level.
mutual
theorem Expr.runs : (e : Expr α) → (apart : e.clashes (fun a => (leaf a).negative) = false) →
    (reads : ∀ a ∈ e.leaves, numbers.literal (leaf a).digits = some (read a)) → (outer : List (Level ν)) →
    ∃ level n, (e.tokens leaf).foldlM (step numbers) ⟨outer,.start,none⟩ = some ⟨outer,level,some n⟩ ∧
      total numbers level n = e.value numbers (leafValue numbers leaf read)
  | .term t => by
    intro apart reads outer
    obtain ⟨product,negate,n,ran,value⟩ := t.runs apart reads outer none
    exact ⟨⟨none,product,negate⟩,n,ran,value⟩
  | .add e t => by
    intro apart reads outer
    simp only [Expr.clashes,Bool.or_eq_false_iff] at apart
    obtain ⟨level,n,ran,value⟩ := e.runs apart.1 (fun a member => reads a (mem_append_left _ member)) outer
    obtain ⟨product,negate,m,next,last⟩ :=
      t.runs apart.2 (fun a member => reads a (mem_append_right _ member)) outer (some (total numbers level n,false))
    refine ⟨⟨some (total numbers level n,false),product,negate⟩,m,?_,?_⟩
    · rw [Expr.tokens,foldlM_append,ran,glue_other (by simp)]
      exact next
    · simp only [total] at value last ⊢
      rw [last,value,Expr.value]
  | .sub e t => by
    intro apart reads outer
    simp only [Expr.clashes,Bool.or_eq_false_iff] at apart
    obtain ⟨level,n,ran,value⟩ := e.runs apart.1 (fun a member => reads a (mem_append_left _ member)) outer
    obtain ⟨product,negate,m,next,last⟩ :=
      t.runs apart.2.1 (fun a member => reads a (mem_append_right _ member)) outer (some (total numbers level n,true))
    have plain : (t.tokens leaf).head? ≠ some .minus := fun head => by simp [t.head.2.mp head] at apart
    have opened : glue .minus (t.tokens leaf) = .minus :: t.tokens leaf := by
      unfold glue
      split
      · rename_i rest same
        simp [same] at plain
      · rfl
    refine ⟨⟨some (total numbers level n,true),product,negate⟩,m,?_,?_⟩
    · rw [Expr.tokens,foldlM_append,ran,opened]
      exact next
    · simp only [total] at value last ⊢
      rw [last,value,Expr.value]
theorem Term.runs : (t : Term α) → (apart : t.clashes (fun a => (leaf a).negative) = false) →
    (reads : ∀ a ∈ t.leaves, numbers.literal (leaf a).digits = some (read a)) → (outer : List (Level ν)) →
    (sum : Option (ν × Bool)) →
    ∃ product negate n, (t.tokens leaf).foldlM (step numbers) ⟨outer,⟨sum,none,false⟩,none⟩ = some ⟨outer,⟨sum,product,negate⟩,some n⟩ ∧
      timesProduct numbers ⟨sum,product,negate⟩ n = t.value numbers (leafValue numbers leaf read)
  | .factor f => by
    intro apart reads outer sum
    obtain ⟨negate,ran⟩ := f.runs apart reads outer sum none
    exact ⟨none,negate,_,ran,rfl⟩
  | .mul t f => by
    intro apart reads outer sum
    simp only [Term.clashes,Bool.or_eq_false_iff] at apart
    obtain ⟨product,negate,n,ran,value⟩ := t.runs apart.1 (fun a member => reads a (mem_append_left _ member)) outer sum
    obtain ⟨sign,next⟩ := f.runs apart.2 (fun a member => reads a (mem_append_right _ member)) outer sum
      (some (timesProduct numbers ⟨sum,product,negate⟩ n))
    refine ⟨some (timesProduct numbers ⟨sum,product,negate⟩ n),sign,f.value numbers (leafValue numbers leaf read),?_,?_⟩
    · rw [Term.tokens,foldlM_append,ran,glue_other (by simp)]
      exact next
    · simp [timesProduct,Term.value,← value]
theorem Factor.runs : (f : Factor α) → (apart : f.clashes (fun a => (leaf a).negative) = false) →
    (reads : ∀ a ∈ f.leaves, numbers.literal (leaf a).digits = some (read a)) → (outer : List (Level ν)) →
    (sum : Option (ν × Bool)) → (product : Option ν) →
    ∃ negate, (f.tokens leaf).foldlM (step numbers) ⟨outer,⟨sum,product,false⟩,none⟩ =
      some ⟨outer,⟨sum,product,negate⟩,some (f.value numbers (leafValue numbers leaf read))⟩
  | .leaf a => by
    intro _ reads outer sum product
    have known := reads a (mem_singleton.mpr rfl)
    cases sign : (leaf a).negative with
    | false => exact ⟨false,by simp [Factor.tokens,Printed.tokens,sign,step,known,Factor.value,leafValue]⟩
    | true => exact ⟨true,by simp [Factor.tokens,Printed.tokens,sign,step,known,Factor.value,leafValue]⟩
  | .paren e => by
    intro apart reads outer sum product
    obtain ⟨level,n,ran,value⟩ := e.runs apart reads (⟨sum,product,false⟩ :: outer)
    refine ⟨false,?_⟩
    have opened : step numbers ⟨outer,⟨sum,product,false⟩,none⟩ .left = some ⟨⟨sum,product,false⟩ :: outer,.start,none⟩ := rfl
    rw [Factor.tokens,foldlM_cons,opened]
    change (e.tokens leaf ++ [Token.right]).foldlM (step numbers) ⟨⟨sum,product,false⟩ :: outer,.start,none⟩ = _
    rw [foldlM_append,ran]
    simp [step,signed,value,Factor.value]
end

section
variable (member : token ∈ tokens) (blocked : ∀ machine, step numbers machine token = none)
include member blocked

theorem foldlM_none {machine : Machine ν} :
    tokens.foldlM (step numbers) machine = none := by
  induction tokens generalizing machine with
  | nil => cases member
  | cons first rest ih =>
    rw [foldlM_cons]
    rcases mem_cons.mp member with rfl | later
    · rw [blocked machine]
      rfl
    · cases step numbers machine first with
      | none => rfl
      | some next => exact ih later

theorem run_none :
    run numbers tokens = none := by
  rw [run,foldlM_none member blocked]
  rfl

end

theorem step_decrement (machine : Machine ν) : step numbers machine .decrement = none := by
  unfold step
  split <;> rfl

theorem step_literal (none_ : numbers.literal digits = none) (machine : Machine ν) :
    step numbers machine (.number digits) = none := by
  unfold step
  split <;> simp [none_]

section
variable (numeric : Numeric leaf) (e : Expr α)
include numeric e

theorem eval_print (apart : e.clashes (fun a => (leaf a).negative) = false)
    (reads : ∀ a ∈ e.leaves, numbers.literal (leaf a).digits = some (read a)) :
    eval numbers (e.print (fun a => (leaf a).text)) = some (e.value numbers (leafValue numbers leaf read)) := by
  obtain ⟨level,n,ran,value⟩ := e.runs apart reads []
  rw [eval,lex_print numeric]
  change run numbers (e.tokens leaf) = _
  rw [run,ran]
  simp [finish,value]

theorem eval_clash (clash : e.clashes (fun a => (leaf a).negative) = true) :
    eval numbers (e.print (fun a => (leaf a).text)) = none := by
  rw [eval,lex_print numeric]
  exact run_none (e.decrement.mpr clash) step_decrement

theorem eval_invalid {a : α} (member : a ∈ e.leaves)
    (invalid : numbers.literal (leaf a).digits = none) : eval numbers (e.print (fun a => (leaf a).text)) = none := by
  rw [eval,lex_print numeric]
  exact run_none (e.number a member) (step_literal invalid)

end

end running

end grammar

end JsArith
