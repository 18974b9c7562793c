import Ownly.Sheets.Aggregates

-- Calls inside calls: one pass over the text finds them, with a pattern that looks into one
-- pair of parentheses and no deeper.
namespace Ownly.Sheets.Formula
open Collab (Text)
open Spill (Scalar EvalArray FormulaEvalResult toScalar)
open Rewrite
open JsArith (Expr Term Factor Printed)
open List Option

-- `Math.round`
def mathRound (x : Rat) : Rat := ⌊x + 1/2⌋

def roundUp (x : Rat) : Rat := if 0 ≤ x then ⌈x⌉ else ⌊x⌋

def roundDown (x : Rat) : Rat := if 0 ≤ x then ⌊x⌋ else ⌈x⌉

def roundedBy (env : Env) (round : Rat → Rat) (arg : Scalar) : Called :=
  match coerceNumber env arg with
  | some value => called (.number (round value))
  | none => called (.text (textOf "#VALUE!"))

-- The cases of the switch for ABS and the roundings, called with one argument.
def unary (env : Env) (upper : Text) (arg : Scalar) : Option Called :=
  if upper = textOf "ABS" then some (match coerceNumber env arg with
    | some value => called (.number |value|)
    | none => .notFinite (textOf "NaN"))
  else if upper = textOf "ROUND" then some (roundedBy env mathRound arg)
  else if upper = textOf "ROUNDUP" then some (roundedBy env roundUp arg)
  else if upper = textOf "ROUNDDOWN" then some (roundedBy env roundDown arg)
  else none

def withUnary (env : Env) (other : Text → Text → List Scalar → Reading Called) (upper argsRaw : Text) : List Scalar → Reading Called
  | [arg] => match unary env upper arg with
    | some result => pure result
    | none => other upper argsRaw [arg]
  | args => other upper argsRaw args

def appliedTo (env : Env) (other : Text → Text → List Scalar → Reading Called) (name argsRaw : Text) (args : List Scalar) : Reading Called :=
  match aggregate (name.map Char.toUpper) (args.filterMap (coerceNumber env)) with
  | some result => pure result
  | none => other (name.map Char.toUpper) argsRaw args

structure NumericFunction (env : Env) (other : Text → Text → List Scalar → Reading Called) where
  name : Text
  value : Rat → Rat
  lettered : name ≠ [] ∧ ∀ c ∈ name, c.isAlpha = true
  unreserved : name.map Char.toLower ∉ [trueWord,falseWord,nullWord]
  double : ∀ n, Double.IsDouble n → Double.IsDouble (value n)
  gives : ∀ n, Double.IsDouble n → ∀ argsRaw known, (appliedTo env other name argsRaw [.number n]).run known = called (.number (value n))

inductive Unary where
  | abs | round | roundup | rounddown

def Unary.name : Unary → Text
  | .abs => textOf "ABS"
  | .round => textOf "ROUND"
  | .roundup => textOf "ROUNDUP"
  | .rounddown => textOf "ROUNDDOWN"

def Unary.value : Unary → Rat → Rat
  | .abs => fun n => |n|
  | .round => mathRound
  | .roundup => roundUp
  | .rounddown => roundDown

def Aggregate.value : Aggregate → Rat → Rat
  | .count => fun _ => 1
  | _ => fun n => n

section functions
variable {env : Env} {rest : Text → Text → List Scalar → Reading Called} {n : Rat}

theorem mathRound_double (double : Double.IsDouble n) : Double.IsDouble (mathRound n) := by
  refine Double.whole_double (f := fun x => ⌊x + 1/2⌋) (fun z => ?_) (fun x => ?_) double
  · rw [Int.floor_eq_iff]
    constructor <;> linarith
  · have low := Int.floor_le (x + 1/2)
    have high := Int.lt_floor_add_one (x + 1/2)
    rw [abs_le]
    constructor <;> linarith

theorem floor_near (x : Rat) : |(⌊x⌋ : Rat) - x| ≤ 1 := by
  have low := Int.floor_le x
  have high := Int.lt_floor_add_one x
  rw [abs_le]
  constructor <;> linarith

theorem ceil_near (x : Rat) : |(⌈x⌉ : Rat) - x| ≤ 1 := by
  have low := Int.le_ceil x
  have high := Int.ceil_lt_add_one x
  rw [abs_le]
  constructor <;> linarith

theorem roundUp_double (double : Double.IsDouble n) : Double.IsDouble (roundUp n) := by
  unfold roundUp
  split
  · exact Double.whole_double Int.ceil_intCast ceil_near double
  · exact Double.whole_double Int.floor_intCast floor_near double

theorem roundDown_double (double : Double.IsDouble n) : Double.IsDouble (roundDown n) := by
  unfold roundDown
  split
  · exact Double.whole_double Int.floor_intCast floor_near double
  · exact Double.whole_double Int.ceil_intCast ceil_near double

theorem Unary.double (u : Unary) (n : Rat) (double : Double.IsDouble n) : Double.IsDouble (u.value n) := by
  cases u with
  | abs => exact double.abs
  | round => exact mathRound_double double
  | roundup => exact roundUp_double double
  | rounddown => exact roundDown_double double

theorem Unary.gives (u : Unary) (n : Rat) (_ : Double.IsDouble n) (argsRaw : Text) (known : Position → Scalar) :
    (appliedTo env (withUnary env rest) u.name argsRaw [.number n]).run known = called (.number (u.value n)) := by
  cases u with
  | abs => rfl
  | round => rfl
  | roundup => rfl
  | rounddown => rfl

theorem Unary.lettered (u : Unary) : u.name ≠ [] ∧ ∀ c ∈ u.name, c.isAlpha = true := by cases u <;> simp [Unary.name,textOf]

theorem Unary.unreserved (u : Unary) : u.name.map Char.toLower ∉ [trueWord,falseWord,nullWord] := by cases u <;> decide

theorem Aggregate.double (a : Aggregate) (n : Rat) (double : Double.IsDouble n) : Double.IsDouble (a.value n) := by
  cases a with
  | count => exact_mod_cast Double.round_int (z := 1) (by norm_num)
  | _ => exact double

theorem Aggregate.gives (a : Aggregate) (n : Rat) (double : Double.IsDouble n) (argsRaw : Text) (known : Position → Scalar) :
    (appliedTo env rest a.name argsRaw [.number n]).run known = called (.number (a.value n)) := by
  obtain ⟨result,found⟩ := aggregate_some a [n]
  have upper : a.name.map Char.toUpper = a.name := by cases a <;> rfl
  have meets := aggregate_one double a found.symm
  have value : result = called (.number (a.value n)) := by
    cases a with
    | min => exact meets n (by simp) (by simp)
    | max => exact meets n (by simp) (by simp)
    | median => exact meets n (by simp [middle])
    | _ => simpa [Aggregate.Meets,Aggregate.value] using meets
  rw [appliedTo,upper]
  simp only [filterMap_cons,filterMap_nil,coerceNumber,found,value,Asking.pure_done,Asking.run_done]

theorem Aggregate.lettered (a : Aggregate) : a.name ≠ [] ∧ ∀ c ∈ a.name, c.isAlpha = true := by cases a <;> simp [Aggregate.name,textOf]

theorem Aggregate.unreserved (a : Aggregate) : a.name.map Char.toLower ∉ [trueWord,falseWord,nullWord] := by cases a <;> decide

end functions

def NumericFunction.ofUnary (env : Env) (rest : Text → Text → List Scalar → Reading Called) (u : Unary) : NumericFunction env (withUnary env rest) :=
  ⟨u.name,u.value,u.lettered,u.unreserved,u.double,u.gives⟩

def NumericFunction.ofAggregate (env : Env) (rest : Text → Text → List Scalar → Reading Called) (a : Aggregate) : NumericFunction env rest :=
  ⟨a.name,a.value,a.lettered,a.unreserved,a.double,a.gives⟩

inductive Argument where
  | literal (negative : Bool) (digits : Text) (numbered : digits ≠ [] ∧ ∀ c ∈ digits, c.isDigit = true)
  | cell (r : CellRef)

namespace Argument

def text : Argument → Text
  | literal negative digits _ => if negative then '-' :: digits else digits
  | cell r => r.letters ++ r.digits

def number (known : Position → Scalar) (sheetIndex : Nat) : Argument → Rat
  | literal negative digits _ => if negative then -(Double.round (Double.valueOf digits)).getD 0 else (Double.round (Double.valueOf digits)).getD 0
  | cell r => (scalarNumber (known ⟨sheetIndex,r.position.1,r.position.2⟩)).getD 0

def Holds (known : Position → Scalar) (sheetIndex : Nat) : Argument → Prop
  | literal _ _ _ => True
  | cell r => ∃ n, known ⟨sheetIndex,r.position.1,r.position.2⟩ = .number n ∧ Double.IsDouble n

def Readable (known : Position → Scalar) (sheetIndex : Nat) : Argument → Prop
  | literal _ digits _ => ¬(1 < digits.length ∧ digits.head? = some '0') ∧ Double.round (Double.valueOf digits) ≠ none
  | cell r => 'e' ∉ Double.text ((cell r).number known sheetIndex)

end Argument

section nesting
variable {env : Env} {other : Text → Text → List Scalar → Reading Called}

def nested (functions : List (NumericFunction env other)) (x : Text) : Text :=
  functions.foldr (fun f inner => f.name ++ '(' :: (inner ++ [')'])) x

def composed (functions : List (NumericFunction env other)) (n : Rat) : Rat := functions.foldr NumericFunction.value n

variable {f g : NumericFunction env other} {inner outer : List (NumericFunction env other)} {text rest args : Text}
  {behind : Option Char} {c : Char}

theorem NumericFunction.plain (f : NumericFunction env other) : ∀ c ∈ f.name, c ≠ '(' ∧ c ≠ ')' := by
  intro c member
  have letter := f.lettered.2 c member
  constructor
  · rintro rfl
    cases letter
  · rintro rfl
    cases letter

theorem argumentsOf_shallow (plain : ∀ c ∈ text, c ≠ '(' ∧ c ≠ ')') (rest : Text) : argumentsOf false (text ++ ')' :: rest) = some text := by
  simp [argumentsOf_plain plain,argumentsOf]

theorem free_letters (lettered : ∀ c ∈ text, c.isAlpha = true) (deep : argumentsOf false rest = none) (behind : Option Char) :
    Free functionCall behind (text ++ ['(']) rest := by
  induction text generalizing behind with
  | nil => exact ⟨rfl,trivial⟩
  | cons c text ih =>
    refine ⟨?_,ih (fun d member => lettered d (mem_cons_of_mem _ member)) _⟩
    have shape : c :: (text ++ ['(']) ++ rest = c :: text ++ '(' :: rest := by simp
    rw [append_eq,shape,functionCall_letters (cons_ne_nil _ _) lettered,deep]
    rfl

def OfCalls (c : Char) : Prop := Typed c ∨ c = '.'

theorem text_printed (n : Rat) : ∀ c ∈ Double.text n, OfCalls c := by
  intro c member
  rcases Double.text_chars n c member with (digit | point) | listed
  · exact .inl (.inr (.inl digit))
  · exact .inr point
  · simp only [mem_cons,not_mem_nil,or_false] at listed
    rcases listed with rfl | rfl | rfl
    · exact .inl (.inl rfl)
    · exact .inl (.inr (.inr (by simp)))
    · exact .inl (.inr (.inr (by simp)))

theorem printed_absent (printed : ∀ c ∈ text, OfCalls c) {d : Char}
    (other : d.isAlpha = false ∧ d.isDigit = false ∧ d ∉ ['+','-','*','(',')','.']) : d ∉ text := by
  intro member
  rcases printed d member with (letter | digit | sign) | point
  · rw [other.1] at letter; cases letter
  · rw [other.2.1] at digit; cases digit
  · exact other.2.2 (mem_append_left ['.'] sign)
  · exact other.2.2 (by simp [point])

theorem printed_trim (printed : ∀ c ∈ text, OfCalls c) : trim text = text := by
  have space : ∀ c ∈ text, isSpace c = false := by
    intro c member
    rcases printed c member with typed | rfl
    · exact typed.space
    · rfl
  exact trim_closed _ (fun c first => space c (mem_of_mem_head? first)) (fun c last => space c (mem_of_mem_getLast? last))

theorem nested_printed (functions : List (NumericFunction env other)) (printed : ∀ c ∈ text, OfCalls c) :
    ∀ c ∈ nested functions text, OfCalls c := by
  induction functions with
  | nil => exact printed
  | cons f inner ih =>
    intro c member
    rw [nested,foldr_cons] at member
    rcases mem_append.mp member with name | rest
    · exact .inl (.inl (f.lettered.2 c name))
    · rcases mem_cons.mp rest with rfl | inside
      · exact .inl (.inr (.inr (by simp)))
      · rcases mem_append.mp inside with within | close
        · exact ih c within
        · cases mem_singleton.mp close
          exact .inl (.inr (.inr (by simp)))

theorem resolveArgs_none (mark : '_' ∉ args) : resolveArgs [] args = args := by
  refine replace_none (free_class (· = '_') (fun _ c rest found => ?_) (fun c member same => mark (same ▸ member)) _ _)
  by_contra other
  exact found (by simp [marker,after,Ne.symm other])

theorem number_arithmetic (n : Rat) : ∀ c ∈ Double.text n, Arithmetic c :=
  fun c member => (Double.text_chars n c member).imp id (fun listed => by
    simp only [mem_cons,not_mem_nil,or_false] at listed ⊢
    tauto)

theorem alpha_refused (letter : c.isAlpha = true) : allowed c = false := by
  cases taken : allowed c with
  | false => rfl
  | true =>
    simp only [allowed,isSpace_alpha letter,Bool.or_false,Bool.or_eq_true,contains_eq_mem,decide_eq_true_eq,mem_cons,
      not_mem_nil,or_false] at taken
    rcases taken with digit | sign
    · rw [alpha_digit digit] at letter
      cases letter
    · rcases sign with rfl | rfl | rfl | rfl | rfl | rfl | rfl | rfl | rfl | rfl | rfl | rfl | rfl | rfl | rfl <;> cases letter

theorem evaluateText_number {host : Host} (evaluates : EvaluatesArithmetic host) {n : Rat} (double : Double.IsDouble n) :
    evaluateText host (concatenation (restoreStrings [] (lowerBooleans (Double.text n)))) =
      if 'e' ∈ Double.text n then error else .scalar (.number n) := by
  rw [evaluateText_arithmetic host [] (number_arithmetic n)]
  by_cases exponent : 'e' ∈ Double.text n
  · rw [if_pos exponent,if_pos exponent]
  · have read := evaluateJs_sum evaluates ⟨n,double,exponent⟩ []
    have sum : total [n] = some n := by
      rw [total,foldl_cons,bind_some,zero_add,double]
      rfl
    have text : sumText [n] = Double.text n := by simp [sumText]
    rw [if_neg exponent,if_neg exponent,← text]
    rw [map_cons,map_nil,sum] at read
    rw [read]
    rfl

theorem references_number (host : Host) (sheetIndex : Nat) (n : Rat) : substituteReferences host sheetIndex (Double.text n) = pure (Double.text n) := by
  have lacks : ∀ d : Char, ¬Arithmetic d → d ∉ Double.text n := fun d other member => other (number_arithmetic n d member)
  rw [substituteReferences_plain host sheetIndex (lacks _ (by unfold Arithmetic; decide)) (lacks _ (by unfold Arithmetic; decide)),
    pass_none (free_text n none [])]

variable {host : Host} {known : Position → Scalar} {sheetIndex : Nat} {call : Text → Text → Reading Called} {n : Rat}
  {arrays : List EvalArray} {w : Text}

section
variable (out : List EvalArray → Text × Text → Reading (Text × List EvalArray))
include out

theorem rewrite_behind (behind : Option Char) (text : Text) :
    rewrite functionCall out arrays behind 0 text = rewrite functionCall out arrays none 0 text := by
  cases text with
  | nil => rfl
  | cons c text => rfl

theorem rewrite_call (f : NumericFunction env other)
    (matched : argumentsOf false (args ++ ')' :: rest) = some args) (behind : Option Char) :
    rewrite functionCall out arrays behind 0 (f.name ++ '(' :: (args ++ ')' :: rest)) = (do
      let (replaced,arrays) ← out arrays (f.name,args)
      let (after,arrays) ← rewrite functionCall out arrays none 0 rest
      pure (replaced ++ after,arrays)) := by
  obtain ⟨c,tail,shape⟩ := exists_cons_of_ne_nil f.lettered.1
  have whole_ : f.name ++ '(' :: (args ++ ')' :: rest) = c :: (tail ++ '(' :: (args ++ [')'])) ++ rest := by simp [shape]
  have found : functionCall behind (c :: (tail ++ '(' :: (args ++ [')'])) ++ rest) =
      some ((tail ++ '(' :: (args ++ [')'])).length + 1,(f.name,args)) := by
    rw [← whole_,functionCall_letters f.lettered.1 f.lettered.2,matched,shape]
    simp only [map_some,length_cons,length_append,length_nil]
    congr 2
    omega
  rw [whole_,rewrite_match found]
  simp only [rewrite_behind out (last _ _)]

end

theorem run_callFunction (mark : '_' ∉ args) {name : Text} (result : (call name args).run known = called (.number n)) :
    (callFunction call [] arrays (name,args)).run known = (Double.text n,arrays) := by
  rw [callFunction,Asking.run_bind,resolveArgs_none mark,result]
  rfl

theorem evaluate_matched (evaluates : EvaluatesArithmetic host) (f : NumericFunction env other) (printed : ∀ c ∈ args, OfCalls c)
    (matched : argumentsOf false (args ++ [')']) = some args) (result : (call f.name args).run known = called (.number n))
    (double : Double.IsDouble n) :
    (evaluateExpression host call sheetIndex (nested [f] args)).run known =
      if 'e' ∈ Double.text n then error else .scalar (.number n) := by
  have chars : ∀ c ∈ nested [f] args, OfCalls c := nested_printed [f] printed
  rw [evaluateExpression_calls host call sheetIndex (printed_trim chars) ⟨'(',by simp [nested],rfl⟩ (printed_absent chars (by decide)),
    nested,foldr_cons,foldr_nil,rewrite_call _ f matched]
  simp only [Asking.run_bind,run_callFunction (printed_absent printed (by decide)) result,rewrite,Asking.pure_done,Asking.run_done,append_nil]
  rw [printed_trim (text_printed n),soleMarker_other arr (printed_absent (text_printed n) (by decide))]
  dsimp only
  rw [references_number,← evaluateText_number evaluates double]
  rfl

theorem run_evaluateFunction {evaluate : Text → Reading FormulaEvalResult} (f : NumericFunction env other) (printed : ∀ c ∈ args, OfCalls c)
    (some_ : args ≠ []) (inside : (evaluate args).run known = .scalar (.number n)) (double : Double.IsDouble n) :
    (evaluateFunction env evaluate other f.name args).run known = called (.number (f.value n)) := by
  have single : splitFunctionArgs args = [args] := by
    refine splitLoop_plain args [] 0 (fun c member listed => ?_) ?_
    · simp only [mem_cons,not_mem_nil,or_false] at listed
      rcases listed with rfl | rfl | rfl <;> exact absurd member (printed_absent printed (by decide))
    · rwa [nil_append,printed_trim printed]
  change ((splitFunctionArgs args).mapM _ >>= fun args' => appliedTo env other f.name args args').run known = _
  rw [single]
  simp only [mapM_cons,mapM_nil,Asking.run_bind,Asking.pure_done,Asking.run_done,printed_trim printed,inside]
  exact f.gives n double args known

theorem argumentsOf_nested (f : NumericFunction env other) (plain : ∀ c ∈ text, c ≠ '(' ∧ c ≠ ')') (rest : Text) :
    argumentsOf false (nested [f] text ++ ')' :: rest) = some (nested [f] text) := by
  simp [nested,argumentsOf_plain f.plain,argumentsOf,argumentsOf_plain plain]

theorem argumentsOf_deep (f g : NumericFunction env other) (inner : List (NumericFunction env other)) (text rest : Text) :
    argumentsOf false (nested (f :: g :: inner) text ++ rest) = none := by
  simp [nested,argumentsOf_plain f.plain,argumentsOf,argumentsOf_plain g.plain]

theorem run_rewrite_deep (plain : ∀ c ∈ text, c ≠ '(' ∧ c ≠ ')') (printed : ∀ c ∈ text, OfCalls c) (g h : NumericFunction env other)
    (result : (call g.name (nested [h] text)).run known = called (.number n)) (outer : List (NumericFunction env other))
    (closing : Text) (closes : ∀ c ∈ closing, c = ')') (behind : Option Char) :
    (rewrite functionCall (callFunction call []) [] behind 0 (nested (outer ++ [g,h]) text ++ closing)).run known =
      (nested outer (Double.text n) ++ closing,[]) := by
  induction outer generalizing closing behind with
  | nil =>
    have free : Free functionCall none closing [] := by
      refine free_class (· ≠ ')') (fun _ c rest found same => found (by rw [same]; rfl)) (fun c member => not_not.mpr (closes c member)) _ _
    have shape : nested ([] ++ [g,h]) text ++ closing = g.name ++ '(' :: (nested [h] text ++ ')' :: closing) := by simp [nested]
    rw [shape,rewrite_call _ g (argumentsOf_nested h plain closing)]
    simp only [Asking.run_bind,run_callFunction (printed_absent (nested_printed [h] printed) (by decide)) result,rewrite_none free,
      Asking.pure_done,Asking.run_done]
    rfl
  | cons f outer ih =>
    have closes' : ∀ c ∈ ')' :: closing, c = ')' := fun c member => (mem_cons.mp member).elim id (closes c)
    have shape : nested (f :: outer ++ [g,h]) text ++ closing = f.name ++ ['('] ++ (nested (outer ++ [g,h]) text ++ ')' :: closing) := by
      simp [nested]
    have deep : argumentsOf false (nested (outer ++ [g,h]) text ++ ')' :: closing) = none := by
      cases outer with
      | nil => exact argumentsOf_deep g h [] text _
      | cons f outer =>
        cases outer with
        | nil => exact argumentsOf_deep f g [h] text _
        | cons e outer => exact argumentsOf_deep f e (outer ++ [g,h]) text _
    rw [shape,rewrite_free (free_letters f.lettered.2 deep behind)]
    simp only [Asking.run_bind,ih _ closes',Asking.pure_done,Asking.run_done]
    simp [nested]

theorem free_references (outer : List (NumericFunction env other)) (n : Rat) (behind : Option Char) (rest : Text) :
    Free (whole bareRef) behind (nested outer (Double.text n)) rest := by
  have letters : ∀ (name more : Text), (∀ c ∈ name, c.isAlpha = true) → ∀ behind, Free (whole bareRef) behind (name ++ ['(']) more := by
    intro name more lettered
    induction name with
    | nil => exact fun behind => ⟨rfl,trivial⟩
    | cons c name ih =>
      refine fun behind => ⟨?_,ih (fun d member => lettered d (mem_cons_of_mem _ member)) _⟩
      have shape : c :: (name ++ ['(']) ++ more = c :: name ++ '(' :: more := by simp
      have stop : ∀ d ∈ ('(' :: more).head?, d.isAlpha = false := fun d first => by cases first; rfl
      obtain ⟨taken,dropped⟩ := letters_taken lettered stop
      rw [append_eq,shape,whole]
      simp only [bareRef,taken,dropped]
      rw [if_pos (.inr rfl)]
      rfl
  induction outer generalizing behind rest with
  | nil => exact free_text n behind rest
  | cons f outer ih =>
    have shape : nested (f :: outer) (Double.text n) = f.name ++ ['('] ++ (nested outer (Double.text n) ++ [')']) := by simp [nested]
    rw [shape]
    exact (free_append _).mpr ⟨letters f.name _ f.lettered.2 behind,(free_append _).mpr ⟨ih _ _,rfl,trivial⟩⟩

theorem matchesWord_split (found : matchesWord w text = some rest) : ∃ front, text = front ++ rest ∧ front.map Char.toLower = w := by
  induction w generalizing text with
  | nil =>
    cases found
    exact ⟨[],rfl,rfl⟩
  | cons c w ih =>
    cases text with
    | nil => cases found
    | cons d text =>
      rw [matchesWord] at found
      split at found
      · rename_i same
        obtain ⟨front,rfl,lowered⟩ := ih found
        exact ⟨d :: front,rfl,by rw [map_cons,lowered,same]⟩
      · cases found

theorem word_inside (letter : isWord c = true) (text : Text) : word w (some c) text = none := by
  unfold word
  cases matchesWord w text with
  | none => rfl
  | some rest => simp [letter]

theorem free_inside (letter : isWord c = true) (lettered : ∀ d ∈ text, d.isAlpha = true) (rest : Text) :
    Free (word w) (some c) (text ++ ['(']) rest := by
  induction text generalizing c with
  | nil => exact ⟨word_inside letter _,trivial⟩
  | cons d text ih =>
    have next : isWord d = true := by simp [isWord,Char.isAlphanum,lettered d mem_cons_self]
    exact ⟨word_inside letter _,ih next (fun e member => lettered e (mem_cons_of_mem _ member))⟩

theorem free_name (reserved : w ∈ [trueWord,falseWord,nullWord]) (f : NumericFunction env other) (behind : Option Char) (rest : Text) :
    Free (word w) behind (f.name ++ ['(']) rest := by
  have letters : ∀ c ∈ w, c.isAlpha = true := by
    simp only [mem_cons,not_mem_nil,or_false] at reserved
    rcases reserved with rfl | rfl | rfl <;> simp [trueWord,falseWord,nullWord]
  have none_ : word w behind (f.name ++ '(' :: rest) = none := by
    by_contra found
    obtain ⟨tail,matched⟩ : ∃ tail, matchesWord w (f.name ++ '(' :: rest) = some tail :=
      ne_none_iff_exists'.mp (fun none_ => found (by rw [word,none_]; rfl))
    rw [word,matched,bind_some] at found
    obtain ⟨front,shape,lowered⟩ := matchesWord_split matched
    have ends : tail.head?.all (fun c => !isWord c) = true := by
      by_contra inside
      exact found (by simp [inside])
    rcases append_eq_append_iff.mp shape with ⟨more,longer,closed⟩ | ⟨more,name,closed⟩
    · cases more with
      | nil => exact f.unreserved (by rw [← append_nil f.name,← longer,lowered]; exact reserved)
      | cons d more =>
        rw [cons_append] at closed
        injection closed with paren _
        have member : Char.toLower '(' ∈ w := by
          rw [← lowered,longer,paren]
          simp
        exact absurd (letters _ member) (by decide)
    · cases more with
      | nil => exact f.unreserved (by rw [name,append_nil,lowered]; exact reserved)
      | cons d more =>
        have letter := f.lettered.2 d (by rw [name]; simp)
        rw [closed] at ends
        simp [isWord,Char.isAlphanum,letter] at ends
  obtain ⟨c,tail,shape⟩ := exists_cons_of_ne_nil f.lettered.1
  have lettered := f.lettered.2
  rw [shape] at none_ lettered ⊢
  have first : isWord c = true := by simp [isWord,Char.isAlphanum,lettered c mem_cons_self]
  refine ⟨?_,free_inside first (fun d member => lettered d (mem_cons_of_mem _ member)) rest⟩
  simpa using none_

theorem free_words (reserved : w ∈ [trueWord,falseWord,nullWord]) (outer : List (NumericFunction env other)) (n : Rat)
    (behind : Option Char) (rest : Text) : Free (word w) behind (nested outer (Double.text n)) rest := by
  induction outer generalizing behind rest with
  | nil =>
    obtain ⟨d,tail,rfl,listed⟩ : ∃ d tail, w = d :: tail ∧ d ∈ ['t','f','n'] := by
      simp only [mem_cons,not_mem_nil,or_false] at reserved
      rcases reserved with rfl | rfl | rfl
      · exact ⟨_,_,rfl,by simp⟩
      · exact ⟨_,_,rfl,by simp⟩
      · exact ⟨_,_,rfl,by simp⟩
    refine free_class _ word_begins (fun c member same => ?_) behind rest
    exact (number_arithmetic n c member).plain.2.2.2.2.2.1 (same ▸ listed)
  | cons f outer ih =>
    have shape : nested (f :: outer) (Double.text n) = f.name ++ ['('] ++ (nested outer (Double.text n) ++ [')']) := by simp [nested]
    have close : ∀ behind, word w behind (')' :: rest) = none := by
      simp only [mem_cons,not_mem_nil,or_false] at reserved
      rcases reserved with rfl | rfl | rfl <;> exact fun _ => rfl
    rw [shape]
    exact (free_append _).mpr ⟨free_name reserved f behind _,(free_append _).mpr ⟨ih _ _,close _,trivial⟩⟩

theorem refused_nested (host : Host) (f : NumericFunction env other) (outer : List (NumericFunction env other)) (n : Rat) :
    evaluateText host (concatenation (restoreStrings [] (lowerBooleans (nested (f :: outer) (Double.text n))))) = error := by
  have printed := nested_printed (f :: outer) (text_printed n)
  have free := fun w (reserved : w ∈ [trueWord,falseWord,nullWord]) => free_words reserved (f :: outer) n none []
  have lowered : lowerBooleans (nested (f :: outer) (Double.text n)) = nested (f :: outer) (Double.text n) := by
    rw [lowerBooleans,replace_none (free trueWord (by simp)),replace_none (free falseWord (by simp))]
  have joined : concatenation (nested (f :: outer) (Double.text n)) = nested (f :: outer) (Double.text n) := by
    refine (map_congr_left (fun c member => ?_)).trans (map_id _)
    rw [if_neg]
    · rfl
    · rintro rfl
      exact printed_absent printed (by decide) member
  have quotes : Free quotedText none (nested (f :: outer) (Double.text n)) [] :=
    free_class (· = '"') (fun _ c rest found => by by_contra other; exact found (by simp [quotedText,other]))
      (fun c member same => printed_absent printed (by decide) (same ▸ member)) _ _
  have kept : sanitized (nested (f :: outer) (Double.text n)) = nested (f :: outer) (Double.text n) := by
    rw [sanitized,replace_none quotes]
    exact replace_none ((free trueWord (by simp)).or ((free falseWord (by simp)).or (free nullWord (by simp))))
  obtain ⟨c,tail,shape⟩ := exists_cons_of_ne_nil f.lettered.1
  have member : c ∈ nested (f :: outer) (Double.text n) := by simp [nested,shape]
  have letter : c.isAlpha = true := f.lettered.2 c (shape ▸ mem_cons_self)
  rw [lowered,restoreStrings_none (printed_absent printed (by decide)),joined,evaluateText,kept,if_neg]
  intro all
  exact absurd (all_eq_true.mp all c member) (by simp [alpha_refused letter])

theorem evaluate_deep (plain : ∀ c ∈ text, c ≠ '(' ∧ c ≠ ')') (printed : ∀ c ∈ text, OfCalls c) (f g h : NumericFunction env other)
    (outer : List (NumericFunction env other)) (result : (call g.name (nested [h] text)).run known = called (.number n)) :
    (evaluateExpression host call sheetIndex (nested (f :: outer ++ [g,h]) text)).run known = error := by
  have chars := nested_printed (f :: outer ++ [g,h]) printed
  have left := nested_printed (f :: outer) (text_printed n)
  have rewritten := run_rewrite_deep plain printed g h result (f :: outer) [] (by simp) none
  simp only [append_nil] at rewritten
  rw [evaluateExpression_calls host call sheetIndex (printed_trim chars) ⟨'(',by simp [nested],rfl⟩ (printed_absent chars (by decide)),
    Asking.run_bind,rewritten]
  dsimp only
  rw [printed_trim left,soleMarker_other arr (printed_absent left (by decide))]
  dsimp only
  rw [substituteReferences_plain host sheetIndex (printed_absent left (by decide)) (printed_absent left (by decide)),
    pass_none (free_references (f :: outer) n none [])]
  exact refused_nested host f outer n

end nesting

section argument
variable {host : Host} {known : Position → Scalar} {sheetIndex : Nat}

theorem Argument.typed (x : Argument) : ∀ c ∈ x.text, (c.isAlpha = true ∨ c.isDigit = true) ∨ c = '-' := by
  intro c member
  cases x with
  | literal negative digits numbered =>
    cases negative with
    | false => exact .inl (.inr (numbered.2 c member))
    | true =>
      rcases mem_cons.mp member with rfl | digit
      · exact .inr rfl
      · exact .inl (.inr (numbered.2 c digit))
  | cell r => exact .inl (r.chars c member)

theorem Argument.plain (x : Argument) : ∀ c ∈ x.text, c ≠ '(' ∧ c ≠ ')' := by
  intro c member
  constructor
  · rintro rfl
    rcases x.typed _ member with (letter | digit) | sign
    · cases letter
    · cases digit
    · cases sign
  · rintro rfl
    rcases x.typed _ member with (letter | digit) | sign
    · cases letter
    · cases digit
    · cases sign

theorem Argument.printed (x : Argument) : ∀ c ∈ x.text, OfCalls c := by
  intro c member
  rcases x.typed c member with (letter | digit) | rfl
  · exact .inl (.inl letter)
  · exact .inl (.inr (.inl digit))
  · exact .inl (.inr (.inr (by simp)))

theorem Argument.digit (x : Argument) : ∃ c ∈ x.text, c.isDigit = true := by
  cases x with
  | literal negative digits numbered =>
    obtain ⟨c,rest,rfl⟩ := exists_cons_of_ne_nil numbered.1
    exact ⟨c,by cases negative <;> simp [Argument.text],numbered.2 c mem_cons_self⟩
  | cell r =>
    obtain ⟨c,rest,shape⟩ := exists_cons_of_ne_nil r.numbered.1
    exact ⟨c,by simp [Argument.text,shape],r.numbered.2 c (shape ▸ mem_cons_self)⟩

theorem Argument.direct (host : Host) (call : Text → Text → Reading Called) (sheetIndex : Nat) (x : Argument) :
    evaluateExpression host call sheetIndex x.text = (do
      let expr ← pass bareRef (fun found => cellText host.env sheetIndex found found) x.text
      pure (evaluateText host (concatenation (restoreStrings [] (lowerBooleans expr))))) := by
  have free : Free functionCall none x.text [] := free_sign _ '(' functionCall_needs (fun member => (x.plain '(' member).1 rfl)
  rw [evaluateExpression_direct host call sheetIndex (printed_trim x.printed) x.digit (printed_absent x.printed (by decide))
    (printed_absent x.printed (by decide)) free,
    substituteReferences_plain host sheetIndex (printed_absent x.printed (by decide)) (printed_absent x.printed (by decide))]

theorem evaluateJs_literal (evaluates : EvaluatesArithmetic host) (negative : Bool) {digits : Text}
    (numbered : digits ≠ [] ∧ ∀ c ∈ digits, c.isDigit = true) :
    host.evaluateJs (if negative then '-' :: digits else digits) =
      ((Double.literal digits).map (fun n => if negative then n.map (fun n => -n) else n)).map .number := by
  let leaf : Unit → Printed := fun _ => ⟨negative,digits⟩
  let operand : Expr Unit := .term (.factor (.leaf ()))
  have numeric : JsArith.Numeric leaf := fun _ => ⟨numbered.1,fun c member => .inl (numbered.2 c member)⟩
  have ran : host.evaluateJs (leaf ()).text = (JsArith.eval Double.numbers _).map .number := evaluateJs_print evaluates numeric operand
  change host.evaluateJs (leaf ()).text = _
  rw [ran]
  congr 1
  cases read : Double.literal digits with
  | none => exact JsArith.eval_invalid numeric (.term (.factor (.paren operand))) (a := ()) (mem_singleton.mpr rfl) read
  | some n =>
    have reads : ∀ a ∈ (Expr.term (.factor (.paren operand))).leaves, Double.numbers.literal (leaf a).digits = some n := fun _ _ => read
    exact JsArith.eval_print numeric (.term (.factor (.paren operand))) rfl reads

theorem Argument.evaluated (evaluates : EvaluatesArithmetic host) (call : Text → Text → Reading Called) (x : Argument)
    (holds : x.Holds known sheetIndex) :
    (evaluateExpression host call sheetIndex x.text).run known = .scalar (.number (x.number known sheetIndex)) ↔ x.Readable known sheetIndex := by
  rw [x.direct host call sheetIndex]
  cases x with
  | literal negative digits numbered =>
    have signs : ∀ c ∈ (literal negative digits numbered).text, c = '-' ∨ c.isDigit = true := by
      intro c member
      cases negative with
      | false => exact .inr (numbered.2 c member)
      | true => exact (mem_cons.mp member).imp id (numbered.2 c)
    have free : Free (whole bareRef) none (literal negative digits numbered).text [] := by
      refine free_class (fun c => c.isAlpha = true) (fun _ c rest found => ?_) (fun c member => ?_) _ _
      · by_contra other
        exact found (by simp [whole,bareRef,other])
      · rcases signs c member with rfl | digit
        · decide
        · simp [alpha_digit digit]
    have arithmetic : ∀ c ∈ (literal negative digits numbered).text, Arithmetic c := by
      intro c member
      rcases signs c member with rfl | digit
      · exact .inr (by simp)
      · exact .inl (.inl digit)
    have noExponent : 'e' ∉ (literal negative digits numbered).text := by
      intro member
      rcases signs 'e' member with same | digit
      · cases same
      · cases digit
    rw [pass_none free]
    simp only [Asking.pure_done,Asking.done_bind,Asking.run_done]
    rw [evaluateText_arithmetic host [] arithmetic,if_neg noExponent,Argument.text,evaluateJs_literal evaluates negative numbered]
    by_cases padded : 1 < digits.length ∧ digits.head? = some '0'
    · rw [Double.literal_padded numbered.2 padded.1 padded.2]
      simp [ofJs,error,Argument.Readable,padded]
    · rw [Double.literal_whole numbered.1 numbered.2 (fun long lead => padded ⟨long,lead⟩)]
      cases rounded : Double.round (Double.valueOf digits) with
      | none => cases negative <;> simp [ofJs,divisionError,Argument.Readable,rounded]
      | some n => cases negative <;> simp [ofJs,Argument.Readable,Argument.number,padded,rounded]
  | cell r =>
    obtain ⟨n,held,double⟩ := holds
    have number : (cell r).number known sheetIndex = n := by simp [Argument.number,held,scalarNumber]
    have read : bareRef (r.letters ++ (r.digits ++ [])) = some (r.letters ++ r.digits) :=
      bareRef_found r.lettered.1 r.lettered.2 r.numbered.1 r.numbered.2 (by simp)
    have spliced : (cellText host.env sheetIndex (r.letters ++ r.digits) (r.letters ++ r.digits)).run known = Double.text n := by
      rw [cellText,parseCellRef_position]
      simp only [getRawCellValue,Asking.run_bind,Asking.run_answer,Asking.pure_done,Asking.run_done,held,substituted]
    rw [append_nil] at read
    rw [Asking.run_bind,Argument.text,pass_whole (append_ne_nil_of_left_ne_nil r.lettered.1 _) read,spliced]
    simp only [Asking.pure_done,Asking.run_done,evaluateText_number evaluates double,Argument.Readable,number]
    split
    · rename_i exponent
      simp [error,exponent]
    · rename_i plain
      simp [plain]

end argument

section running
variable {host : Host} {other : Text → Text → List Scalar → Reading Called} {known : Position → Scalar} {sheetIndex fuel : Nat} {n : Rat}

theorem Argument.double (x : Argument) (holds : x.Holds known sheetIndex) : Double.IsDouble (x.number known sheetIndex) := by
  cases x with
  | literal negative digits numbered =>
    have double : Double.IsDouble ((Double.round (Double.valueOf digits)).getD 0) := by
      cases rounded : Double.round (Double.valueOf digits) with
      | none => exact Double.round_zero
      | some n => exact Double.round_double rounded
    cases negative with
    | false => exact double
    | true => exact double.neg
  | cell r =>
    obtain ⟨n,held,double⟩ := holds
    simpa [Argument.number,held,scalarNumber] using double

theorem composed_double (functions : List (NumericFunction host.env other)) (double : Double.IsDouble n) : Double.IsDouble (composed functions n) := by
  induction functions with
  | nil => exact double
  | cons f inner ih => exact f.double _ ih

theorem nested_some (functions : List (NumericFunction host.env other)) (x : Argument) : nested functions x.text ≠ [] := by
  cases functions with
  | nil => exact ne_nil_of_mem x.digit.choose_spec.1
  | cons f inner => simp [nested]

theorem run_call (evaluates : EvaluatesArithmetic host) (f : NumericFunction host.env other) (inner : List (NumericFunction host.env other))
    (shallow : inner.length ≤ 1) (x : Argument) (double : Double.IsDouble n)
    (inside : (evaluate host other sheetIndex fuel (nested inner x.text)).run known = .scalar (.number n)) :
    (evaluate host other sheetIndex (fuel + 1) (nested (f :: inner) x.text)).run known =
      if 'e' ∈ Double.text (f.value n) then error else .scalar (.number (f.value n)) := by
  have printed := nested_printed inner x.printed
  have matched : argumentsOf false (nested inner x.text ++ [')']) = some (nested inner x.text) := by
    match inner,shallow with
    | [],_ => exact argumentsOf_shallow x.plain []
    | [g],_ => exact argumentsOf_nested g x.plain []
  exact evaluate_matched evaluates f printed matched (run_evaluateFunction f printed (nested_some inner x) inside double) (f.double n double)

-- A composition comes to the value of its functions, and to the same with its inner calls in
-- a cell beside it.
def Nests (host : Host) (other : Text → Text → List Scalar → Reading Called) (sheetIndex fuel : Nat) (known : Position → Scalar)
    (functions : List (NumericFunction host.env other)) (x : Argument) : Prop :=
  (evaluate host other sheetIndex fuel (nested functions x.text)).run known =
      .scalar (.number (composed functions (x.number known sheetIndex))) ∧
    ∀ f g inner, functions = f :: g :: inner → ∀ (helper : CellRef) (beside : Position → Scalar),
      beside ⟨sheetIndex,helper.position.1,helper.position.2⟩ = .number (composed (g :: inner) (x.number known sheetIndex)) →
      (evaluate host other sheetIndex fuel (nested [f] (Argument.cell helper).text)).run beside =
        (evaluate host other sheetIndex fuel (nested functions x.text)).run known

def Plainly (sheetIndex : Nat) (known : Position → Scalar) (functions : List (NumericFunction host.env other)) (x : Argument) : Prop :=
  x.Readable known sheetIndex ∧
    ∀ inner, inner <:+ functions → inner ≠ [] → 'e' ∉ Double.text (composed inner (x.number known sheetIndex))

variable {functions inner : List (NumericFunction host.env other)} {x : Argument}

theorem Plainly.suffix (plainly : Plainly sheetIndex known functions x) (suffix : inner <:+ functions) : Plainly sheetIndex known inner x :=
  ⟨plainly.1,fun deeper within => plainly.2 deeper (within.trans suffix)⟩

section
variable (evaluates : EvaluatesArithmetic host)
include evaluates

theorem evaluate_argument (other : Text → Text → List Scalar → Reading Called) (fuel : Nat)
    (holds : x.Holds known sheetIndex) :
    (evaluate host other sheetIndex (fuel + 1) x.text).run known = .scalar (.number (x.number known sheetIndex)) ↔ x.Readable known sheetIndex :=
  x.evaluated evaluates _ holds

section
variable (holds : x.Holds known sheetIndex)
include holds

theorem evaluate_shallow (enough : functions.length < fuel)
    (shallow : functions.length ≤ 2) (plainly : Plainly sheetIndex known functions x) :
    (evaluate host other sheetIndex fuel (nested functions x.text)).run known =
      .scalar (.number (composed functions (x.number known sheetIndex))) := by
  induction functions generalizing fuel with
  | nil =>
    obtain ⟨fuel,rfl⟩ := Nat.exists_eq_add_of_lt enough
    exact (evaluate_argument evaluates other _ holds).mpr plainly.1
  | cons f inner ih =>
    obtain ⟨fuel,rfl⟩ : ∃ less, fuel = less + 1 := Nat.exists_eq_add_one_of_ne_zero (by omega)
    simp only [length_cons] at enough shallow
    have inside : (evaluate host other sheetIndex fuel (nested inner x.text)).run known = _ :=
      ih (by omega) (by omega) (plainly.suffix (suffix_cons f inner))
    rw [run_call evaluates f inner (by omega) x (composed_double inner (x.double holds)) inside,if_neg]
    · rfl
    · exact plainly.2 _ suffix_rfl (cons_ne_nil _ _)

theorem evaluate_error (f : NumericFunction host.env other)
    (enough : inner.length + 1 < fuel) (deep : 2 ≤ inner.length) (plainly : Plainly sheetIndex known inner x) :
    (evaluate host other sheetIndex fuel (nested (f :: inner) x.text)).run known = error := by
  obtain ⟨fuel,rfl⟩ : ∃ less, fuel = less + 1 := Nat.exists_eq_add_one_of_ne_zero (by omega)
  obtain ⟨outer,g,h,rfl⟩ : ∃ outer g h, inner = outer ++ [g,h] := by
    obtain ⟨front,h,rfl⟩ := (eq_nil_or_concat' inner).resolve_left (ne_nil_of_length_pos (by omega))
    rw [length_append,length_singleton] at deep
    obtain ⟨outer,g,rfl⟩ := (eq_nil_or_concat' front).resolve_left (ne_nil_of_length_pos (by omega))
    exact ⟨outer,g,h,by simp⟩
  simp only [length_append,length_cons,length_nil] at enough
  have last_ : (evaluate host other sheetIndex fuel (nested [h] x.text)).run known = .scalar (.number (composed [h] (x.number known sheetIndex))) :=
    evaluate_shallow evaluates holds (by simp only [length_cons,length_nil]; omega) (by simp)
      (plainly.suffix ⟨outer ++ [g],by simp⟩)
  have result := run_evaluateFunction g (nested_printed [h] x.printed) (nested_some [h] x) last_ (composed_double [h] (x.double holds))
  exact evaluate_deep x.plain x.printed f g h outer result

theorem nests_iff (enough : functions.length < fuel)
    (plainly : Plainly sheetIndex known functions x) : Nests host other sheetIndex fuel known functions x ↔ functions.length ≤ 2 := by
  constructor
  · intro nests
    by_contra deep
    obtain ⟨f,inner,rfl⟩ := exists_cons_of_ne_nil (ne_nil_of_length_pos (show 0 < functions.length by omega))
    simp only [length_cons] at enough deep
    have value := nests.1
    rw [evaluate_error evaluates holds f enough (by omega) (plainly.suffix (suffix_cons f inner))] at value
    cases value
  · intro shallow
    have value := evaluate_shallow evaluates holds enough shallow plainly
    refine ⟨value,?_⟩
    rintro f g inner rfl helper beside held
    have double := composed_double (g :: inner) (x.double holds)
    have there : (Argument.cell helper).Holds beside sheetIndex := ⟨_,held,double⟩
    have number : (Argument.cell helper).number beside sheetIndex = composed (g :: inner) (x.number known sheetIndex) := by
      simp [Argument.number,held,scalarNumber]
    have plain : Plainly sheetIndex beside [f] (Argument.cell helper) := by
      constructor
      · rw [Argument.Readable,number]
        exact plainly.2 _ (suffix_cons f _) (cons_ne_nil _ _)
      · intro inside suffix some_
        rcases suffix_cons_iff.mp suffix with rfl | none_
        · have whole_ := plainly.2 _ suffix_rfl (cons_ne_nil _ _)
          rw [number]
          exact whole_
        · exact absurd (suffix_nil.mp none_) some_
    simp only [length_cons] at enough
    rw [value,evaluate_shallow evaluates there (by simp only [length_cons,length_nil]; omega) (by simp) plain,number]
    rfl

theorem plainly_of_nests
    (functions : List (NumericFunction host.env other)) (enough : functions.length < fuel)
    (nests : ∀ inner, inner <:+ functions → Nests host other sheetIndex fuel known inner x) : Plainly sheetIndex known functions x := by
  obtain ⟨fuel,rfl⟩ : ∃ less, fuel = less + 1 := Nat.exists_eq_add_one_of_ne_zero (by omega)
  induction functions with
  | nil => exact ⟨(evaluate_argument evaluates other fuel holds).mp (nests [] suffix_rfl).1,fun inner suffix some_ =>
      absurd (suffix_nil.mp suffix) some_⟩
  | cons f inner ih =>
    simp only [length_cons] at enough
    have plainly := ih (by omega) (fun deeper suffix => nests deeper (suffix.trans (suffix_cons f inner)))
    have value := (nests (f :: inner) suffix_rfl).1
    have shallow : inner.length ≤ 1 := by
      by_contra deep
      rw [evaluate_error evaluates holds f (by omega) (by omega) plainly] at value
      cases value
    have inside := evaluate_shallow evaluates holds (show inner.length < fuel by omega) (by omega) plainly
    rw [run_call evaluates f inner shallow x (composed_double inner (x.double holds)) inside] at value
    refine ⟨plainly.1,fun deeper suffix some_ => ?_⟩
    rcases suffix_cons_iff.mp suffix with rfl | within
    · intro exponent
      change 'e' ∈ Double.text (f.value (composed inner (x.number known sheetIndex))) at exponent
      rw [if_pos exponent] at value
      cases value
    · exact plainly.2 deeper within some_

end

end

def noOther (_ _ : Text) (_ : List Scalar) : Reading Called := pure (.notFinite [])

def rounds : NumericFunction arithmeticHost.env (withUnary arithmeticHost.env noOther) := .ofUnary _ _ .round

def absolutes : NumericFunction arithmeticHost.env (withUnary arithmeticHost.env noOther) := .ofUnary _ _ .abs

def sums : NumericFunction arithmeticHost.env (withUnary arithmeticHost.env noOther) := .ofAggregate _ _ .sum

theorem five_digits : (['5'] : Text) ≠ [] ∧ ∀ c ∈ (['5'] : Text), c.isDigit = true := by simp

def five : Argument := .literal false ['5'] five_digits

theorem five_round : Double.round (Double.valueOf ['5']) = some 5 := by
  have value : Double.valueOf ['5'] = 5 := rfl
  rw [value]
  exact_mod_cast Double.round_int (z := 5) (by norm_num)

theorem five_number (known : Position → Scalar) : five.number known 0 = 5 := by
  simp [five,Argument.number,five_round]

section
variable {functions : List (NumericFunction arithmeticHost.env (withUnary arithmeticHost.env noOther))}
variable (listed : ∀ f ∈ functions, f = absolutes ∨ f = sums ∨ f = rounds)
include listed

theorem five_kept : composed functions 5 = 5 := by
  induction functions with
  | nil => rfl
  | cons f functions ih =>
    have inside := ih (fun g member => listed g (mem_cons_of_mem _ member))
    change f.value (composed functions 5) = 5
    rw [inside]
    rcases listed f mem_cons_self with rfl | rfl | rfl
    · exact abs_of_pos (by norm_num)
    · rfl
    · change ((⌊(5 : Rat) + 1/2⌋ : Int) : Rat) = 5
      norm_num

theorem five_plainly (known : Position → Scalar) : Plainly 0 known functions five := by
  refine ⟨⟨by simp,by rw [five_round]; simp⟩,fun inner suffix _ => ?_⟩
  have digits : Double.text ((5 : Int) : Rat) = _ := Double.text_whole 5 (by norm_num)
  rw [five_number,five_kept (fun f member => listed f (suffix.subset member))]
  rw [Int.cast_ofNat] at digits
  rw [digits]
  decide

end

-- A composition and all its inner calls, down to the argument, come to their values when there
-- are at most two calls; more of them never do where the numbers on the way are plain.
theorem nested_calls_iff (evaluates : EvaluatesArithmetic host) (other : Text → Text → List Scalar → Reading Called) (sheetIndex fuel : Nat)
    (known : Position → Scalar) (functions : List (NumericFunction host.env other)) (x : Argument) (holds : x.Holds known sheetIndex)
    (enough : functions.length < fuel) :
    ((∀ inner, inner <:+ functions → Nests host other sheetIndex fuel known inner x) ↔
        functions.length ≤ 2 ∧ Plainly sheetIndex known functions x) ∧
      (Plainly sheetIndex known functions x → (Nests host other sheetIndex fuel known functions x ↔ functions.length ≤ 2)) := by
  have shorter : ∀ inner, inner <:+ functions → inner.length < fuel := fun inner suffix => lt_of_le_of_lt suffix.length_le enough
  refine ⟨⟨?_,?_⟩,nests_iff evaluates holds enough⟩
  · intro nests
    have plainly := plainly_of_nests evaluates holds functions enough nests
    exact ⟨(nests_iff evaluates holds enough plainly).mp (nests _ suffix_rfl),plainly⟩
  · intro condition inner suffix
    exact (nests_iff evaluates holds (shorter inner suffix) (condition.2.suffix suffix)).mpr (le_trans suffix.length_le condition.1)

theorem nested_calls_two : Nests arithmeticHost (withUnary arithmeticHost.env noOther) 0 3 (fun _ => .null) [absolutes,sums] five :=
  ((nested_calls_iff arithmeticHost_evaluates _ 0 3 (fun _ => .null) [absolutes,sums] five trivial (by decide)).2
    (five_plainly (by simp) _)).mpr (by decide)

theorem nested_calls_three : (evaluate arithmeticHost (withUnary arithmeticHost.env noOther) 0 4 (textOf "ABS(SUM(ROUND(5)))")).run (fun _ => .null) = error ∧
    composed [absolutes,sums,rounds] 5 = 5 := by
  have deep : (evaluate arithmeticHost (withUnary arithmeticHost.env noOther) 0 4 (nested [absolutes,sums,rounds] five.text)).run (fun _ => .null) = error :=
    evaluate_error arithmeticHost_evaluates (x := five) trivial absolutes (by decide) (by decide) (five_plainly (by simp) _)
  exact ⟨deep,five_kept (by simp)⟩

end running

end Ownly.Sheets.Formula
