import Ownly.Sheets.FormulaPasses

-- Integers that evaluateExpression splices into arithmetic, and when the result is the one of
-- ordinary arithmetic.
namespace Ownly.Sheets.Formula
open Collab (Text)
open Spill (Scalar EvalArray FormulaEvalResult)
open Rewrite
open JsArith (Expr Term Factor Printed)

structure CellRef where
  letters : Text
  digits : Text
  lettered : letters ≠ [] ∧ ∀ c ∈ letters, c.isAlpha = true
  numbered : digits ≠ [] ∧ ∀ c ∈ digits, c.isDigit = true
  positive : Double.valueOf digits ≠ 0
  finite : Double.round (Double.valueOf digits) ≠ none

def CellRef.position (r : CellRef) : Nat × Nat := (Double.valueOf r.digits - 1,columnLettersToIndex r.letters)

theorem parseCellRef_position (r : CellRef) : parseCellRef (r.letters ++ r.digits) = some r.position := by
  rw [parseCellRef_bare r.lettered.1 r.lettered.2 r.numbered.1 r.numbered.2,if_neg (not_or.mpr ⟨r.positive,r.finite⟩)]
  rfl

inductive Operand where
  | literal (digits : Text) (numbered : digits ≠ [] ∧ ∀ c ∈ digits, c.isDigit = true)
  | ref (r : CellRef)

namespace Operand

def text : Operand → Text
  | literal digits _ => digits
  | ref r => r.letters ++ r.digits

def printed (values : Nat × Nat → Int) : Operand → Printed
  | literal digits _ => ⟨false,digits⟩
  | ref r => ⟨decide (values r.position < 0),Nat.toDigits 10 (values r.position).natAbs⟩

-- A cell with an integer of fewer than 16 digits.
def Holds (known : Position → Scalar) (sheetIndex : Nat) (values : Nat × Nat → Int) : Operand → Prop
  | literal _ _ => True
  | ref r => known ⟨sheetIndex,r.position.1,r.position.2⟩ = .number (values r.position) ∧ |values r.position| < 10^15

def integer (values : Nat × Nat → Int) : Operand → Int
  | literal digits _ => Double.valueOf digits
  | ref r => values r.position

def double (values : Nat × Nat → Int) : Operand → Option Rat
  | literal digits _ => Double.round (Double.valueOf digits)
  | ref r => some (values r.position)

def padded : Operand → Bool
  | literal digits _ => decide (1 < digits.length ∧ digits.head? = some '0')
  | ref _ => false

end Operand

def integers : JsArith.Numbers Int where
  literal := fun text => some (Double.valueOf text)
  add := fun x y => x + y
  sub := fun x y => x - y
  mul := fun x y => x * y
  neg := fun x => -x

-- What the engine does with the signs of arithmetic alone: tokens as long as they can be,
-- and the precedence of the operators. Powers are not looked at.
def EvaluatesArithmetic (host : Host) : Prop :=
  ∀ text tokens, JsArith.lex ('(' :: (text ++ [')'])) = some tokens → .power ∉ tokens →
    host.evaluateJs text = (JsArith.run Double.numbers tokens).map .number

theorem arithmeticHost_evaluates : EvaluatesArithmetic arithmeticHost := by
  intro text tokens lexed _
  change ((JsArith.lex ('(' :: (text ++ [')']))).bind _).map _ = _
  rw [lexed]
  rfl

variable {c : Char}

section passing
variable {known : Position → Scalar} {find : Text → Option Text} {out : Text → Reading Text} {text rest : Text} {leaf : Operand}
  {values : Nat × Nat → Int} {env : Env} {sheetIndex : Nat}

theorem run_pass : (pass find out text).run known = replace (whole find) (fun found => (out found).run known) none text := by
  rw [pass,Asking.run_bind,run_rewrite]
  simp [replace]

theorem pass_whole (some_ : text ≠ []) (found : find text = some text) : (pass find out text).run known = (out text).run known := by
  obtain ⟨c,tail,rfl⟩ := List.exists_cons_of_ne_nil some_
  have matched : whole find none (c :: tail ++ []) = some (tail.length + 1,c :: tail) := by
    rw [List.append_nil,whole,found]
    rfl
  have step : replace (whole find) (fun found => (out found).run known) none (c :: tail ++ []) = _ := replace_match matched
  rw [List.append_nil] at step
  rw [run_pass,step]
  simp [replace,rewrite]

theorem replace_behind (out : Text → Text) (behind : Option Char) (text : Text) :
    replace (whole find) out behind text = replace (whole find) out none text := by
  unfold replace rewrite
  cases text with
  | nil => rfl
  | cons c text => rfl

def Stops (rest : Text) : Prop := ∀ c ∈ rest.head?, isNamePart c = false ∧ c ≠ '('

theorem Stops.digit (stops : Stops rest) : ∀ c ∈ rest.head?, c.isDigit = false := by
  intro c first
  have part := (stops c first).1
  simp only [isNamePart,isWord,Char.isAlphanum,Bool.or_eq_false_iff] at part
  exact part.1.1.2

theorem stops_sign (sign : c ∈ ['+','-','*',')']) (rest : Text) : Stops (c :: rest) := by
  intro d first
  cases first
  simp only [List.mem_cons,List.not_mem_nil,or_false] at sign
  rcases sign with rfl | rfl | rfl | rfl <;> decide

def spliced (known : Position → Scalar) (env : Env) (sheetIndex : Nat) (found : Text) : Text :=
  (cellText env sheetIndex found found).run known

theorem spliced_ref (r : CellRef) (holds : (Operand.ref r).Holds known sheetIndex values) :
    spliced known env sheetIndex (r.letters ++ r.digits) = ((Operand.ref r).printed values).text := by
  obtain ⟨held,small⟩ := holds
  unfold spliced cellText
  rw [parseCellRef_position]
  simp only [getRawCellValue,Asking.run_bind,Asking.run_answer,Asking.pure_done,Asking.run_done,held,substituted]
  rw [Double.text_whole _ small]
  simp only [Operand.printed,Printed.text]
  by_cases negative : values r.position < 0 <;> simp [negative]

theorem splice_leaf (a : Operand) (holds : a.Holds known sheetIndex values) (stops : Stops rest) (behind : Option Char) :
    replace (whole bareRef) (spliced known env sheetIndex) behind (a.text ++ rest) =
      (a.printed values).text ++ replace (whole bareRef) (spliced known env sheetIndex) none rest := by
  cases a with
  | literal digits numbered =>
    have free : Free (whole bareRef) behind digits rest := by
      refine free_class (fun c => c.isAlpha = true) (fun _ c text found => ?_) (fun c member => by simp [alpha_digit (numbered.2 c member)]) _ _
      by_contra other
      apply found
      simp [whole,bareRef,other]
    rw [Operand.text,replace_free free,replace_behind]
    rfl
  | ref r =>
    have found := bareRef_found r.lettered.1 r.lettered.2 r.numbered.1 r.numbered.2 stops.digit
    have printed : spliced known env sheetIndex (r.letters ++ r.digits) = ((Operand.ref r).printed values).text := spliced_ref r holds
    obtain ⟨c,tail,shape⟩ := List.exists_cons_of_ne_nil (List.append_ne_nil_of_left_ne_nil r.lettered.1 r.digits)
    have matched : whole bareRef behind (c :: tail ++ rest) = some (tail.length + 1,c :: tail) := by
      rw [whole,← shape,List.append_assoc,found,Option.map_some,shape]
      rfl
    rw [Operand.text,shape,replace_match matched,replace_behind,← shape,printed]

theorem splice_sign (sign : c ∈ ['+','-','*','(',')']) (behind : Option Char) (rest : Text) :
    replace (whole bareRef) (spliced known env sheetIndex) behind (c :: rest) =
      c :: replace (whole bareRef) (spliced known env sheetIndex) none rest := by
  have free : Free (whole bareRef) behind [c] rest := by
    simp only [List.mem_cons,List.not_mem_nil,or_false] at sign
    rcases sign with rfl | rfl | rfl | rfl | rfl <;> exact ⟨rfl,trivial⟩
  have step : replace (whole bareRef) (spliced known env sheetIndex) behind ([c] ++ rest) = [c] ++ _ := replace_free free
  rw [replace_behind _ (last behind [c])] at step
  exact step

theorem splice_expr (e : Expr Operand) (holds : ∀ a ∈ e.leaves, a.Holds known sheetIndex values) :
    replace (whole bareRef) (spliced known env sheetIndex) none (e.print Operand.text) = e.print (fun a => (a.printed values).text) := by
  have carried : replace (whole bareRef) (spliced known env sheetIndex) none (e.print Operand.text ++ []) =
      e.print (fun a => (a.printed values).text) ++ [] := e.carries Operand.text _ (E := Stops)
    (R := fun x y => replace (whole bareRef) (spliced known env sheetIndex) none x = y)
    (fun c sign x y given => by rw [splice_sign sign,given]) (fun c sign x => stops_sign sign x)
    (fun a member x y stops given => by rw [splice_leaf a (holds a member) stops,given]) [] [] (fun c first => by cases first) rfl
  simpa using carried

theorem free_part (parts : ∀ c ∈ text, isNamePart c = true) (stops : Stops rest) (behind : Option Char) :
    Free functionCall behind text rest := by
  induction text generalizing behind with
  | nil => trivial
  | cons c text ih =>
    refine ⟨?_,ih (fun d member => parts d (List.mem_cons_of_mem _ member)) _⟩
    have dropped : (c :: text ++ rest).dropWhile isNamePart = rest := by
      rw [List.dropWhile_append_of_pos parts]
      cases rest with
      | nil => rfl
      | cons d rest => simp [(stops d rfl).1]
    unfold functionCall
    rw [dropped]
    split
    · split
      · exact absurd rfl (stops '(' rfl).2
      · rfl
    · rfl

theorem free_sign_call (sign : c ∈ ['+','-','*','(',')']) (behind : Option Char) (rest : Text) :
    Free functionCall behind [c] rest := by
  simp only [List.mem_cons,List.not_mem_nil,or_false] at sign
  rcases sign with rfl | rfl | rfl | rfl | rfl <;> exact ⟨rfl,trivial⟩

theorem namePart_alpha (alphabetic : c.isAlpha = true) : isNamePart c = true := by
  simp [isNamePart,isWord,Char.isAlphanum,alphabetic]

theorem namePart_digit (numeral : c.isDigit = true) : isNamePart c = true := by
  simp [isNamePart,isWord,Char.isAlphanum,numeral]

theorem functionCall_letters (some_ : text ≠ []) (lettered : ∀ c ∈ text, c.isAlpha = true) (behind : Option Char) (rest : Text) :
    functionCall behind (text ++ '(' :: rest) = (argumentsOf false rest).map (fun args => (text.length + args.length + 2,(text,args))) := by
  obtain ⟨c,tail,rfl⟩ := List.exists_cons_of_ne_nil some_
  have parts : ∀ d ∈ c :: tail, isNamePart d = true := fun d member => namePart_alpha (lettered d member)
  have taken : (c :: tail ++ '(' :: rest).takeWhile isNamePart = c :: tail ∧ (c :: tail ++ '(' :: rest).dropWhile isNamePart = '(' :: rest := by
    rw [List.takeWhile_append_of_pos parts,List.dropWhile_append_of_pos parts]
    simp [isNamePart,isWord,Char.isAlphanum]
  have head : (c :: tail ++ '(' :: rest).head?.any (fun c => c.isAlpha || decide (c = '_')) = true := by
    simp [lettered c List.mem_cons_self]
  rw [functionCall,if_pos head,taken.1,taken.2]
  rfl

theorem Operand.parts (a : Operand) : ∀ c ∈ a.text, isNamePart c = true := by
  intro c member
  cases a with
  | literal digits numbered => exact namePart_digit (numbered.2 c member)
  | ref r =>
    rcases List.mem_append.mp member with letter | digit
    · exact namePart_alpha (r.lettered.2 c letter)
    · exact namePart_digit (r.numbered.2 c digit)

theorem free_expr (e : Expr Operand) : Free functionCall none (e.print Operand.text) [] := by
  have carried : ∀ behind, Free functionCall behind (e.print Operand.text ++ []) [] := e.carries Operand.text Operand.text (E := Stops)
    (R := fun x (_ : Text) => ∀ behind, Free functionCall behind x [])
    (fun c sign x _ given behind => (free_append [c]).mpr ⟨free_sign_call sign _ _,given _⟩) (fun c sign x => stops_sign sign x)
    (fun a _ x _ stops given behind => (free_append a.text).mpr ⟨free_part a.parts (by simpa using stops) _,given _⟩)
    [] [] (fun c first => by cases first) (fun behind => trivial)
  simpa using carried none

end passing

section evaluation
variable {host : Host} {call : Text → Text → Reading Called} {known : Position → Scalar} {sheetIndex : Nat} {values : Nat × Nat → Int}
  {text : Text}

theorem printed_numeric (values : Nat × Nat → Int) : JsArith.Numeric (Operand.printed values) := by
  intro a
  cases a with
  | literal digits numbered => exact ⟨numbered.1,fun c member => .inl (numbered.2 c member)⟩
  | ref r => exact ⟨Nat.toDigits_ne_nil,fun c member => .inl (Nat.isDigit_of_mem_toDigits (by decide) (by decide) member)⟩

theorem print_arithmetic (e : Expr Operand) (values : Nat × Nat → Int) :
    ∀ c ∈ e.print (fun a => (a.printed values).text), JsArith.Numeral c ∨ c ∈ ['+','-','*','(',')'] := by
  refine Expr.chars (fun c member => .inr member) e (fun a _ c member => ?_)
  obtain ⟨_,numerals⟩ := printed_numeric values a
  unfold Printed.text at member
  split at member
  · rcases List.mem_cons.mp member with rfl | digit
    · exact .inr (by simp)
    · exact .inl (numerals c digit)
  · exact .inl (numerals c member)

def Typed (c : Char) : Prop := c.isAlpha = true ∨ c.isDigit = true ∨ c ∈ ['+','-','*','(',')']

theorem print_typed (e : Expr Operand) : ∀ c ∈ e.print Operand.text, Typed c := by
  refine Expr.chars (fun c member => .inr (.inr member)) e (fun a _ c member => ?_)
  cases a with
  | literal digits numbered => exact .inr (.inl (numbered.2 c member))
  | ref r =>
    rcases List.mem_append.mp member with letter | digit
    · exact .inl (r.lettered.2 c letter)
    · exact .inr (.inl (r.numbered.2 c digit))

theorem Typed.space (typed : Typed c) : isSpace c = false := by
  rcases typed with letter | digit | listed
  · exact isSpace_alpha letter
  · exact isSpace_digit digit
  · simp only [List.mem_cons,List.not_mem_nil,or_false] at listed
    rcases listed with rfl | rfl | rfl | rfl | rfl <;> decide

theorem typed_absent (typed : ∀ c ∈ text, Typed c) {d : Char} (other : d.isAlpha = false ∧ d.isDigit = false ∧ d ∉ ['+','-','*','(',')']) :
    d ∉ text := by
  intro member
  rcases typed d member with letter | digit | sign
  · rw [other.1] at letter; cases letter
  · rw [other.2.1] at digit; cases digit
  · exact other.2.2 sign

theorem typed_trim (typed : ∀ c ∈ text, Typed c) : trim text = text :=
  trim_closed _ (fun c first => (typed c (List.mem_of_mem_head? first)).space) (fun c last => (typed c (List.mem_of_mem_getLast? last)).space)

theorem typed_lacks (e : Expr Operand) (other : c.isAlpha = false ∧ c.isDigit = false ∧ c ∉ ['+','-','*','(',')']) :
    c ∉ e.print Operand.text := typed_absent (print_typed e) other

theorem print_digit (e : Expr Operand) : ∃ c ∈ e.print Operand.text, c.isDigit = true := by
  obtain ⟨a,leaf⟩ := e.some_leaf
  have inside : ∀ c ∈ a.text, c ∈ e.print Operand.text := e.inside a leaf
  cases a with
  | literal digits numbered =>
    obtain ⟨c,rest,rfl⟩ := List.exists_cons_of_ne_nil numbered.1
    exact ⟨c,inside c List.mem_cons_self,numbered.2 c List.mem_cons_self⟩
  | ref r =>
    obtain ⟨c,rest,shape⟩ := List.exists_cons_of_ne_nil r.numbered.1
    have member : c ∈ r.digits := shape ▸ List.mem_cons_self
    exact ⟨c,inside c (List.mem_append_right _ member),r.numbered.2 c member⟩

theorem evaluate_spliced (e : Expr Operand) (holds : ∀ a ∈ e.leaves, a.Holds known sheetIndex values) :
    (evaluateExpression host call sheetIndex (e.print Operand.text)).run known =
      ofJs (host.evaluateJs (e.print (fun a => (a.printed values).text))) := by
  have closed : trim (e.print Operand.text) = e.print Operand.text := typed_trim (print_typed e)
  have whole_ : replace (whole bareRef) (spliced known host.env sheetIndex) none _ = _ := splice_expr e holds
  rw [evaluateExpression_direct host call sheetIndex closed (print_digit e) (typed_lacks e (by decide)) (typed_lacks e (by decide))
    (free_expr e),substituteReferences_plain host sheetIndex (typed_lacks e (by decide)) (typed_lacks e (by decide))]
  rw [Asking.run_bind,run_pass]
  change evaluateText host (concatenation (restoreStrings [] (lowerBooleans
    (replace (whole bareRef) (spliced known host.env sheetIndex) none (e.print Operand.text))))) = _
  have letter : 'e' ∉ e.print (fun a => (a.printed values).text) := fun member => by
    rcases print_arithmetic e values 'e' member with numeral | listed
    · exact absurd numeral (by decide)
    · exact absurd listed (by decide)
  have signs : ∀ c ∈ e.print (fun a => (a.printed values).text), Arithmetic c :=
    fun c member => (print_arithmetic e values c member).imp id (List.mem_cons_of_mem _)
  rw [whole_,evaluateText_arithmetic host [] signs,if_neg letter]

def Operand.magnitude (values : Nat × Nat → Int) : Operand → Option Rat
  | .literal digits _ => Double.round (Double.valueOf digits)
  | .ref r => some ((values r.position).natAbs : Rat)

theorem leafValue_double (values : Nat × Nat → Int) :
    JsArith.leafValue Double.numbers (Operand.printed values) (Operand.magnitude values) = Operand.double values := by
  funext a
  cases a with
  | literal digits numbered => rfl
  | ref r =>
    unfold JsArith.leafValue JsArith.signed
    by_cases negative : values r.position < 0
    · have sign : ((Operand.ref r).printed values).negative = true := decide_eq_true negative
      rw [if_pos sign]
      simp [Operand.magnitude,Operand.double,Double.numbers,Nat.cast_natAbs,abs_of_neg negative]
    · have sign : ¬((Operand.ref r).printed values).negative = true := by simpa [Operand.printed] using negative
      rw [if_neg sign]
      simp [Operand.magnitude,Operand.double,Nat.cast_natAbs,abs_of_nonneg (not_lt.mp negative)]

theorem literal_read (a : Operand) (holds : a.Holds known sheetIndex values) (plain : a.padded = false) :
    Double.numbers.literal (a.printed values).digits = some (a.magnitude values) := by
  cases a with
  | literal digits numbered =>
    simp only [Operand.padded,decide_eq_false_iff_not,not_and] at plain
    exact Double.literal_whole numbered.1 numbered.2 plain
  | ref r =>
    have small : (values r.position).natAbs < 2^53 := by
      have bound := holds.2
      rw [Int.abs_eq_natAbs] at bound
      omega
    have numerals : ∀ c ∈ Nat.toDigits 10 (values r.position).natAbs, c.isDigit = true :=
      fun c member => Nat.isDigit_of_mem_toDigits (by decide) (by decide) member
    have lead : 1 < (Nat.toDigits 10 (values r.position).natAbs).length → (Nat.toDigits 10 (values r.position).natAbs).head? ≠ some '0' := by
      intro long
      by_cases zero : (values r.position).natAbs = 0
      · simp [zero] at long
      · exact Double.toDigits_head (Nat.pos_of_ne_zero zero)
    have read := Double.literal_whole Nat.toDigits_ne_nil numerals lead
    have value : Double.valueOf (Nat.toDigits 10 (values r.position).natAbs) = (values r.position).natAbs := Nat.ofDigitChars_ten_toDigits
    have exact_ : Double.round ((values r.position).natAbs : Rat) = some ((values r.position).natAbs : Rat) := by
      have bound : |((values r.position).natAbs : Int)| < 2^53 := by rw [Nat.abs_cast]; exact_mod_cast small
      simpa using Double.round_int bound
    rw [value,exact_] at read
    exact read

theorem padded_refused (a : Operand) (padded : a.padded = true) : Double.numbers.literal (a.printed values).digits = none := by
  cases a with
  | literal digits numbered =>
    obtain ⟨long,lead⟩ := of_decide_eq_true padded
    exact Double.literal_padded numbered.2 long lead
  | ref r => cases padded

def negative (values : Nat × Nat → Int) (a : Operand) : Bool := (a.printed values).negative

section
variable (evaluates : EvaluatesArithmetic host)
include evaluates

theorem evaluateJs_print {α : Type} {leaf : α → Printed} (numeric : JsArith.Numeric leaf) (e : Expr α) :
    host.evaluateJs (e.print (fun a => (leaf a).text)) =
      (JsArith.eval Double.numbers ((Expr.term (.factor (.paren e))).print (fun a => (leaf a).text))).map .number := by
  have lexed := JsArith.lex_print numeric (Expr.term (.factor (.paren e)))
  rw [JsArith.eval,lexed]
  exact evaluates _ _ lexed (Expr.power _)

theorem clash_refused (call : Text → Text → Reading Called) (e : Expr Operand)
    (holds : ∀ a ∈ e.leaves, a.Holds known sheetIndex values) (clash : e.clashes (negative values) = true) :
    (evaluateExpression host call sheetIndex (e.print Operand.text)).run known = error := by
  have none_ : JsArith.eval Double.numbers _ = none := JsArith.eval_clash (printed_numeric values) (Expr.term (.factor (.paren e))) clash
  rw [evaluate_spliced e holds,evaluateJs_print evaluates (printed_numeric values),none_]
  rfl

theorem padded_error (call : Text → Text → Reading Called) (e : Expr Operand)
    (holds : ∀ a ∈ e.leaves, a.Holds known sheetIndex values) {a : Operand} (member : a ∈ e.leaves) (padded : a.padded = true) :
    (evaluateExpression host call sheetIndex (e.print Operand.text)).run known = error := by
  rw [evaluate_spliced e holds,evaluateJs_print evaluates (printed_numeric values),
    JsArith.eval_invalid (printed_numeric values) (Expr.term (.factor (.paren e))) member (padded_refused a padded)]
  rfl

theorem evaluate_doubles (call : Text → Text → Reading Called) (e : Expr Operand)
    (holds : ∀ a ∈ e.leaves, a.Holds known sheetIndex values) (apart : e.clashes (negative values) = false)
    (plain : ∀ a ∈ e.leaves, a.padded = false) :
    (evaluateExpression host call sheetIndex (e.print Operand.text)).run known =
      ofJs (some (.number (e.value Double.numbers (Operand.double values)))) := by
  have value := JsArith.eval_print (printed_numeric values) (Expr.term (.factor (.paren e))) apart
    (fun a member => literal_read a (holds a member) (plain a member))
  rw [evaluate_spliced e holds,evaluateJs_print evaluates (printed_numeric values),value,leafValue_double]
  rfl

end

-- The result is the one of ordinary arithmetic exactly when no minus runs into the sign of a
-- value, no literal is padded, and the doubles on the way lose nothing.
theorem substitution_exact (evaluates : EvaluatesArithmetic host) (call : Text → Text → Reading Called) (e : Expr Operand)
    (holds : ∀ a ∈ e.leaves, a.Holds known sheetIndex values) :
    (evaluateExpression host call sheetIndex (e.print Operand.text)).run known =
        .scalar (.number ((e.value integers (Operand.integer values) : Int) : Rat)) ↔
      e.clashes (negative values) = false ∧ (∀ a ∈ e.leaves, a.padded = false) ∧
        e.value Double.numbers (Operand.double values) = some ((e.value integers (Operand.integer values) : Int) : Rat) := by
  cases clash : e.clashes (negative values) with
  | true =>
    rw [clash_refused evaluates call e holds clash]
    simp [error]
  | false =>
    by_cases plain : ∀ a ∈ e.leaves, a.padded = false
    · rw [evaluate_doubles evaluates call e holds clash plain]
      cases result : e.value Double.numbers (Operand.double values) with
      | none => simp [ofJs,divisionError]
      | some q => simpa [ofJs] using fun _ => plain
    · obtain ⟨a,bad⟩ := not_forall.mp plain
      obtain ⟨member,padded⟩ := Classical.not_imp.mp bad
      rw [padded_error evaluates call e holds member (by simpa using padded)]
      simp [error,plain]

end evaluation

section doubles
variable {values : Nat × Nat → Int}

-- No integer on the way has more than 53 bits.
mutual
def ExprWithin (values : Nat × Nat → Int) : Expr Operand → Prop
  | .term t => TermWithin values t
  | .add e t => ExprWithin values e ∧ TermWithin values t ∧
      |e.value integers (Operand.integer values) + t.value integers (Operand.integer values)| < 2^53
  | .sub e t => ExprWithin values e ∧ TermWithin values t ∧
      |e.value integers (Operand.integer values) - t.value integers (Operand.integer values)| < 2^53
def TermWithin (values : Nat × Nat → Int) : Term Operand → Prop
  | .factor f => FactorWithin values f
  | .mul t f => TermWithin values t ∧ FactorWithin values f ∧
      |t.value integers (Operand.integer values) * f.value integers (Operand.integer values)| < 2^53
def FactorWithin (values : Nat × Nat → Int) : Factor Operand → Prop
  | .leaf a => |a.integer values| < 2^53
  | .paren e => ExprWithin values e
end

mutual
theorem expr_lossless : (e : Expr Operand) → ExprWithin values e →
    e.value Double.numbers (Operand.double values) = some ((e.value integers (Operand.integer values) : Int) : Rat)
  | .term t => term_lossless t
  | .add e t => by
    intro within
    have rounds := Double.round_int within.2.2
    push_cast at rounds
    rw [Expr.value,expr_lossless e within.1,term_lossless t within.2.1]
    simpa [Double.numbers,Expr.value,integers] using rounds
  | .sub e t => by
    intro within
    have rounds := Double.round_int within.2.2
    push_cast at rounds
    rw [Expr.value,expr_lossless e within.1,term_lossless t within.2.1]
    simpa [Double.numbers,Expr.value,integers] using rounds
theorem term_lossless : (t : Term Operand) → TermWithin values t →
    t.value Double.numbers (Operand.double values) = some ((t.value integers (Operand.integer values) : Int) : Rat)
  | .factor f => factor_lossless f
  | .mul t f => by
    intro within
    have rounds := Double.round_int within.2.2
    push_cast at rounds
    rw [Term.value,term_lossless t within.1,factor_lossless f within.2.1]
    simpa [Double.numbers,Term.value,integers] using rounds
theorem factor_lossless : (f : Factor Operand) → FactorWithin values f →
    f.value Double.numbers (Operand.double values) = some ((f.value integers (Operand.integer values) : Int) : Rat)
  | .leaf (.literal _ _) => fun within => Double.round_int within
  | .leaf (.ref _) => fun _ => rfl
  | .paren e => expr_lossless e
end

-- Integers stay exact as long as none on the way has more than 53 bits.
theorem arithmetic_exact (evaluates : EvaluatesArithmetic host) (call : Text → Text → Reading Called) (e : Expr Operand)
    (holds : ∀ a ∈ e.leaves, a.Holds known sheetIndex values) (apart : e.clashes (negative values) = false)
    (plain : ∀ a ∈ e.leaves, a.padded = false) (within : ExprWithin values e) :
    (evaluateExpression host call sheetIndex (e.print Operand.text)).run known =
      .scalar (.number ((e.value integers (Operand.integer values) : Int) : Rat)) := by
  rw [evaluate_doubles evaluates call e holds apart plain,expr_lossless e within]
  rfl

end doubles

def cellA1 : CellRef where
  letters := ['A']
  digits := ['1']
  lettered := by simp
  numbered := by simp
  positive := by decide
  finite := by
    have small := Double.round_int (z := 1) (by norm_num)
    have value : Double.valueOf ['1'] = 1 := rfl
    rw [value]
    simp only [Int.cast_one] at small
    simp [small]

def oneLess : Expr Operand := .sub (.term (.factor (.leaf (.literal ['1'] (by simp))))) (.factor (.leaf (.ref cellA1)))

theorem oneLess_holds (z : Int) (small : |z| < 10^15) : ∀ a ∈ oneLess.leaves, a.Holds (fun _ => .number z) 0 (fun _ => z) := by
  intro a member
  cases a with
  | literal digits numbered => trivial
  | ref r => exact ⟨rfl,small⟩

theorem substitution_exact_two : (evaluateExpression arithmeticHost (fun _ _ => pure (.notFinite [])) 0 (oneLess.print Operand.text)).run
      (fun _ => .number ((2 : Int) : Rat)) = .scalar (.number ((oneLess.value integers (Operand.integer (fun _ => 2)) : Int) : Rat)) ↔
    oneLess.clashes (negative (fun _ => 2)) = false ∧ (∀ a ∈ oneLess.leaves, a.padded = false) ∧
      oneLess.value Double.numbers (Operand.double (fun _ => 2)) =
        some ((oneLess.value integers (Operand.integer (fun _ => 2)) : Int) : Rat) :=
  substitution_exact arithmeticHost_evaluates _ oneLess (oneLess_holds 2 (by norm_num))

theorem arithmetic_exact_two : (evaluateExpression arithmeticHost (fun _ _ => pure (.notFinite [])) 0 (oneLess.print Operand.text)).run
    (fun _ => .number ((2 : Int) : Rat)) = .scalar (.number ((oneLess.value integers (Operand.integer (fun _ => 2)) : Int) : Rat)) :=
  arithmetic_exact arithmeticHost_evaluates _ oneLess (oneLess_holds 2 (by norm_num)) rfl (by decide) (by
    simp only [oneLess,ExprWithin,TermWithin,FactorWithin]
    decide)

theorem substitution_clashes : (evaluateExpression arithmeticHost (fun _ _ => pure (.notFinite [])) 0 (oneLess.print Operand.text)).run
    (fun _ => .number ((-2 : Int) : Rat)) ≠ .scalar (.number ((oneLess.value integers (Operand.integer (fun _ => -2)) : Int) : Rat)) := by
  rw [clash_refused arithmeticHost_evaluates _ oneLess (oneLess_holds (-2) (by norm_num)) (by rfl)]
  simp [error]

end Ownly.Sheets.Formula
