import Ownly.Sheets.Functions
import Ownly.Sheets.Substitution

-- What the aggregates see of one range: it reaches them as the text of a sum.
namespace Ownly.Sheets.Formula
open Collab (Text)
open Spill (Scalar EvalArray FormulaEvalResult toScalar)
open Rewrite
open JsArith (Expr Term Factor Printed)
open List

-- Two corners of a range, as it is typed.
def rangeName (start stop : CellRef) : Text := start.letters ++ (start.digits ++ ':' :: (stop.letters ++ stop.digits))

def rangeCells (start stop : CellRef) : GridRange :=
  GridRange.normalize ⟨⟨start.position.1,start.position.2⟩,⟨stop.position.1,stop.position.2⟩⟩

section naming
variable {start stop : CellRef} {rest : Text}

theorem CellRef.chars (r : CellRef) : ∀ c ∈ r.letters ++ r.digits, c.isAlpha = true ∨ c.isDigit = true :=
  fun c member => (mem_append.mp member).imp (r.lettered.2 c) (r.numbered.2 c)

theorem rangeName_chars (start stop : CellRef) :
    ∀ c ∈ rangeName start stop, c.isAlpha = true ∨ c.isDigit = true ∨ c = ':' := by
  intro c member
  rw [rangeName,← append_assoc] at member
  rcases mem_append.mp member with front | back
  · exact (start.chars c front).imp id .inl
  · rcases mem_cons.mp back with colon | last
    · exact .inr (.inr colon)
    · exact (stop.chars c last).imp id .inl

theorem rangeName_lacks {c : Char} (other : c.isAlpha = false ∧ c.isDigit = false ∧ c ≠ ':') : c ∉ rangeName start stop := by
  intro member
  rcases rangeName_chars start stop c member with letter | digit | colon
  · rw [other.1] at letter; cases letter
  · rw [other.2.1] at digit; cases digit
  · exact other.2.2 colon

theorem rangeName_digit (start stop : CellRef) : ∃ c ∈ rangeName start stop, c.isDigit = true := by
  obtain ⟨c,rest,shape⟩ := exists_cons_of_ne_nil start.numbered.1
  refine ⟨c,?_,start.numbered.2 c (shape ▸ mem_cons_self)⟩
  rw [rangeName,shape]
  simp

theorem trim_rangeName (start stop : CellRef) : trim (rangeName start stop) = rangeName start stop := by
  have space : ∀ c ∈ rangeName start stop, isSpace c = false := by
    intro c member
    rcases rangeName_chars start stop c member with letter | digit | rfl
    · exact isSpace_alpha letter
    · exact isSpace_digit digit
    · rfl
  exact trim_closed _ (fun c first => space c (mem_of_mem_head? first)) (fun c last => space c (mem_of_mem_getLast? last))

theorem parseRangeRef_name (start stop : CellRef) : parseRangeRef (rangeName start stop) = some (rangeCells start stop) := by
  have noColon : ∀ r : CellRef, ':' ∉ r.letters ++ r.digits := by
    intro r member
    rcases r.chars ':' member with letter | digit
    · cases letter
    · cases digit
  have split : (rangeName start stop).splitOn ':' = [start.letters ++ start.digits,stop.letters ++ stop.digits] := by
    rw [rangeName,← append_assoc,splitOn_append_cons_self_of_not_mem (noColon start)]
    rw [splitOn_eq_singleton (noColon stop)]
  rw [parseRangeRef,split]
  simp [parseCellRef_position,rangeCells]

theorem rangeOf_name (start stop : CellRef) : rangeOf bareRef (rangeName start stop) = some (rangeName start stop) := by
  have first : bareRef (rangeName start stop) = some (start.letters ++ start.digits) :=
    bareRef_found start.lettered.1 start.lettered.2 start.numbered.1 start.numbered.2 (by simp)
  have second : bareRef (stop.letters ++ (stop.digits ++ [])) = some (stop.letters ++ stop.digits) :=
    bareRef_found stop.lettered.1 stop.lettered.2 stop.numbered.1 stop.numbered.2 (by simp)
  have dropped : (rangeName start stop).drop (start.letters ++ start.digits).length = ':' :: (stop.letters ++ stop.digits) := by
    rw [rangeName,← append_assoc,drop_left]
  rw [append_nil] at second
  rw [rangeOf,first,Option.bind_some,dropped]
  simp [second,rangeName]

theorem splitLoop_plain (text current : Text) (depth : Int) (plain : ∀ c ∈ text, c ∉ ['"',',',';']) (some_ : trim (current ++ text) ≠ []) :
    splitLoop text current depth false = [current ++ text] := by
  induction text generalizing current depth with
  | nil => simpa [splitLoop] using some_
  | cons c text ih =>
    have here := plain c mem_cons_self
    simp only [mem_cons,not_mem_nil,or_false,not_or] at here
    rw [splitLoop.eq_3 _ _ _ _ _ here.1]
    simp only [here.2.1,here.2.2,or_self,and_false,if_false]
    rw [ih _ _ (fun d member => plain d (mem_cons_of_mem _ member)) (by simpa using some_)]
    simp

theorem splitFunctionArgs_name (start stop : CellRef) : splitFunctionArgs (rangeName start stop) = [rangeName start stop] := by
  refine splitLoop_plain _ [] 0 (fun c member listed => ?_) ?_
  · simp only [mem_cons,not_mem_nil,or_false] at listed
    rcases listed with rfl | rfl | rfl <;> exact absurd member (rangeName_lacks (by decide))
  · obtain ⟨c,inside,_⟩ := rangeName_digit start stop
    rw [nil_append,trim_rangeName]
    exact ne_nil_of_mem inside

end naming

def total (values : List Rat) : Option Rat := values.foldl (fun sum n => sum.bind (fun s => Double.round (s + n))) (some 0)

-- Doubles that are written without an exponent.
abbrev Plain := {n : Rat // Double.IsDouble n ∧ 'e' ∉ Double.text n}

def Plain.printed (n : Plain) : Printed := ⟨decide (n.val < 0),Double.magnitude n.val⟩

section summing
variable {host : Host} {values : List Rat} {n : Rat} {rest : Text}

theorem Plain.text (n : Plain) : n.printed.text = Double.text n.val := by
  simp [Plain.printed,Printed.text,Double.text]

theorem plain_numeric : JsArith.Numeric Plain.printed := by
  intro n
  have plain : 'e' ∉ Double.magnitude n.val := fun member => n.property.2 (Double.text_exponent.mpr member)
  have read := Double.magnitude_literal n.property.1 plain
  refine ⟨fun none_ => ?_,Double.magnitude_plain plain⟩
  change Double.literal n.printed.digits = _ at read
  rw [none_] at read
  cases read

theorem plain_value : JsArith.leafValue Double.numbers Plain.printed (fun n => some |n.val|) = fun n => some n.val := by
  funext n
  unfold JsArith.leafValue JsArith.signed
  by_cases negative : n.val < 0
  · rw [if_pos (show n.printed.negative = true from decide_eq_true negative)]
    simp [Double.numbers,abs_of_neg negative]
  · rw [if_neg (show ¬n.printed.negative = true by simpa [Plain.printed] using negative)]
    simp [abs_of_nonneg (not_lt.mp negative)]

theorem sumText_cons (first : Rat) (rest : List Rat) :
    sumText (first :: rest) = Double.text first ++ rest.flatMap (fun n => '+' :: Double.text n) := by
  rw [sumText,if_neg (cons_ne_nil _ _)]
  induction rest generalizing first with
  | nil => simp
  | cons second rest ih =>
    have split : ['+'].intercalate ((first :: second :: rest).map Double.text) =
        Double.text first ++ '+' :: ['+'].intercalate ((second :: rest).map Double.text) := by
      simp [List.intercalate]
    rw [split,ih]
    simp

theorem sum_print (first : Plain) (rest : List Plain) :
    (Expr.sum first rest).print (fun n => n.printed.text) = sumText ((first :: rest).map Subtype.val) := by
  rw [Expr.sum,JsArith.print_fold,map_cons,sumText_cons]
  simp [Expr.print,Term.print,Factor.print,Plain.text]

theorem sum_value (first : Plain) (rest : List Plain) :
    (Expr.sum first rest).value Double.numbers (fun n => some n.val) = total ((first :: rest).map Subtype.val) := by
  have start : Double.round (0 + first.val) = some first.val := by
    rw [zero_add]
    exact first.property.1
  rw [Expr.sum,JsArith.value_fold,total,map_cons,foldl_cons,Option.bind_some,start,foldl_map]
  rfl

theorem evaluateJs_sum (evaluates : EvaluatesArithmetic host) (first : Plain) (rest : List Plain) :
    host.evaluateJs (sumText ((first :: rest).map Subtype.val)) = some (.number (total ((first :: rest).map Subtype.val))) := by
  have value : JsArith.eval Double.numbers _ = _ := JsArith.eval_print plain_numeric (Expr.term (.factor (.paren (Expr.sum first rest))))
    (JsArith.clashes_fold _ rest _) (fun n _ => Double.magnitude_literal n.property.1 (fun member => n.property.2 (Double.text_exponent.mpr member)))
  rw [plain_value] at value
  have same : (Expr.term (.factor (.paren (Expr.sum first rest)))).value Double.numbers (fun n => some n.val) =
    (Expr.sum first rest).value Double.numbers (fun n => some n.val) := rfl
  rw [same,sum_value] at value
  rw [← sum_print,evaluateJs_print evaluates plain_numeric,value]
  rfl

theorem sumText_chars (values : List Rat) : ∀ c ∈ sumText values, JsArith.Numeral c ∨ c ∈ ['e','+','-'] := by
  intro c member
  cases values with
  | nil =>
    cases mem_singleton.mp member
    exact .inl (.inl rfl)
  | cons first rest =>
    rw [sumText_cons] at member
    rcases mem_append.mp member with front | back
    · exact Double.text_chars first c front
    · obtain ⟨n,_,inside⟩ := mem_flatMap.mp back
      rcases mem_cons.mp inside with rfl | digit
      · exact .inr (by simp)
      · exact Double.text_chars n c digit

theorem sumText_exponent (values : List Rat) : 'e' ∈ sumText values ↔ ∃ n ∈ values, 'e' ∈ Double.text n := by
  cases values with
  | nil => simp [sumText]
  | cons first rest =>
    rw [sumText_cons]
    simp [mem_flatMap]

theorem free_numerals (numerals : ∀ c ∈ rest, JsArith.Numeral c) (behind : Option Char) (more : Text) :
    Free (whole bareRef) behind rest more := by
  refine free_class (fun c => c.isAlpha = true) (fun _ c text found => ?_) (fun c member => ?_) _ _
  · by_contra other
    exact found (by simp [whole,bareRef,other])
  · rcases numerals c member with digit | rfl
    · simp [alpha_digit digit]
    · decide

theorem free_magnitude (n : Rat) (behind : Option Char) (more : Text) : Free (whole bareRef) behind (Double.magnitude n) more := by
  rcases Double.magnitude_shape n with numerals | ⟨front,sign,back,shape,before,signs,after_⟩
  · exact free_numerals numerals behind more
  · rw [shape,free_append]
    refine ⟨free_numerals before _ _,?_,?_,free_numerals after_ _ _⟩
    · rcases signs with rfl | rfl <;> rfl
    · rcases signs with rfl | rfl <;> rfl

theorem free_text (n : Rat) (behind : Option Char) (more : Text) : Free (whole bareRef) behind (Double.text n) more := by
  unfold Double.text
  split
  · exact ⟨rfl,free_magnitude n _ more⟩
  · exact free_magnitude n behind more

theorem free_tail (values : List Rat) (behind : Option Char) : Free (whole bareRef) behind (values.flatMap (fun n => '+' :: Double.text n)) [] := by
  induction values generalizing behind with
  | nil => trivial
  | cons n values ih =>
    rw [flatMap_cons,free_append]
    exact ⟨⟨rfl,free_text n _ _⟩,ih _⟩

theorem free_sum (values : List Rat) : Free (whole bareRef) none (sumText values) [] := by
  cases values with
  | nil => exact ⟨rfl,trivial⟩
  | cons first rest =>
    rw [sumText_cons,free_append]
    exact ⟨free_text first _ _,free_tail rest _⟩

end summing

-- What coerceNumber makes of a number or of an empty cell.
def cellNumber : Scalar → Rat
  | .number n => n
  | _ => 0

section range
variable {host : Host} {known : Position → Scalar} {sheetIndex : Nat} {start stop : CellRef}

def rangeScalars (known : Position → Scalar) (sheetIndex : Nat) (start stop : CellRef) : List Scalar :=
  (cellsOf (rangeCells start stop)).map (fun p => known ⟨sheetIndex,p.1,p.2⟩)

def rangeValues (known : Position → Scalar) (sheetIndex : Nat) (start stop : CellRef) : List Rat :=
  (rangeScalars known sheetIndex start stop).map cellNumber

def Numeric (known : Position → Scalar) (sheetIndex : Nat) (start stop : CellRef) : Prop :=
  ∀ v ∈ rangeScalars known sheetIndex start stop, v = .null ∨ ∃ n, v = .number n ∧ Double.IsDouble n

theorem run_mapM {γ δ : Type} (f : γ → Reading δ) (xs : List γ) : (xs.mapM f).run known = xs.map (fun x => (f x).run known) := by
  induction xs with
  | nil => rfl
  | cons x xs ih => simp [mapM_cons,ih]

theorem normalize_twice (range : GridRange) : range.normalize.normalize = range.normalize := by
  simp [GridRange.normalize]

theorem run_rangeText (env : Env) (numeric : Numeric known sheetIndex start stop) :
    (rangeText env sheetIndex (rangeName start stop) (rangeName start stop)).run known =
      sumText (rangeValues known sheetIndex start stop) := by
  have same : (rangeScalars known sheetIndex start stop).filterMap (coerceNumber env) =
      rangeValues known sheetIndex start stop := by
    rw [rangeValues,← filterMap_eq_map]
    refine filterMap_congr (fun v member => ?_)
    rcases numeric v member with rfl | ⟨n,rfl,_⟩ <;> rfl
  rw [rangeText,parseRangeRef_name]
  simp only [collectRangeValues,Asking.run_bind,run_mapM,Asking.pure_done,Asking.run_done]
  rw [rangeCells,normalize_twice]
  exact congrArg sumText same

theorem pass_range (numeric : Numeric known sheetIndex start stop) :
    (pass (rangeOf bareRef) (fun found => rangeText host.env sheetIndex found found) (rangeName start stop)).run known =
      sumText (rangeValues known sheetIndex start stop) := by
  rw [pass_whole (ne_nil_of_mem (rangeName_digit start stop).choose_spec.1) (rangeOf_name start stop)]
  exact run_rangeText host.env numeric

theorem sumText_lacks (values : List Rat) {c : Char} (other : ¬JsArith.Numeral c ∧ c ∉ ['e','+','-']) : c ∉ sumText values :=
  fun member => (sumText_chars values c member).elim other.1 other.2

theorem run_references (numeric : Numeric known sheetIndex start stop) :
    (substituteReferences host sheetIndex (rangeName start stop)).run known =
      sumText (rangeValues known sheetIndex start stop) := by
  unfold substituteReferences
  rw [pass_sign '!' (fun _ => qualified_needs) (rangeName_lacks (by decide))]
  simp only [Asking.pure_done,Asking.done_bind]
  rw [Asking.run_bind,pass_range numeric,pass_sign '!' (fun _ => qualified_needs) (sumText_lacks _ (by decide))]
  simp only [Asking.pure_done,Asking.done_bind]
  rw [pass_none (free_sum _)]
  rfl

theorem rangeValues_double (numeric : Numeric known sheetIndex start stop) :
    ∀ n ∈ rangeValues known sheetIndex start stop, Double.IsDouble n := by
  intro n member
  obtain ⟨v,inside,rfl⟩ := mem_map.mp member
  rcases numeric v inside with rfl | ⟨m,rfl,double⟩
  · exact Double.round_zero
  · exact double

theorem rangeValues_some (known : Position → Scalar) (sheetIndex : Nat) (start stop : CellRef) :
    rangeValues known sheetIndex start stop ≠ [] := by
  have rows : List.range' (rangeCells start stop).start.row ((rangeCells start stop).stop.row + 1 - (rangeCells start stop).start.row) ≠ [] := by
    simp [rangeCells,GridRange.normalize]
    omega
  have cols : List.range' (rangeCells start stop).start.col ((rangeCells start stop).stop.col + 1 - (rangeCells start stop).start.col) ≠ [] := by
    simp [rangeCells,GridRange.normalize]
    omega
  obtain ⟨row,more,first⟩ := exists_cons_of_ne_nil rows
  simp [rangeValues,rangeScalars,cellsOf,first,cols]

theorem evaluate_range (evaluates : EvaluatesArithmetic host) (call : Text → Text → Reading Called)
    (numeric : Numeric known sheetIndex start stop) :
    (evaluateExpression host call sheetIndex (rangeName start stop)).run known =
      if ∃ n ∈ rangeValues known sheetIndex start stop, 'e' ∈ Double.text n then error
      else ofJs (some (.number (total (rangeValues known sheetIndex start stop)))) := by
  have free : Free functionCall none (rangeName start stop) [] :=
    free_sign _ '(' functionCall_needs (rangeName_lacks (by decide))
  rw [evaluateExpression_direct host call sheetIndex (trim_rangeName start stop) (rangeName_digit start stop)
    (rangeName_lacks (by decide)) (rangeName_lacks (by decide)) free,Asking.run_bind,run_references numeric]
  simp only [Asking.pure_done,Asking.run_done]
  rw [evaluateText_arithmetic host [] (fun c member => (sumText_chars _ c member).imp id (fun listed => by
    simp only [mem_cons,not_mem_nil,or_false] at listed ⊢
    tauto)),if_congr (sumText_exponent _) rfl rfl]
  by_cases exponent : ∃ n ∈ rangeValues known sheetIndex start stop, 'e' ∈ Double.text n
  · rw [if_pos exponent,if_pos exponent]
  · rw [if_neg exponent,if_neg exponent]
    have plain : ∀ n ∈ rangeValues known sheetIndex start stop, Double.IsDouble n ∧ 'e' ∉ Double.text n :=
      fun n member => ⟨rangeValues_double numeric n member,fun letter => exponent ⟨n,member,letter⟩⟩
    obtain ⟨first,rest,shape⟩ := exists_cons_of_ne_nil (rangeValues_some known sheetIndex start stop)
    rw [shape] at plain ⊢
    lift first to Plain using plain first mem_cons_self
    lift rest to List Plain using fun n member => plain n (mem_cons_of_mem _ member)
    exact congrArg ofJs (evaluateJs_sum evaluates first rest)

end range

inductive Aggregate where
  | sum | average | count | min | max | median

def Aggregate.name : Aggregate → Text
  | .sum => textOf "SUM"
  | .average => textOf "AVERAGE"
  | .count => textOf "COUNT"
  | .min => textOf "MIN"
  | .max => textOf "MAX"
  | .median => textOf "MEDIAN"

def middle (numbers : List Rat) : Option Rat :=
  let sorted := numbers.mergeSort (fun left right => decide (left ≤ right))
  if sorted.length % 2 = 1 then sorted[sorted.length / 2]?
  else sorted[sorted.length / 2 - 1]?.bind (fun low => sorted[sorted.length / 2]?.map (fun high => (low + high) / 2))

def Aggregate.Meets (numbers : List Rat) (result : Called) : Aggregate → Prop
  | .sum => result = called (.number numbers.sum)
  | .average => result = if numbers = [] then called (.text (textOf "#DIV/0!")) else called (.number (numbers.sum / numbers.length))
  | .count => result = called (.number numbers.length)
  | .min => ∀ least ∈ numbers, (∀ n ∈ numbers, least ≤ n) → result = called (.number least)
  | .max => ∀ most ∈ numbers, (∀ n ∈ numbers, n ≤ most) → result = called (.number most)
  | .median => ∀ n, middle numbers = some n → result = called (.number n)

section aggregates
variable {host : Host} {known : Position → Scalar} {sheetIndex : Nat} {start stop : CellRef}

def scalarNumber : Scalar → Option Rat
  | .number n => some n
  | _ => none

def rangeNumbers (known : Position → Scalar) (sheetIndex : Nat) (start stop : CellRef) : List Rat :=
  (rangeScalars known sheetIndex start stop).filterMap scalarNumber

-- The numbers that a function is given for a range: one, or none at all.
def seen (values : List Rat) : List Rat := if ∃ n ∈ values, 'e' ∈ Double.text n then [] else (total values).toList

theorem aggregate_some (a : Aggregate) (numericArgs : List Rat) : ∃ result, aggregate a.name numericArgs = some result := by
  cases a <;> exact ⟨_,rfl⟩

theorem run_function (evaluates : EvaluatesArithmetic host) (other : Text → Text → List Scalar → Reading Called) (fuel : Nat)
    (numeric : Numeric known sheetIndex start stop) (a : Aggregate) :
    some ((evaluateFunction host.env (evaluate host other sheetIndex (fuel + 1)) other a.name (rangeName start stop)).run known) =
      aggregate a.name (seen (rangeValues known sheetIndex start stop)) := by
  have upper : a.name.map Char.toUpper = a.name := by cases a <;> rfl
  have args : [toScalar ((evaluate host other sheetIndex (fuel + 1) (rangeName start stop)).run known)].filterMap (coerceNumber host.env) =
      seen (rangeValues known sheetIndex start stop) := by
    rw [evaluate,evaluate_range evaluates _ numeric,seen]
    by_cases exponent : ∃ n ∈ rangeValues known sheetIndex start stop, 'e' ∈ Double.text n
    · rw [if_pos exponent,if_pos exponent]
      rfl
    · rw [if_neg exponent,if_neg exponent]
      cases total (rangeValues known sheetIndex start stop) <;> rfl
  obtain ⟨result,found⟩ := aggregate_some a (seen (rangeValues known sheetIndex start stop))
  rw [evaluateFunction,splitFunctionArgs_name,upper]
  simp only [mapM_cons,mapM_nil,Asking.run_bind,Asking.pure_done,Asking.run_done,trim_rangeName,args,found]

theorem fold_zeros (values : List Rat) (zeros : ∀ n ∈ values, n = 0) {s : Rat} (double : Double.IsDouble s) :
    values.foldl (fun sum n => sum.bind (fun s => Double.round (s + n))) (some s) = some s := by
  induction values with
  | nil => rfl
  | cons n values ih =>
    have step : Double.round (s + n) = some s := by
      rw [zeros n mem_cons_self,add_zero]
      exact double
    rw [foldl_cons,Option.bind_some,step]
    exact ih (fun m member => zeros m (mem_cons_of_mem _ member))

theorem zero_plain : 'e' ∉ Double.text 0 := by
  rw [Double.text_exponent]
  simp [Double.magnitude]

theorem seen_empty (values : List Rat) (zeros : ∀ n ∈ values, n = 0) : seen values = [0] := by
  have plain : ¬∃ n ∈ values, 'e' ∈ Double.text n := by
    rintro ⟨n,member,letter⟩
    rw [zeros n member] at letter
    exact zero_plain letter
  rw [seen,if_neg plain,total,fold_zeros values zeros Double.round_zero]
  rfl

theorem seen_one {front back : List Rat} {n : Rat} (before : ∀ m ∈ front, m = 0) (behind : ∀ m ∈ back, m = 0)
    (double : Double.IsDouble n) (letter : 'e' ∉ Double.text n) : seen (front ++ n :: back) = [n] := by
  have plain : ¬∃ m ∈ front ++ n :: back, 'e' ∈ Double.text m := by
    rintro ⟨m,member,exponent⟩
    rcases mem_append.mp member with old | new
    · exact zero_plain (before m old ▸ exponent)
    · rcases mem_cons.mp new with rfl | rest
      · exact letter exponent
      · exact zero_plain (behind m rest ▸ exponent)
  have step : Double.round (0 + n) = some n := by
    rw [zero_add]
    exact double
  rw [seen,if_neg plain,total,foldl_append,fold_zeros front before Double.round_zero,foldl_cons,Option.bind_some,step,
    fold_zeros back behind double]
  rfl

theorem aggregate_one {n : Rat} (double : Double.IsDouble n) (a : Aggregate) {result : Called}
    (found : some result = aggregate a.name [n]) : a.Meets [n] result := by
  have same : Double.round n = some n := double
  have sum : sumOf [n] = .finite n := by simp [sumOf,Total.add,same]
  cases a with
  | sum =>
    cases found
    simp [Aggregate.Meets,sum,Total.called]
  | average =>
    cases found
    simp [Aggregate.Meets,sum,Total.divide,same,Total.called]
  | count =>
    cases found
    rfl
  | min =>
    cases found
    intro least member _
    rw [mem_singleton.mp member]
    rfl
  | max =>
    cases found
    intro most member _
    rw [mem_singleton.mp member]
    rfl
  | median =>
    cases found
    intro m shape
    have one : middle [n] = some n := by simp [middle]
    cases one.symm.trans shape
    simp [medianOf]

theorem numbers_shape {n : Rat} (numeric : Numeric known sheetIndex start stop) (only : rangeNumbers known sheetIndex start stop = [n]) :
    ∃ front back, rangeValues known sheetIndex start stop = front ++ n :: back ∧ (∀ m ∈ front, m = 0) ∧ (∀ m ∈ back, m = 0) ∧ Double.IsDouble n := by
  have zero : ∀ v ∈ rangeScalars known sheetIndex start stop, scalarNumber v = none → cellNumber v = 0 := by
    intro v member none_
    rcases numeric v member with rfl | ⟨m,rfl,_⟩
    · rfl
    · cases none_
  obtain ⟨before,v,behind,split,skipped,value,rest⟩ := filterMap_eq_cons_iff.mp only
  have member : v ∈ rangeScalars known sheetIndex start stop := by simp [split]
  have number : v = .number n ∧ Double.IsDouble n := by
    rcases numeric v member with rfl | ⟨m,rfl,double⟩
    · cases value
    · cases value
      exact ⟨rfl,double⟩
  refine ⟨before.map cellNumber,behind.map cellNumber,?_,?_,?_,number.2⟩
  · rw [rangeValues,split,map_append,map_cons,number.1]
    rfl
  · intro m inside
    obtain ⟨w,old,rfl⟩ := mem_map.mp inside
    exact zero w (by simp [split,old]) (skipped w old)
  · intro m inside
    obtain ⟨w,old,rfl⟩ := mem_map.mp inside
    exact zero w (by simp [split,old]) (filterMap_eq_nil_iff.mp rest w old)

theorem seen_none (numeric : Numeric known sheetIndex start stop) (none_ : rangeNumbers known sheetIndex start stop = []) :
    seen (rangeValues known sheetIndex start stop) = [0] := by
  refine seen_empty _ (fun n member => ?_)
  obtain ⟨v,inside,rfl⟩ := mem_map.mp member
  have skipped := filterMap_eq_nil_iff.mp none_ v inside
  rcases numeric v inside with rfl | ⟨m,rfl,_⟩
  · rfl
  · cases skipped

theorem number_value {n : Rat} (member : n ∈ rangeNumbers known sheetIndex start stop) : n ∈ rangeValues known sheetIndex start stop := by
  obtain ⟨v,inside,value⟩ := mem_filterMap.mp member
  refine mem_map.mpr ⟨v,inside,?_⟩
  cases v with
  | number m => exact Option.some.inj value
  | _ => cases value

theorem seen_short (values : List Rat) : (seen values).length ≤ 1 := by
  unfold seen
  split
  · simp
  · cases total values <;> simp

-- All six aggregates of a range are right exactly when the range has one number, and that is
-- written without an exponent.
theorem aggregates_right (evaluates : EvaluatesArithmetic host) (other : Text → Text → List Scalar → Reading Called) (fuel : Nat)
    (numeric : Numeric known sheetIndex start stop) :
    (∀ a : Aggregate, a.Meets (rangeNumbers known sheetIndex start stop)
      ((evaluateFunction host.env (evaluate host other sheetIndex (fuel + 1)) other a.name (rangeName start stop)).run known)) ↔
        ∃ n, rangeNumbers known sheetIndex start stop = [n] ∧ 'e' ∉ Double.text n := by
  have results := run_function evaluates other fuel numeric
  constructor
  · intro right
    have count := right .count
    have counted := Option.some.inj (results .count)
    have same : ((rangeNumbers known sheetIndex start stop).length : Rat) = (seen (rangeValues known sheetIndex start stop)).length := by
      have both := count.symm.trans counted
      simpa [called] using both
    have length : (rangeNumbers known sheetIndex start stop).length = (seen (rangeValues known sheetIndex start stop)).length := by
      exact_mod_cast same
    cases numbers : rangeNumbers known sheetIndex start stop with
    | nil =>
      rw [numbers,seen_none numeric numbers] at length
      cases length
    | cons n rest =>
      have short := seen_short (rangeValues known sheetIndex start stop)
      rw [numbers,length_cons] at length
      have none_ : rest = [] := eq_nil_of_length_eq_zero (by omega)
      refine ⟨n,by rw [none_],fun letter => ?_⟩
      have exponent : ∃ m ∈ rangeValues known sheetIndex start stop, 'e' ∈ Double.text m :=
        ⟨n,number_value (numbers ▸ mem_cons_self),letter⟩
      rw [seen,if_pos exponent] at length
      cases length
  · rintro ⟨n,only,letter⟩ a
    obtain ⟨front,back,shape,before,behind,double⟩ := numbers_shape numeric only
    have found := results a
    rw [shape,seen_one before behind double letter] at found
    rw [only]
    exact aggregate_one double a found

end aggregates

theorem second_row_finite : Double.round (Double.valueOf ['2']) ≠ none := by
  have small := Double.round_int (z := 2) (by norm_num)
  have value : Double.valueOf ['2'] = 2 := rfl
  rw [value]
  simp only [Int.cast_ofNat] at small
  simp [small]

def cellA2 : CellRef where
  letters := ['A']
  digits := ['2']
  lettered := cellA1.lettered
  numbered := ⟨nofun,fun _ member => eq_of_mem_singleton member ▸ rfl⟩
  positive := by decide
  finite := second_row_finite

def bothCells (_ : Position) : Scalar := .number ((3 : Int) : Rat)

def firstCell (p : Position) : Scalar := if p.row = 0 then .number ((3 : Int) : Rat) else .null

theorem aggregates_right_one :
    (∀ a : Aggregate, a.Meets (rangeNumbers firstCell 0 cellA1 cellA2) ((evaluateFunction arithmeticHost.env
      (evaluate arithmeticHost (fun _ _ _ => pure (.notFinite [])) 0 1) (fun _ _ _ => pure (.notFinite [])) a.name (rangeName cellA1 cellA2)).run firstCell)) ↔
        ∃ n, rangeNumbers firstCell 0 cellA1 cellA2 = [n] ∧ 'e' ∉ Double.text n :=
  aggregates_right arithmeticHost_evaluates _ 0 (by
    have double : Double.IsDouble ((3 : Int) : Rat) := Double.round_int (by norm_num)
    intro v member
    obtain ⟨p,_,rfl⟩ := mem_map.mp member
    unfold firstCell
    split
    · exact .inr ⟨_,rfl,double⟩
    · exact .inl rfl)

theorem aggregates_collapse : ¬Aggregate.Meets (rangeNumbers bothCells 0 cellA1 cellA2) ((evaluateFunction arithmeticHost.env
    (evaluate arithmeticHost (fun _ _ _ => pure (.notFinite [])) 0 1) (fun _ _ _ => pure (.notFinite [])) Aggregate.count.name
      (rangeName cellA1 cellA2)).run bothCells) .count := by
  have numeric : Numeric bothCells 0 cellA1 cellA2 := by
    intro v member
    obtain ⟨p,_,rfl⟩ := mem_map.mp member
    exact .inr ⟨_,rfl,Double.round_int (by norm_num)⟩
  have result := Option.some.inj (run_function arithmeticHost_evaluates (fun _ _ _ => pure (.notFinite [])) 0 numeric .count)
  have short := seen_short (rangeValues bothCells 0 cellA1 cellA2)
  have two : (rangeNumbers bothCells 0 cellA1 cellA2).length = 2 := rfl
  intro meets
  have same : ((rangeNumbers bothCells 0 cellA1 cellA2).length : Rat) = (seen (rangeValues bothCells 0 cellA1 cellA2)).length := by
    have both := meets.symm.trans result
    simpa [called] using both
  have length : (rangeNumbers bothCells 0 cellA1 cellA2).length = (seen (rangeValues bothCells 0 cellA1 cellA2)).length := by
    exact_mod_cast same
  omega

end Ownly.Sheets.Formula
