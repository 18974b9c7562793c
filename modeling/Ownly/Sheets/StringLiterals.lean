import Ownly.Sheets.FormulaPasses

-- Which concatenations of string literals evaluateExpression gives back.
namespace Ownly.Sheets.Formula
open Collab (Text)
open Spill (Scalar EvalArray FormulaEvalResult)
open Rewrite
open Option

-- ="s1"&"s2"&…
def literalFormula (strings : List Text) : Text := ['&'].intercalate (strings.map (fun s => '"' :: (s ++ ['"'])))

def placeholders (start : Nat) (strings : List Text) : Text :=
  ['&'].intercalate (strings.mapIdx (fun index _ => marked str (start + index)))

section collecting
variable {strings : List Text} {s : Text}

theorem quotedText_found (plain : '"' ∉ s) (behind : Option Char) (rest : Text) :
    quotedText behind ('"' :: (s ++ ['"']) ++ rest) = some ((s ++ ['"']).length + 1,s) := by
  have taken : (s ++ '"' :: rest).takeWhile (fun c => decide (c ≠ '"')) = s := by
    have inside : ∀ c ∈ s, decide (c ≠ '"') = true := by
      intro c member
      exact decide_eq_true (fun same => plain (same ▸ member))
    rw [List.takeWhile_append_of_pos inside]
    simp
  have here : '"' ∈ s ++ '"' :: rest := by simp
  simp only [List.cons_append,List.append_assoc,List.nil_append,quotedText,if_pos here,taken]
  simp

theorem intercalate_cons (first second : Text) (rest : List Text) :
    ['&'].intercalate (first :: second :: rest) = first ++ '&' :: ['&'].intercalate (second :: rest) := by
  simp [List.intercalate,List.intersperse]

theorem collect_from (plain : ∀ s ∈ strings, '"' ∉ s) (start : List Text) (behind : Option Char) :
    rewrite (m := Id) quotedText (fun strings value => pure (marked str strings.length,strings ++ [value])) start behind 0
      (literalFormula strings) = (placeholders start.length strings,start ++ strings) := by
  induction strings generalizing start behind with
  | nil => simp [literalFormula,placeholders,rewrite]; rfl
  | cons s strings ih =>
    have found := quotedText_found (plain s List.mem_cons_self) behind
    cases strings with
    | nil =>
      have one : literalFormula [s] = '"' :: (s ++ ['"']) ++ [] := by simp [literalFormula]
      rw [one,rewrite_match (found [])]
      simp [rewrite,placeholders]
      rfl
    | cons next strings =>
      have split : literalFormula (s :: next :: strings) = '"' :: (s ++ ['"']) ++ (['&'] ++ literalFormula (next :: strings)) := by
        simp only [literalFormula,List.map_cons,intercalate_cons]
        simp
      have amp : ∀ behind rest, Free quotedText behind ['&'] rest := fun _ _ => ⟨rfl,trivial⟩
      rw [split,rewrite_match (found _)]
      simp only [pure_bind,rewrite_free (amp _ _),ih (fun s member => plain s (List.mem_cons_of_mem _ member))]
      have joined : placeholders start.length (s :: next :: strings) =
          marked str start.length ++ '&' :: placeholders (start.length + 1) (next :: strings) := by
        simp only [placeholders,List.mapIdx_cons,intercalate_cons]
        simp [Nat.add_comm,Nat.add_left_comm]
      rw [joined]
      simp
      rfl

theorem placeholders_two (first second : Text) (rest : List Text) : ∃ tail, placeholders 0 (first :: second :: rest) =
    marked str 0 ++ '&' :: (marked str 1 ++ tail) ∧ (tail = [] ∨ ∃ more, tail = '&' :: more) := by
  cases rest with
  | nil => exact ⟨[],by simp [placeholders],.inl rfl⟩
  | cons third rest =>
    refine ⟨'&' :: placeholders 2 (third :: rest),?_,.inr ⟨_,rfl⟩⟩
    simp only [placeholders,List.mapIdx_cons,intercalate_cons]
    simp [Nat.add_comm,Nat.add_left_comm]

theorem placeholders_chars (start : Nat) (strings : List Text) :
    ∀ c ∈ placeholders start strings, c ∈ ['_','S','T','R','&'] ∨ c.isDigit = true := by
  induction strings generalizing start with
  | nil => simp [placeholders]
  | cons s strings ih =>
    have one : ∀ c ∈ marked str start, c ∈ ['_','S','T','R','&'] ∨ c.isDigit = true := by
      intro c member
      simp only [marked,str,List.mem_cons,List.mem_append,List.not_mem_nil,or_false] at member ⊢
      rcases member with h | h | ((h | h | h) | digit) | h | h
      all_goals first | exact .inr (Nat.isDigit_of_mem_toDigits (by decide) (by decide) digit) | simp [h]
    cases strings with
    | nil => simpa [placeholders] using one
    | cons next strings =>
      have joined : placeholders start (s :: next :: strings) = marked str start ++ '&' :: placeholders (start + 1) (next :: strings) := by
        simp only [placeholders,List.mapIdx_cons,intercalate_cons]
        simp [Nat.add_comm,Nat.add_left_comm]
      intro c member
      rw [joined] at member
      rcases List.mem_append.mp member with front | back
      · exact one c front
      · rcases List.mem_cons.mp back with rfl | later
        · simp
        · exact ih (start + 1) c later

theorem placeholders_lack (sign : Char) (other : sign ∉ ['_','S','T','R','&'] ∧ sign.isDigit = false) (start : Nat) (strings : List Text) :
    sign ∉ placeholders start strings := by
  intro member
  rcases placeholders_chars start strings sign member with known | digit
  · exact other.1 known
  · rw [other.2] at digit
    cases digit

end collecting

def opening : Text := ['_','_','S','T','R','0','_','_','&','_','_']

section refusing
variable {tail : Text} {strings : List Text} {s : Text}

theorem substituted_head (env : Env) (v : Scalar) : (substituted env v).head? ≠ some 'S' := by
  have number : ∀ n, (Double.text n).head? ≠ some 'S' := by
    intro n same
    have member : 'S' ∈ Double.text n := List.mem_of_mem_head? same
    exact absurd (Double.text_chars n 'S' member) (by decide)
  unfold substituted
  split
  · simp
  · exact number _
  · split <;> simp
  · simp
  · split
    · exact number _
    · simp

theorem parse_second : ∃ p, parseCellRef ['S','T','R','1'] = some p := by
  have value : Double.valueOf ['1'] = 1 := rfl
  have finite : Double.round ((1 : ℕ) : ℚ) ≠ none := by
    have small := Double.round_int (z := 1) (by norm_num)
    simp only [Int.cast_one] at small
    simp [small]
  have read : parseCellRef (['S','T','R'] ++ ['1']) = _ := parseCellRef_bare (by simp) (by simp) (by simp) (by simp)
  rw [value,if_neg (not_or.mpr ⟨by decide,finite⟩)] at read
  exact ⟨_,read⟩

theorem opening_substituted (env : Env) (sheetIndex : Nat) (tail : Text) :
    (pass bareRef (fun found => cellText env sheetIndex found found) (marked str 0 ++ '&' :: (marked str 1 ++ tail))).Ensures
      (fun r => ∃ t, r = opening ++ t ∧ t.head? ≠ some 'S') := by
  have split : marked str 0 ++ '&' :: (marked str 1 ++ tail) =
      ['_','_'] ++ ('S' :: ['T','R','0'] ++ (['_','_','&','_','_'] ++ ('S' :: ['T','R','1'] ++ (['_','_'] ++ tail)))) := rfl
  have marks : ∀ behind rest, Free (whole bareRef) behind ['_','_'] rest := fun _ _ => ⟨rfl,rfl,trivial⟩
  have between : ∀ behind rest, Free (whole bareRef) behind ['_','_','&','_','_'] rest := fun _ _ => ⟨rfl,rfl,rfl,rfl,rfl,trivial⟩
  have zero : ∀ behind rest, whole bareRef behind ('S' :: ['T','R','0'] ++ (['_','_','&','_','_'] ++ rest)) = some (3 + 1,['S','T','R','0']) :=
    fun _ _ => rfl
  have one : ∀ behind rest, whole bareRef behind ('S' :: ['T','R','1'] ++ (['_','_'] ++ rest)) = some (3 + 1,['S','T','R','1']) :=
    fun _ _ => rfl
  have unread : parseCellRef ['S','T','R','0'] = none := rfl
  rw [split,pass,rewrite_free (marks _ _),rewrite_match (zero _ _)]
  simp only [cellText,unread,pure_bind,rewrite_free (between _ _),rewrite_match (one _ _),rewrite_free (marks _ _)]
  obtain ⟨p,read⟩ := parse_second
  rw [read]
  simp only [getRawCellValue,Asking.ensures_bind,Asking.ensures_answer,Asking.pure_done,Asking.ensures_done]
  intro v
  refine Asking.ensures_trivial (fun after => ?_) _
  refine ⟨substituted env v ++ (['_','_'] ++ after.1),rfl,?_⟩
  have head := substituted_head env v
  cases same : substituted env v with
  | nil => simp
  | cons c rest => rw [same] at head; exact head

theorem replace_head {find : Pattern Char β} {out : β → Text} (begins : ∀ captured, (out captured).head? ≠ some 'S')
    (head : tail.head? ≠ some 'S') (some_ : ∀ captured, out captured ≠ []) (behind : Option Char) :
    (replace find out behind tail).head? ≠ some 'S' := by
  cases tail with
  | nil => simp [replace,rewrite]
  | cons c tail =>
    unfold replace rewrite
    split
    · rename_i length captured found
      have front := begins captured
      simpa [List.head?_append_of_ne_nil _ (some_ captured)] using front
    · exact head

theorem lowerBooleans_opening (head : tail.head? ≠ some 'S') :
    ∃ t, lowerBooleans (opening ++ tail) = opening ++ t ∧ t.head? ≠ some 'S' := by
  have first : ∀ rest, Free (word trueWord) none opening rest :=
    fun _ => ⟨rfl,rfl,rfl,rfl,rfl,rfl,rfl,rfl,rfl,rfl,rfl,trivial⟩
  have second : ∀ rest, Free (word falseWord) none opening rest :=
    fun _ => ⟨rfl,rfl,rfl,rfl,rfl,rfl,rfl,rfl,rfl,rfl,rfl,trivial⟩
  rw [lowerBooleans,replace_free (first _),replace_free (second _)]
  refine ⟨_,rfl,?_⟩
  exact replace_head (by simp [falseWord]) (replace_head (by simp [trueWord]) head (by simp [trueWord]) _) (by simp [falseWord]) _

theorem restoreStrings_opening (strings : List Text) (head : tail.head? ≠ some 'S') :
    ∃ t, restoreStrings (s :: strings) (opening ++ tail) = '"' :: (s ++ ['"']) ++ '&' :: '_' :: t := by
  have split : opening ++ tail = '_' :: ['_','S','T','R','0','_','_'] ++ (['&','_'] ++ '_' :: tail) := rfl
  have found : ∀ rest, marker str none ('_' :: ['_','S','T','R','0','_','_'] ++ rest) = some (7 + 1,['0']) := fun _ => rfl
  have stuck : after ['_','_','S','T','R'] ('_' :: '_' :: tail) = none := by
    cases tail with
    | nil => rfl
    | cons c tail =>
      have other : 'S' ≠ c := fun same => head (by rw [same]; rfl)
      simp [after,other]
  have free : ∀ behind, Free (marker str) behind ['&','_'] ('_' :: tail) := by
    intro behind
    refine ⟨rfl,?_,trivial⟩
    change (after ['_','_','S','T','R'] ('_' :: '_' :: tail)).bind _ = none
    rw [stuck]
    rfl
  rw [restoreStrings,split,replace_match (found _),replace_free (free _)]
  exact ⟨_,rfl⟩

-- A sign outside of quotes that no evaluation takes.
theorem evaluateText_refused (host : Host) (plain : '"' ∉ s) (t : Text) :
    evaluateText host (concatenation ('"' :: (s ++ ['"']) ++ '&' :: '_' :: t)) = error := by
  have mapped : concatenation ('"' :: (s ++ ['"']) ++ '&' :: '_' :: t) =
      '"' :: (concatenation s ++ ['"']) ++ (['+','_'] ++ concatenation t) := by simp [concatenation]
  have plain' : '"' ∉ concatenation s := by
    intro member
    obtain ⟨c,inside,same⟩ := List.mem_map.mp member
    split at same
    · cases same
    · exact plain (same ▸ inside)
  have quotes : ∀ behind rest, Free quotedText behind ['+','_'] rest := fun _ _ => ⟨rfl,rfl,trivial⟩
  have words : ∀ rest, Free (fun behind text => (word trueWord behind text).or ((word falseWord behind text).or (word nullWord behind text)))
      none ['"','"','+','_'] rest := fun _ => ⟨rfl,rfl,rfl,rfl,trivial⟩
  have kept : ∃ more, sanitized (concatenation ('"' :: (s ++ ['"']) ++ '&' :: '_' :: t)) = ['"','"','+','_'] ++ more := by
    rw [sanitized,mapped,replace_match (quotedText_found plain' none _),replace_free (quotes _ _)]
    have front : ∀ rest, replace (fun behind text => (word trueWord behind text).or ((word falseWord behind text).or (word nullWord behind text)))
        (fun _ => ['0']) none (['"','"','+','_'] ++ rest) = ['"','"','+','_'] ++ _ := fun _ => replace_free (words _)
    exact ⟨_,front _⟩
  obtain ⟨more,same⟩ := kept
  rw [evaluateText,same,if_neg]
  intro all
  have taken := List.all_eq_true.mp all '_' (by simp)
  exact absurd taken (by decide)

theorem refused_opening (host : Host) (plain : '"' ∉ s) (text : Text) (shape : ∃ t, text = opening ++ t ∧ t.head? ≠ some 'S') :
    evaluateText host (concatenation (restoreStrings (s :: strings) (lowerBooleans text))) = error := by
  obtain ⟨t,rfl,head⟩ := shape
  obtain ⟨more,lowered,head'⟩ := lowerBooleans_opening head
  obtain ⟨last,restored⟩ := restoreStrings_opening (s := s) strings head'
  rw [lowered,restored]
  exact evaluateText_refused host plain last

end refusing

section evaluation
variable {strings : List Text} {s : Text}

theorem after_append (lead text : Text) : after lead (lead ++ text) = some text := by
  induction lead with
  | nil => rfl
  | cons c lead ih => simp [after,ih]

theorem literalFormula_ends (some_ : strings ≠ []) :
    ∃ middle, literalFormula strings = '"' :: middle ∧ (literalFormula strings).getLast? = some '"' := by
  induction strings with
  | nil => exact absurd rfl some_
  | cons s strings ih =>
    cases strings with
    | nil =>
      have one : literalFormula [s] = '"' :: (s ++ ['"']) := by simp [literalFormula]
      refine ⟨s ++ ['"'],one,?_⟩
      rw [one,← List.cons_append,List.getLast?_concat]
    | cons next strings =>
      obtain ⟨middle,_,last⟩ := ih (by simp)
      have split : literalFormula (s :: next :: strings) = '"' :: (s ++ ['"']) ++ '&' :: literalFormula (next :: strings) := by
        simp only [literalFormula,List.map_cons,intercalate_cons]
      refine ⟨_,split,?_⟩
      rw [split,List.getLast?_append_of_ne_nil _ (by simp),List.getLast?_cons,last]
      rfl

theorem trim_literalFormula (some_ : strings ≠ []) : trim (literalFormula strings) = literalFormula strings := by
  obtain ⟨middle,front,last⟩ := literalFormula_ends some_
  refine trim_closed _ (fun c first => ?_) (fun c ends => ?_)
  · rw [front] at first
    cases first
    rfl
  · rw [last] at ends
    cases ends
    rfl

theorem soleMarker_long (kind more : Text) (index : Nat) (c : Char) :
    soleMarker kind (marked kind index ++ c :: more) = none := by
  have front : after ('_' :: '_' :: kind) (marked kind index ++ c :: more) = some (Nat.toDigits 10 index ++ '_' :: '_' :: c :: more) := by
    have whole : marked kind index ++ c :: more = '_' :: '_' :: kind ++ (Nat.toDigits 10 index ++ '_' :: '_' :: c :: more) := by
      simp [marked]
    rw [whole]
    exact after_append _ _
  have run : (Nat.toDigits 10 index ++ '_' :: '_' :: c :: more).takeWhile Char.isDigit = Nat.toDigits 10 index ∧
      (Nat.toDigits 10 index ++ '_' :: '_' :: c :: more).dropWhile Char.isDigit = '_' :: '_' :: c :: more :=
    Double.takeWhile_digits (fun c member => Nat.isDigit_of_mem_toDigits (by decide) (by decide) member) (by simp)
  have long : marker kind none (marked kind index ++ c :: more) =
      some ((Nat.toDigits 10 index).length + kind.length + 4,Nat.toDigits 10 index) := by
    unfold marker
    rw [front,bind_some,run.1,run.2,if_neg Nat.toDigits_ne_nil]
    rfl
  rw [soleMarker,long]
  have less : (Nat.toDigits 10 index).length + kind.length + 4 ≠ (marked kind index ++ c :: more).length := by
    simp [marked]
    omega
  simp only [Option.filter,decide_eq_false less]
  rfl

theorem literals_refused (host : Host) (call : Text → Text → Reading Called) (sheetIndex : Nat)
    (first second : Text) (rest : List Text) (plain : ∀ s ∈ first :: second :: rest, '"' ∉ s) :
    (evaluateExpression host call sheetIndex (literalFormula (first :: second :: rest))).Ensures (· = error) := by
  obtain ⟨tail,split,after_⟩ := placeholders_two first second rest
  obtain ⟨middle,front,_⟩ := literalFormula_ends (List.cons_ne_nil first (second :: rest))
  have collected : collectStrings (literalFormula (first :: second :: rest)) =
      (placeholders 0 (first :: second :: rest),first :: second :: rest) := collect_from plain [] none
  have sole : soleMarker str (placeholders 0 (first :: second :: rest)) = none := by
    rw [split]
    exact soleMarker_long str _ 0 '&'
  have noCall : Free functionCall none (placeholders 0 (first :: second :: rest)) [] :=
    free_sign _ '(' functionCall_needs (placeholders_lack '(' (by decide) _ _)
  have noArray : soleMarker arr (trim (placeholders 0 (first :: second :: rest))) = none := by
    have shut : ∀ c ∈ (placeholders 0 (first :: second :: rest)).getLast?, isSpace c = false := by
      intro c ends
      rcases placeholders_chars 0 _ c (List.mem_of_mem_getLast? ends) with known | digit
      · revert known
        simp only [List.mem_cons,List.not_mem_nil,or_false]
        rintro (rfl | rfl | rfl | rfl | rfl) <;> decide
      · exact isSpace_digit digit
    rw [trim_closed _ (by rw [split]; intro c first; cases first; rfl) shut,split]
    rfl
  have quote : literalFormula (first :: second :: rest) ≠ [] := by simp [front]
  have notTrue : (literalFormula (first :: second :: rest)).map Char.toLower ≠ trueWord := by rw [front]; intro same; cases same
  have notFalse : (literalFormula (first :: second :: rest)).map Char.toLower ≠ falseWord := by rw [front]; intro same; cases same
  unfold evaluateExpression
  rw [trim_literalFormula (by simp)]
  simp only [if_neg quote,if_neg notTrue,if_neg notFalse,collected,sole,bind_none]
  rw [rewrite_none noCall]
  simp only [Asking.pure_done,Asking.done_bind,noArray]
  rw [substituteReferences_plain host sheetIndex (placeholders_lack '!' (by decide) _ _) (placeholders_lack ':' (by decide) _ _),split]
  have opened := opening_substituted host.env sheetIndex tail
  simp only [Asking.ensures_bind,Asking.ensures_done]
  exact opened.mono (refused_opening host (plain first List.mem_cons_self))

theorem literal_kept (host : Host) (call : Text → Text → Reading Called) (sheetIndex : Nat) (plain : '"' ∉ s) :
    evaluateExpression host call sheetIndex (literalFormula [s]) = pure (.scalar (.text s)) := by
  obtain ⟨middle,front,_⟩ := literalFormula_ends (List.cons_ne_nil s [])
  have collected : collectStrings (literalFormula [s]) = (placeholders 0 [s],[s]) := collect_from (by simpa using plain) [] none
  have sole : soleMarker str (placeholders 0 [s]) = some 0 := rfl
  have quote : literalFormula [s] ≠ [] := by simp [front]
  have notTrue : (literalFormula [s]).map Char.toLower ≠ trueWord := by rw [front]; intro same; cases same
  have notFalse : (literalFormula [s]).map Char.toLower ≠ falseWord := by rw [front]; intro same; cases same
  unfold evaluateExpression
  rw [trim_literalFormula (by simp)]
  simp only [if_neg quote,if_neg notTrue,if_neg notFalse,collected,sole,bind_some,List.getElem?_cons_zero]

-- Whatever the cells of the sheet hold, the literals come out as they went in exactly when
-- there is one of them, or when they read as the error that two and more of them give.
theorem literals_survive (host : Host) (call : Text → Text → Reading Called) (sheetIndex : Nat) (strings : List Text)
    (some_ : strings ≠ []) (plain : ∀ s ∈ strings, '"' ∉ s) :
    (evaluateExpression host call sheetIndex (literalFormula strings)).Ensures
      (fun r => r = .scalar (.text strings.flatten) ↔ strings.length = 1 ∨ strings.flatten = textOf "#ERROR!") := by
  match strings,some_ with
  | [s],_ =>
    rw [literal_kept host call sheetIndex (plain s List.mem_cons_self)]
    simp
  | first :: second :: rest,_ =>
    refine (literals_refused host call sheetIndex first second rest plain).mono ?_
    rintro r rfl
    simp [error,eq_comm]

theorem literals_survive_one : (evaluateExpression arithmeticHost (fun _ _ => pure (.notFinite [])) 0 (literalFormula [['A','1']])).Ensures
    (fun r => r = .scalar (.text ['A','1']) ↔ [['A','1']].length = 1 ∨ [['A','1']].flatten = textOf "#ERROR!") :=
  literals_survive arithmeticHost _ 0 [['A','1']] (by simp) (by simp)

theorem literals_lost : (evaluateExpression arithmeticHost (fun _ _ => pure (.notFinite [])) 0 (literalFormula [['a'],['b']])).run
    (fun _ => .null) ≠ .scalar (.text [['a'],['b']].flatten) := by
  have refused := literals_refused arithmeticHost (fun _ _ => pure (.notFinite [])) 0 ['a'] ['b'] [] (by simp)
  rw [refused.run]
  simp [error,textOf]

end evaluation

end Ownly.Sheets.Formula
