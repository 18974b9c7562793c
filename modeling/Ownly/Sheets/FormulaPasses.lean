import Ownly.Sheets.Formula

-- What the passes of evaluateExpression leave alone, and how a reference is read.
namespace Ownly.Sheets.Formula
open Collab (Text)
open Rewrite
open List

section passes
variable {find : Text → Option Text} {out : Text → Reading Text} {ref : Text → Option Text} {text tail name : Text} {c : Char}

theorem trim_closed (text : Text) (head : ∀ c ∈ text.head?, isSpace c = false) (last : ∀ c ∈ text.getLast?, isSpace c = false) :
    trim text = text := by
  have front : text.dropWhile isSpace = text := by
    cases text with
    | nil => rfl
    | cons c text => exact dropWhile_cons_of_neg (by simp [head c rfl])
  have back : text.reverse.dropWhile isSpace = text.reverse := by
    cases same : text.reverse with
    | nil => rfl
    | cons c rest =>
      have ends : text.getLast? = some c := by rw [← head?_reverse,same]; rfl
      exact dropWhile_cons_of_neg (by simp [last c ends])
  rw [trim,front,back,reverse_reverse]

theorem pass_none (free : Free (whole find) none text []) : pass find out text = pure text := by
  rw [pass,rewrite_none free]
  rfl

theorem qualified_needs (found : qualified ref text ≠ none) : '!' ∈ text := by
  by_contra absent
  apply found
  unfold qualified
  cases sheetPart text with
  | none => rfl
  | some name =>
    simp only [Option.bind_some]
    split
    · rename_i rest same
      exact absurd (mem_of_mem_drop (same ▸ mem_cons_self)) absent
    · rfl

theorem rangeOf_needs (found : rangeOf ref text ≠ none) : ':' ∈ text := by
  by_contra absent
  apply found
  unfold rangeOf
  cases ref text with
  | none => rfl
  | some start =>
    simp only [Option.bind_some]
    split
    · rename_i rest same
      exact absurd (mem_of_mem_drop (same ▸ mem_cons_self)) absent
    · rfl

theorem free_sign (find : Pattern Char β) (sign : Char) (needs : ∀ behind text, find behind text ≠ none → sign ∈ text)
    (absent : sign ∉ text) : Free find none text [] :=
  free_needs (fun text => sign ∈ text) needs
    (fun _ suffix member => absent (by simpa using suffix.subset member)) none

theorem pass_sign (sign : Char) (needs : ∀ text, find text ≠ none → sign ∈ text) (absent : sign ∉ text) :
    pass find out text = pure text :=
  pass_none (free_sign _ sign (fun _ text found => needs text (fun none_ => found (by rw [whole,none_]; rfl))) absent)

theorem functionCall_needs (behind : Option Char) (text : Text) (found : functionCall behind text ≠ none) : '(' ∈ text := by
  by_contra absent
  apply found
  unfold functionCall
  split
  · split
    · rename_i rest same
      exact absurd ((dropWhile_sublist _).subset (same ▸ mem_cons_self)) absent
    · rfl
  · rfl

theorem argumentsOf_plain (plain : ∀ c ∈ text, c ≠ '(' ∧ c ≠ ')') (inside : Bool) (rest : Text) :
    argumentsOf inside (text ++ rest) = (argumentsOf inside rest).map (text ++ ·) := by
  induction text with
  | nil => simp
  | cons c text ih =>
    obtain ⟨open_,close⟩ := plain c mem_cons_self
    have step : argumentsOf inside (c :: (text ++ rest)) = (argumentsOf inside (text ++ rest)).map (c :: ·) := by
      cases inside <;> simp [argumentsOf,open_,close]
    rw [cons_append,step,ih (fun d member => plain d (mem_cons_of_mem _ member)),Option.map_map]
    rfl

theorem substituteReferences_plain (host : Host) (sheetIndex : Nat) (bang : '!' ∉ text) (colon : ':' ∉ text) :
    substituteReferences host sheetIndex text = pass bareRef (fun found => cellText host.env sheetIndex found found) text := by
  unfold substituteReferences
  rw [pass_sign '!' (fun _ => qualified_needs) bang]
  simp only [Asking.pure_done,Asking.done_bind]
  rw [pass_sign ':' (fun _ => rangeOf_needs) colon]
  simp only [Asking.pure_done,Asking.done_bind]
  rw [pass_sign '!' (fun _ => qualified_needs) bang]
  rfl

end passes

section references
variable {letters digits rest : Text} {c : Char}

theorem isSpace_printable (low : 33 ≤ c.toNat) (high : c.toNat < 127) : isSpace c = false := by
  cases space : isSpace c with
  | false => rfl
  | true =>
    simp only [isSpace,Bool.or_eq_true,Bool.and_eq_true,decide_eq_true_eq,contains_eq_mem,mem_cons,
      not_mem_nil,or_false] at space
    rcases space with listed | ranged
    · rcases listed with h | h | h | h | h | h | h | h | h | h | h | h | h | h
      all_goals rw [h] at low high; revert low high; decide
    · omega

theorem isSpace_alpha (alphabetic : c.isAlpha = true) : isSpace c = false := by
  have same : c.toNat = c.val.toNat := rfl
  simp only [Char.isAlpha,Char.isUpper,Char.isLower,Bool.or_eq_true,Bool.and_eq_true,decide_eq_true_eq,UInt32.le_iff_toNat_le] at alphabetic
  simp at alphabetic
  exact isSpace_printable (by omega) (by omega)

theorem isSpace_digit (numeral : c.isDigit = true) : isSpace c = false := by
  have same : c.toNat = c.val.toNat := rfl
  simp only [Char.isDigit,Bool.and_eq_true,decide_eq_true_eq,UInt32.le_iff_toNat_le] at numeral
  simp at numeral
  exact isSpace_printable (by omega) (by omega)

theorem alpha_digit (numeral : c.isDigit = true) : c.isAlpha = false := by
  simp only [Char.isDigit,Bool.and_eq_true,decide_eq_true_eq,UInt32.le_iff_toNat_le] at numeral
  simp only [Char.isAlpha,Char.isUpper,Char.isLower,Bool.or_eq_false_iff,Bool.and_eq_false_iff,decide_eq_false_iff_not,UInt32.le_iff_toNat_le]
  simp at numeral ⊢
  omega

theorem letters_taken (alphabetic : ∀ c ∈ letters, c.isAlpha = true) (stop : ∀ c ∈ rest.head?, c.isAlpha = false) :
    (letters ++ rest).takeWhile Char.isAlpha = letters ∧ (letters ++ rest).dropWhile Char.isAlpha = rest := by
  rw [takeWhile_append_of_pos alphabetic,dropWhile_append_of_pos alphabetic]
  cases rest with
  | nil => simp
  | cons c rest => simp [stop c rfl]

theorem withoutDollar_other (other : ∀ c ∈ digits.head?, c ≠ '$') : withoutDollar digits = digits := by
  unfold withoutDollar
  split
  · rename_i rest
    exact absurd rfl (other '$' rfl)
  · rfl

section
variable (some_ : letters ≠ []) (alphabetic : ∀ c ∈ letters, c.isAlpha = true) (more : digits ≠ [])
include some_ alphabetic more

theorem parseCellRef_bare
    (numerals : ∀ c ∈ digits, c.isDigit = true) :
    parseCellRef (letters ++ digits) = if Double.valueOf digits = 0 ∨ Double.round (Double.valueOf digits) = none then none
      else some (Double.valueOf digits - 1,columnLettersToIndex letters) := by
  have head : ∀ c ∈ (letters ++ digits).head?, c.isAlpha = true := by
    intro c first
    rw [head?_append_of_ne_nil _ some_] at first
    exact alphabetic c (mem_of_mem_head? first)
  have trimmed : trim (letters ++ digits) = letters ++ digits := by
    refine trim_closed _ (fun c first => isSpace_alpha (head c first)) (fun c last => ?_)
    rw [getLast?_append_of_ne_nil _ more] at last
    exact isSpace_digit (numerals c (mem_of_mem_getLast? last))
  have plain : withoutDollar (letters ++ digits) = letters ++ digits :=
    withoutDollar_other (fun c first same => by rw [same] at first; exact absurd (head _ first) (by decide))
  have bare : withoutDollar digits = digits :=
    withoutDollar_other (fun c first same => by
      rw [same] at first
      exact absurd (numerals _ (mem_of_mem_head? first)) (by decide))
  obtain ⟨taken,dropped⟩ := letters_taken alphabetic (fun c first => alpha_digit (numerals c (mem_of_mem_head? first)))
  unfold parseCellRef
  simp only [trimmed,plain,taken,dropped,bare]
  rw [if_neg]
  rintro (none_ | none_ | not_)
  · exact some_ none_
  · exact more none_
  · exact not_ (all_eq_true.mpr numerals)

theorem bareRef_found
    (numerals : ∀ c ∈ digits, c.isDigit = true) (stop : ∀ c ∈ rest.head?, c.isDigit = false) :
    bareRef (letters ++ (digits ++ rest)) = some (letters ++ digits) := by
  have head : ∀ c ∈ (digits ++ rest).head?, c.isAlpha = false := by
    intro c first
    rw [head?_append_of_ne_nil _ more] at first
    exact alpha_digit (numerals c (mem_of_mem_head? first))
  obtain ⟨taken,dropped⟩ := letters_taken alphabetic head
  obtain ⟨run,_⟩ := Double.takeWhile_digits numerals stop
  unfold bareRef
  simp only [taken,dropped,run]
  rw [if_neg (by simp [some_,more])]

end

end references

section direct
variable {text : Text} {c : Char} {strings : List Text}

theorem toLower_digit (numeral : c.isDigit = true) : c.toLower = c := by
  have other := alpha_digit numeral
  simp only [Char.isAlpha,Bool.or_eq_false_iff] at other
  exact Char.toLower_eq_of_not_isUpper (by simp [other.1])

theorem soleMarker_other (kind : Text) (mark : '_' ∉ text) : soleMarker kind text = none := by
  cases text with
  | nil => rfl
  | cons c text =>
    have other : '_' ≠ c := fun same => mark (same ▸ mem_cons_self)
    simp [soleMarker,marker,after,other]

theorem evaluateExpression_calls (host : Host) (call : Text → Text → Reading Called) (sheetIndex : Nat)
    (closed : trim text = text) (sign : ∃ c ∈ text, c.isAlpha = false) (quote : '"' ∉ text) :
    evaluateExpression host call sheetIndex text = (do
      let (expr,arrayResults) ← rewrite functionCall (callFunction call []) [] none 0 text
      match soleMarker arr (trim expr) with
      | some index => pure (((arrayResults[index]?).map .array).getD (.scalar .null))
      | none => do
        let expr ← substituteReferences host sheetIndex expr
        pure (evaluateText host (concatenation (restoreStrings [] (lowerBooleans expr))))) := by
  obtain ⟨d,inside,other⟩ := sign
  have some_ : text ≠ [] := ne_nil_of_mem inside
  have small : d.toLower = d := by
    simp only [Char.isAlpha,Bool.or_eq_false_iff] at other
    exact Char.toLower_eq_of_not_isUpper (by simp [other.1])
  have notWord : ∀ w : Text, (∀ c ∈ w, c.isAlpha = true) → text.map Char.toLower ≠ w := by
    intro w letters same
    have alphabetic := letters d (same ▸ mem_map.mpr ⟨d,inside,small⟩)
    rw [other] at alphabetic
    cases alphabetic
  have noStrings : collectStrings text = (text,[]) := by
    have absent : Free quotedText none text [] :=
      free_class (· = '"') (fun _ c rest found => by by_contra other; exact found (by simp [quotedText,other]))
        (fun c member same => quote (same ▸ member)) _ _
    rw [collectStrings,rewrite_none absent]
    rfl
  have none_ : (soleMarker str text).bind (fun index => ([] : List Text)[index]?) = none := by
    cases soleMarker str text <;> rfl
  unfold evaluateExpression
  simp only [closed,if_neg some_,if_neg (notWord trueWord (by simp [trueWord])),if_neg (notWord falseWord (by simp [falseWord])),
    noStrings,none_]
  try rfl

theorem evaluateExpression_direct (host : Host) (call : Text → Text → Reading Called) (sheetIndex : Nat)
    (closed : trim text = text) (digit : ∃ c ∈ text, c.isDigit = true) (quote : '"' ∉ text) (mark : '_' ∉ text)
    (free : Free functionCall none text []) :
    evaluateExpression host call sheetIndex text = (do
      let expr ← substituteReferences host sheetIndex text
      pure (evaluateText host (concatenation (restoreStrings [] (lowerBooleans expr))))) := by
  obtain ⟨d,inside,numeral⟩ := digit
  rw [evaluateExpression_calls host call sheetIndex closed ⟨d,inside,alpha_digit numeral⟩ quote,rewrite_none free]
  simp only [Asking.pure_done,Asking.done_bind,closed,soleMarker_other arr mark]

-- Texts of arithmetic, with exponents, are left alone by all that comes after the references.
def Arithmetic (c : Char) : Prop := JsArith.Numeral c ∨ c ∈ ['e','+','-','*','(',')']

theorem Arithmetic.plain (sign : Arithmetic c) :
    c ≠ '_' ∧ c ≠ '"' ∧ c ≠ '&' ∧ c ≠ '<' ∧ c ≠ '=' ∧ c.toLower ∉ ['t','f','n'] ∧ (c ≠ 'e' → allowed c = true) := by
  rcases sign with (numeral | rfl) | listed
  · have other : ∀ d : Char, d.isDigit = false → c ≠ d := by
      rintro d not_ rfl
      rw [not_] at numeral
      cases numeral
    refine ⟨other _ rfl,other _ rfl,other _ rfl,other _ rfl,other _ rfl,?_,fun _ => by simp [allowed,numeral]⟩
    rw [toLower_digit numeral]
    simp [other 't' rfl,other 'f' rfl,other 'n' rfl]
  · exact ⟨by decide,by decide,by decide,by decide,by decide,by decide,fun _ => rfl⟩
  · simp only [mem_cons,not_mem_nil,or_false] at listed
    rcases listed with rfl | rfl | rfl | rfl | rfl | rfl
    · exact ⟨by decide,by decide,by decide,by decide,by decide,by decide,fun other => absurd rfl other⟩
    all_goals exact ⟨by decide,by decide,by decide,by decide,by decide,by decide,fun _ => rfl⟩

theorem word_begins {w : Text} {d : Char} (behind : Option Char) (c : Char) (rest : Text)
    (found : word (d :: w) behind (c :: rest) ≠ none) : c.toLower = d := by
  by_contra other
  exact found (by simp [word,matchesWord,Ne.symm other])

theorem free_word {w : Text} {d : Char} (listed : d ∈ ['t','f','n']) (signs : ∀ c ∈ text, Arithmetic c) :
    Free (word (d :: w)) none text [] :=
  free_class _ word_begins (fun c member same => (signs c member).plain.2.2.2.2.2.1 (same ▸ listed)) _ _

theorem sanitized_arithmetic (signs : ∀ c ∈ text, Arithmetic c) : sanitized text = text := by
  have quotes : Free quotedText none text [] :=
    free_class (· = '"') (fun _ c rest found => by by_contra other; exact found (by simp [quotedText,other]))
      (fun c member => (signs c member).plain.2.1) _ _
  rw [sanitized,replace_none quotes]
  refine replace_none (free_class (fun c => c.toLower ∈ ['t','f','n']) (fun behind c rest found => ?_)
    (fun c member => (signs c member).plain.2.2.2.2.2.1) _ _)
  by_contra other
  apply found
  have none_ : ∀ d w, d ∈ ['t','f','n'] → word (d :: w) behind (c :: rest) = none := by
    intro d w listed
    by_contra some_
    exact other (word_begins behind c rest some_ ▸ listed)
  simp [trueWord,falseWord,nullWord,none_]

theorem jsExpr_arithmetic (signs : ∀ c ∈ text, Arithmetic c) : jsExpr text = text := by
  have unequal : '=' ∉ text := fun member => (signs _ member).plain.2.2.2.2.1 rfl
  have less : Free (fun _ text => (after ['<','>'] text).map (fun _ => (2,()))) none text [] := by
    refine free_class (· = '<') (fun _ c rest found => ?_) (fun c member => (signs c member).plain.2.2.2.1) _ _
    by_contra other
    exact found (by simp [after,Ne.symm other])
  have lone : Free loneEquals none text [] := by
    refine free_sign _ '=' (fun behind text found => ?_) unequal
    by_contra absent
    apply found
    unfold loneEquals
    split
    · simp at absent
    · rfl
  rw [jsExpr,replace_none less,replace_none lone]
  unfold leadingEquals
  split
  · simp at unequal
  · rfl

theorem restoreStrings_none (mark : '_' ∉ text) : restoreStrings strings text = text := by
  refine replace_none (free_class (· = '_') (fun _ c rest found => ?_) (fun c member same => mark (same ▸ member)) _ _)
  by_contra other
  exact found (by simp [marker,after,Ne.symm other])

theorem evaluateText_arithmetic (host : Host) (strings : List Text) (signs : ∀ c ∈ text, Arithmetic c) :
    evaluateText host (concatenation (restoreStrings strings (lowerBooleans text))) =
      if 'e' ∈ text then error else ofJs (host.evaluateJs text) := by
  have lowered : lowerBooleans text = text := by
    have first : Free (word trueWord) none text [] := free_word (by simp) signs
    have second : Free (word falseWord) none text [] := free_word (by simp) signs
    rw [lowerBooleans,replace_none first,replace_none second]
  have restored : restoreStrings strings text = text := restoreStrings_none (fun member => (signs _ member).plain.1 rfl)
  have joined : concatenation text = text := by
    refine (map_congr_left (fun c member => ?_)).trans (map_id _)
    simp [(signs c member).plain.2.2.1]
  rw [lowered,restored,joined,evaluateText,sanitized_arithmetic signs,jsExpr_arithmetic signs]
  by_cases letter : 'e' ∈ text
  · rw [if_pos letter,if_neg]
    intro all
    exact absurd (all_eq_true.mp all 'e' letter) (by decide)
  · rw [if_neg letter,if_pos]
    exact all_eq_true.mpr (fun c member => (signs c member).plain.2.2.2.2.2.2 (fun same => letter (same ▸ member)))

end direct

end Ownly.Sheets.Formula
