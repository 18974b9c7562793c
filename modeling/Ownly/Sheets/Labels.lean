import Ownly.Lib.Doubles
import Ownly.Sheets.WorkbookOps

-- lib/spreadsheet/cells.ts: the letters of a column as a number of JavaScript, and cell labels.
-- The other functions stay among the integers that a number holds, and are taken from there.
namespace Ownly.Sheets.Labels
open Collab (Text)
open List

-- None is a number that is not finite.
abbrev Number := Option Rat

def nextColumn (col : Number) (c : Char) : Number :=
  Double.numbers.add (Double.numbers.mul col (some 26)) (some (c.toNat - 64 : ℕ))

def isUpper (c : Char) : Bool := decide ('A' ≤ c ∧ c ≤ 'Z')

-- Of letters that `toUpperCase` takes one by one.
def columnLettersToIndex (letters : Text) : Option Number :=
  let normalized := (letters.filter (fun c => decide (c ≠ '$'))).map Char.toUpper
  if normalized ≠ [] ∧ normalized.all isUpper then
    some (Double.numbers.sub (normalized.foldl nextColumn (some 0)) (some 1))
  else none

def cellAddressLabel (row col : Nat) : Text := columnIndexToLetters col ++ Nat.toDigits 10 (row + 1)

-- The number of a word in base 26 with the digits 1 to 26.
def wordValue (word : Text) : Nat := word.foldl (fun value c => value * 26 + ((if 'a' ≤ c then c.toNat - 32 else c.toNat) - 64)) 0

variable {word : Text} {c : Char} {n : Nat}

theorem isUpper_iff : isUpper c = true ↔ 65 ≤ c.toNat ∧ c.toNat ≤ 90 := by
  simp [isUpper,Char.le_def,UInt32.le_iff_toNat_le]

theorem wordValue_append (upper : isUpper c = true) : wordValue (word ++ [c]) = wordValue word * 26 + (c.toNat - 64) := by
  have small : ¬ 'a' ≤ c := by
    simp only [isUpper_iff,Char.le_def,UInt32.le_iff_toNat_le] at upper ⊢
    exact fun lower => by have := upper.2.trans_lt' lower; simp at this
  simp [wordValue,small]

theorem wordValue_pos (some_ : word ≠ []) (upper : ∀ c ∈ word, isUpper c = true) : 0 < wordValue word := by
  obtain ⟨word,c,rfl⟩ := (eq_nil_or_concat word).resolve_left some_
  have last := upper c (by simp)
  have least := (isUpper_iff.mp last).1
  rw [concat_eq_append,wordValue_append last]
  omega

theorem columnIndexToLetters_word (some_ : word ≠ []) (upper : ∀ c ∈ word, isUpper c = true) :
    columnIndexToLetters (wordValue word - 1) = word := by
  induction word using reverseRecOn with
  | nil => exact absurd rfl some_
  | append_singleton word c ih =>
    obtain ⟨least,most⟩ := isUpper_iff.mp (upper c (by simp))
    have before : ∀ c ∈ word, isUpper c = true := fun c member => upper c (by simp [member])
    have last : Char.ofNat (65 + (wordValue word * 26 + (c.toNat - 64) - 1) % 26) = c := by
      rw [show 65 + (wordValue word * 26 + (c.toNat - 64) - 1) % 26 = c.toNat by omega,Char.ofNat_toNat]
    rw [wordValue_append (upper c (by simp)),columnIndexToLetters]
    simp only [last]
    by_cases first : word = []
    · subst first
      rw [if_pos (by simp [wordValue]; omega),nil_append]
    · have positive := wordValue_pos first before
      rw [if_neg (by omega),show (wordValue word * 26 + (c.toNat - 64) - 1) / 26 - 1 = wordValue word - 1 by omega,ih first before]

theorem columnIndexToLetters_value (n : Nat) : columnIndexToLetters n ≠ [] ∧ (∀ c ∈ columnIndexToLetters n, isUpper c = true) ∧
    wordValue (columnIndexToLetters n) = n + 1 := by
  have letter : (Char.ofNat (65 + n % 26)).toNat = 65 + n % 26 := by
    rw [Char.toNat_ofNat,if_pos (.inl (by omega))]
  have last : isUpper (Char.ofNat (65 + n % 26)) = true := by
    rw [isUpper_iff,letter]
    omega
  rw [columnIndexToLetters]
  split
  · exact ⟨by simp,by simp [last],by rw [← nil_append [_],wordValue_append last,letter]; simp [wordValue]; omega⟩
  · obtain ⟨-,upper,value⟩ := columnIndexToLetters_value (n / 26 - 1)
    refine ⟨by simp,fun c member => ?_,by rw [wordValue_append last,value,letter]; omega⟩
    rcases mem_append.mp member with old | new
    · exact upper c old
    · exact mem_singleton.mp new ▸ last

theorem round_nat (small : n < 2^53) : Double.round n = some (n : Rat) := by
  simpa using Double.round_int (z := n) (by rw [Nat.abs_cast]; exact_mod_cast small)

theorem letters_number (upper : ∀ c ∈ word, isUpper c = true) (small : wordValue word < 2^53) :
    word.foldl nextColumn (some 0) = some (wordValue word : Rat) := by
  induction word using reverseRecOn with
  | nil => rfl
  | append_singleton word c ih =>
    rw [wordValue_append (upper c (by simp))] at small ⊢
    have scaled := round_nat (n := wordValue word * 26) (by omega)
    have summed := round_nat small
    push_cast at scaled summed
    simp [ih (fun c member => upper c (by simp [member])) (by omega),nextColumn,Double.numbers,scaled,summed]

theorem columnLettersToIndex_word (some_ : word ≠ []) (upper : ∀ c ∈ word, isUpper c = true) (small : wordValue word < 2^53) :
    columnLettersToIndex word = some (some ((wordValue word - 1 : ℕ) : Rat)) := by
  have positive := wordValue_pos some_ upper
  have bare : word.filter (fun c => decide (c ≠ '$')) = word := filter_eq_self.mpr (fun c member => decide_eq_true (by
    rintro rfl
    exact absurd (upper _ member) (by decide)))
  have same : word.map Char.toUpper = word := (map_congr_left (g := id) (fun c member => by
    have most := (isUpper_iff.mp (upper c member)).2
    simp only [Char.toUpper,UInt32.le_iff_toNat_le]
    exact dif_neg (fun lower => by have := lower.1; simp at this; omega))).trans (map_id word)
  have index := round_nat (n := wordValue word - 1) (by omega)
  rw [Nat.cast_sub positive,Nat.cast_one] at index
  rw [columnLettersToIndex,bare,same,if_pos ⟨some_,all_eq_true.mpr upper⟩,letters_number upper small,Nat.cast_sub positive]
  simp [Double.numbers,index]

-- A plain character stands neither among the blanks nor for a dollar.
def Plain (text : Text) : Prop := ∀ c ∈ text, 48 ≤ c.toNat ∧ c.toNat ≤ 90

theorem Plain.trim {text : Text} (plain : Plain text) : trim text = text := by
  have blank (c : Char) (member : c ∈ text) : isSpace c = false := by
    have bounds := plain c member
    have far : ∀ c ∈ ['\t','\n','\u000b','\u000c','\r',' ','\u00a0','\u1680','\u2028','\u2029','\u202f','\u205f','\u3000','\ufeff'],
      c.toNat < 48 ∨ 90 < c.toNat := by simp
    rw [isSpace,Bool.or_eq_false_iff]
    constructor
    · exact Bool.eq_false_iff.mpr (fun inside => by have := far c (contains_iff_mem.mp inside); omega)
    · simp
      omega
  have kept (text : Text) (none_ : ∀ c ∈ text, isSpace c = false) : text.dropWhile isSpace = text := by
    cases text <;> simp_all
  rw [Sheets.trim,kept text blank,kept _ (fun c member => blank c (mem_reverse.mp member)),reverse_reverse]

theorem Plain.withoutDollar {text : Text} (plain : Plain text) : withoutDollar text = text := by
  unfold Sheets.withoutDollar
  split
  · exact absurd (plain '$' mem_cons_self).1 (by decide)
  · rfl

theorem parseCellAddressLabel_label (row col : Nat) : parseCellAddressLabel (cellAddressLabel row col) = some (row,col) := by
  obtain ⟨some_,upper,value⟩ := columnIndexToLetters_value col
  have digits (c : Char) (member : c ∈ Nat.toDigits 10 (row + 1)) : 48 ≤ c.toNat ∧ c.toNat ≤ 57 := by
    simpa [Char.isDigit,UInt32.le_iff_toNat_le] using Nat.isDigit_of_mem_toDigits (by decide) (by decide) member
  have plain : Plain (cellAddressLabel row col) := by
    intro c member
    rcases mem_append.mp member with letter | digit
    · have := isUpper_iff.mp (upper c letter)
      omega
    · have := digits c digit
      omega
  have letters (c : Char) (member : c ∈ columnIndexToLetters col) : isLetter c = true := by
    simp only [isLetter,Bool.or_eq_true,Bool.and_eq_true]
    exact .inl (by simpa [isUpper] using upper c member)
  have stop (c : Char) (member : c ∈ Nat.toDigits 10 (row + 1)) : isLetter c = false := by
    have := digits c member
    simp [isLetter,Char.le_def,UInt32.le_iff_toNat_le]
    omega
  have numeral : (Nat.toDigits 10 (row + 1)).all isDigit = true := all_eq_true.mpr (fun c member => by
    simpa [isDigit,Char.le_def,UInt32.le_iff_toNat_le] using digits c member)
  have full : Nat.toDigits 10 (row + 1) ≠ [] := length_pos_iff.mp Nat.length_toDigits_pos
  obtain ⟨d,more,split⟩ := exists_cons_of_ne_nil full
  have taken : (cellAddressLabel row col).takeWhile isLetter = columnIndexToLetters col := by
    rw [cellAddressLabel,takeWhile_append_of_pos letters,split,takeWhile_cons_of_neg (by simp [stop d (split ▸ mem_cons_self)]),append_nil]
  have left_ : (cellAddressLabel row col).dropWhile isLetter = Nat.toDigits 10 (row + 1) := by
    rw [cellAddressLabel,dropWhile_append_of_pos letters,split,dropWhile_cons_of_neg (by simp [stop d (split ▸ mem_cons_self)])]
  have bare : withoutDollar (Nat.toDigits 10 (row + 1)) = Nat.toDigits 10 (row + 1) :=
    Plain.withoutDollar (fun c member => plain c (mem_append_right _ member))
  have number : (Nat.toDigits 10 (row + 1)).foldl (fun row c => row * 10 + (c.toNat - 48)) 0 = row + 1 := by
    simpa [Nat.ofDigitChars,Nat.mul_comm] using Nat.ofDigitChars_ten_toDigits (n := row + 1)
  have index : Sheets.columnLettersToIndex (columnIndexToLetters col) = col := congrArg (· - 1) value
  rw [parseCellAddressLabel,plain.trim,plain.withoutDollar]
  simp only [taken,left_,bare,some_,full,numeral,number,index,if_false,if_true,ne_eq,not_false_eq_true,true_and,Nat.succ_ne_zero,
    Nat.add_sub_cancel]

-- Where the numbers are safe integers the labels and the columns are a bijection.
theorem labels_bijective :
    (∀ n : Nat, n + 1 < 2^53 → columnLettersToIndex (columnIndexToLetters n) = some (some (n : Rat))) ∧
    (∀ word : Text, word ≠ [] → (∀ c ∈ word, isUpper c = true) → wordValue word < 2^53 →
      ∃ index : Nat, columnLettersToIndex word = some (some (index : Rat)) ∧ columnIndexToLetters index = word) ∧
    ∀ row col : Nat, row + 1 < 2^53 → col + 1 < 2^53 → parseCellAddressLabel (cellAddressLabel row col) = some (row,col) := by
  refine ⟨fun n small => ?_,fun word some_ upper small => ?_,fun row col _ _ => parseCellAddressLabel_label row col⟩
  · obtain ⟨some_,upper,value⟩ := columnIndexToLetters_value n
    rw [columnLettersToIndex_word some_ upper (value.trans_lt small),value,Nat.add_sub_cancel]
  · exact ⟨_,columnLettersToIndex_word some_ upper small,columnIndexToLetters_word some_ upper⟩

-- The numbers of two words differ by one, and round alike.
theorem twelve_letters : ¬∃ toLetters : Number → Text, ∀ word : Text, word ≠ [] → (∀ c ∈ word, isUpper c = true) →
    (columnLettersToIndex word).map toLetters = some word := by
  rintro ⟨toLetters,inverse⟩
  have first := inverse ('C' :: List.replicate 10 'A' ++ ['A']) (by simp) (by simp [isUpper])
  have second := inverse ('C' :: List.replicate 10 'A' ++ ['B']) (by simp) (by simp [isUpper])
  have same : columnLettersToIndex ('C' :: List.replicate 10 'A' ++ ['A']) = columnLettersToIndex ('C' :: List.replicate 10 'A' ++ ['B']) := by
    decide +kernel
  rw [same,second] at first
  simp at first

end Ownly.Sheets.Labels
