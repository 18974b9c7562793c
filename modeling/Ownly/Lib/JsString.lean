import Mathlib

-- Strings of JavaScript: lists of UTF-16 code units, with what a program reads in them (code
-- points, white space, decimal numbers).
namespace JsString
open List

abbrev Str := List Nat

def unitsOf (code : Nat) : Str :=
  if code < 0x10000 then [code] else [0xD800 + (code - 0x10000) / 0x400,0xDC00 + (code - 0x10000) % 0x400]

def ofChars (text : List Char) : Str := text.flatMap (fun c => unitsOf c.toNat)

def str (text : String) : Str := ofChars text.toList

def High (unit : Nat) : Prop := 0xD800 ≤ unit ∧ unit < 0xDC00

def Low (unit : Nat) : Prop := 0xDC00 ≤ unit ∧ unit < 0xE000

instance (unit : Nat) : Decidable (High unit) := by unfold High; infer_instance

instance (unit : Nat) : Decidable (Low unit) := by unfold Low; infer_instance

-- The code points that an iteration goes through: a surrogate without its other half is one
-- by itself.
def codePoints : Str → List Nat
  | [] => []
  | [unit] => [unit]
  | unit :: next :: rest =>
    if High unit ∧ Low next then (0x10000 + (unit - 0xD800) * 0x400 + (next - 0xDC00)) :: codePoints rest
    else unit :: codePoints (next :: rest)

-- WhiteSpace and LineTerminator
def Blank (unit : Nat) : Prop :=
  unit ∈ [0x20,0xA0,0x1680,0x2028,0x2029,0x202F,0x205F,0x3000,0xFEFF] ∨ 0x9 ≤ unit ∧ unit ≤ 0xD ∨ 0x2000 ≤ unit ∧ unit ≤ 0x200A

instance (unit : Nat) : Decidable (Blank unit) := by unfold Blank; infer_instance

def trimStart (text : Str) : Str := text.dropWhile (fun unit => decide (Blank unit))

def trim (text : Str) : Str := (trimStart text).rdropWhile (fun unit => decide (Blank unit))

def Digit (unit : Nat) : Prop := 48 ≤ unit ∧ unit ≤ 57

def Letter (unit : Nat) : Prop := 65 ≤ unit ∧ unit ≤ 90 ∨ 97 ≤ unit ∧ unit ≤ 122

instance (unit : Nat) : Decidable (Digit unit) := by unfold Digit; infer_instance

instance (unit : Nat) : Decidable (Letter unit) := by unfold Letter; infer_instance

-- `toLowerCase` of an ASCII letter
def lower (unit : Nat) : Nat := if 65 ≤ unit ∧ unit ≤ 90 then unit + 32 else unit

def digits (n : Nat) : Str := (Nat.toDigits 10 n).map Char.toNat

def ofDigits (text : Str) : Nat := text.foldl (fun n unit => 10 * n + (unit - 48)) 0

def decimal : Int → Str
  | .ofNat n => digits n
  | .negSucc n => 45 :: digits (n + 1)

def takeDigits (text : Str) : Str := text.takeWhile (fun unit => decide (Digit unit))

def dropDigits (text : Str) : Str := text.dropWhile (fun unit => decide (Digit unit))

section lemmas
variable {text rest : Str} {unit n : Nat}

theorem unitsOf_small (small : n < 0x10000) : unitsOf n = [n] := if_pos small

theorem unitsOf_large (large : 0x10000 ≤ n) :
    unitsOf n = [0xD800 + (n - 0x10000) / 0x400,0xDC00 + (n - 0x10000) % 0x400] := if_neg (by omega)

theorem codePoints_cons (plain : ¬High unit) : codePoints (unit :: rest) = unit :: codePoints rest := by
  cases rest with
  | nil => rfl
  | cons next rest => simp [codePoints,plain]

theorem codePoints_units {code : Nat} (scalar : code < 0xD800 ∨ 0xE000 ≤ code) (valid : code < 0x110000) :
    codePoints (unitsOf code ++ rest) = code :: codePoints rest := by
  by_cases small : code < 0x10000
  · have plain : ¬High code := by unfold High; omega
    simp [unitsOf_small small,codePoints_cons plain]
  · have high : High (0xD800 + (code - 0x10000) / 0x400) := by unfold High; omega
    have low : Low (0xDC00 + (code - 0x10000) % 0x400) := by unfold Low; omega
    have back : 0x10000 + (code - 0x10000) / 0x400 * 0x400 + (code - 0x10000) % 0x400 = code := by omega
    simp [unitsOf_large (by omega : 0x10000 ≤ code),codePoints,high,low,back]

theorem scalar_char (c : Char) : (c.toNat < 0xD800 ∨ 0xE000 ≤ c.toNat) ∧ c.toNat < 0x110000 := by
  rcases c.valid with low | ⟨high,small⟩
  · exact ⟨.inl low,Nat.lt_trans low (by decide)⟩
  · exact ⟨.inr high,small⟩

theorem codePoints_ofChars (text : List Char) : codePoints (ofChars text) = text.map Char.toNat := by
  induction text with
  | nil => rfl
  | cons c text ih =>
    obtain ⟨scalar,valid⟩ := scalar_char c
    rw [ofChars,flatMap_cons,codePoints_units scalar valid]
    exact congrArg (c.toNat :: ·) ih

theorem units_length (n : Nat) : 0 < (unitsOf n).length := by
  unfold unitsOf
  split <;> simp

theorem ofChars_length (text : List Char) : text.length ≤ (ofChars text).length := by
  induction text with
  | nil => simp
  | cons c text ih =>
    have one := units_length c.toNat
    simp only [ofChars,flatMap_cons,length_append,length_cons] at ih ⊢
    omega

theorem ofChars_nil {text : List Char} : ofChars text = [] ↔ text = [] := by
  constructor
  · intro none_
    have short := ofChars_length text
    rw [none_] at short
    exact eq_nil_of_length_eq_zero (Nat.le_zero.mp short)
  · rintro rfl
    rfl

theorem digit_of_mem (member : unit ∈ digits n) : Digit unit := by
  obtain ⟨c,inside,rfl⟩ := mem_map.mp member
  have digit := Nat.isDigit_of_mem_toDigits (by decide) (by decide) inside
  simp only [Char.isDigit,Bool.and_eq_true,decide_eq_true_eq] at digit
  exact digit

theorem digits_ne : digits n ≠ [] := by simp [digits,Nat.toDigits_ne_nil]

theorem ofDigits_digits (n : Nat) : ofDigits (digits n) = n := by
  have same : ∀ (chars : List Char) (start : Nat), (chars.map Char.toNat).foldl (fun n unit => 10 * n + (unit - 48)) start =
      Nat.ofDigitChars 10 chars start := by
    intro chars
    induction chars with
    | nil => simp
    | cons c chars ih => intro start; simp [Nat.ofDigitChars_cons,ih]
  exact (same _ 0).trans Nat.ofDigitChars_ten_toDigits

theorem takeDigits_digits (stop : ∀ unit ∈ rest.head?, ¬Digit unit) : takeDigits (digits n ++ rest) = digits n := by
  rw [takeDigits,takeWhile_append_of_pos (fun unit member => decide_eq_true (digit_of_mem member))]
  cases rest with
  | nil => simp
  | cons unit rest => simp [stop unit rfl]

theorem dropDigits_digits (stop : ∀ unit ∈ rest.head?, ¬Digit unit) : dropDigits (digits n ++ rest) = rest := by
  rw [dropDigits,dropWhile_append_of_pos (fun unit member => decide_eq_true (digit_of_mem member))]
  cases rest with
  | nil => rfl
  | cons unit rest => simp [stop unit rfl]

theorem trimStart_head (head : (trimStart text).head? = some unit) : ¬Blank unit := by
  have plain := head?_dropWhile_not (fun unit => decide (Blank unit)) text
  rw [trimStart] at head
  rw [head] at plain
  exact of_decide_eq_false plain

theorem trim_nil (none_ : trim text = []) : ∀ unit ∈ text, Blank unit := by
  have all : ∀ unit ∈ trimStart text, Blank unit := fun unit member => of_decide_eq_true (rdropWhile_eq_nil_iff.mp none_ unit member)
  have left : trimStart text = [] := by
    cases start : trimStart text with
    | nil => rfl
    | cons unit rest =>
      exact absurd (all unit (by rw [start]; exact mem_cons_self)) (trimStart_head (by rw [start]; rfl))
  exact fun unit member => of_decide_eq_true (dropWhile_eq_nil_iff.mp left unit member)

end lemmas

end JsString
