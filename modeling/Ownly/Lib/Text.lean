import Mathlib.Data.List.DropRight

-- Text as a list of characters: lines, trimming, slash-separated paths and unsigned
-- decimal numbers.
namespace Text
open List

abbrev Line := List Char

-- The characters with the property White_Space.
def isWhitespace (c : Char) : Bool :=
  decide (c.toNat ∈ [0x20,0x85,0xA0,0x1680,0x2028,0x2029,0x202F,0x205F,0x3000]) ||
    decide (0x9 ≤ c.toNat ∧ c.toNat ≤ 0xD) || decide (0x2000 ≤ c.toNat ∧ c.toNat ≤ 0x200A)

def trim (text : Line) : Line := (text.dropWhile isWhitespace).rdropWhile isWhitespace

def stripReturn (line : Line) : Line := if line.getLast? = some '\r' then line.dropLast else line

-- Lines end in "\n" or "\r\n"; an empty rest after the last of them is no line.
def lines (text : List Char) : List Line :=
  (text.splitOn '\n').dropLast.map stripReturn ++ (text.splitOn '\n').getLast?.toList.filter (fun line => decide (line ≠ []))

def stripPrefix (lead text : Line) : Option Line := if lead <+: text then some (text.drop lead.length) else none

def stripSuffix (tail text : Line) : Option Line := if tail <:+ text then some (text.take (text.length - tail.length)) else none

-- At most `fuel` times over.
def trimStartMatches (lead : Line) : Nat → Line → Line
  | 0,text => text
  | fuel + 1,text => match stripPrefix lead text with
    | some rest => trimStartMatches lead fuel rest
    | none => text

-- What follows the last separator, or the whole of a text without one.
def afterLast (separator : Char) (text : Line) : Line := text.rtakeWhile (fun c => decide (c ≠ separator))

def rsplitOnce (separator : Char) (text : Line) : Option (Line × Line) :=
  if separator ∈ text then
    some (text.take (text.length - (afterLast separator text).length - 1),afterLast separator text)
  else none

def digit (c : Char) : Option Nat := if '0' ≤ c ∧ c ≤ '9' then some (c.toNat - '0'.toNat) else none

def parseDigits : Nat → Line → Option Nat
  | n,[] => some n
  | n,c :: rest => (digit c).bind (fun d => parseDigits (10 * n + d) rest)

def stripPlus (text : Line) : Line := if text.head? = some '+' then text.tail else text

def parseUnsigned (limit : Nat) (text : Line) : Option Nat :=
  if stripPlus text = [] then none else (parseDigits 0 (stripPlus text)).filter (fun n => decide (n ≤ limit))

section lemmas
variable {text rest name tail lead : Line} {separator c : Char} {limit n : Nat}

theorem parseUnsigned_le (parsed : parseUnsigned limit text = some n) : n ≤ limit := by
  unfold parseUnsigned at parsed
  split at parsed
  · cases parsed
  · exact of_decide_eq_true (Option.filter_eq_some_iff.mp parsed).2

theorem afterLast_append (clear : separator ∉ name) : afterLast separator (lead ++ separator :: name) = name := by
  have all : ∀ c ∈ name.reverse, decide (c ≠ separator) = true := by
    intro c member
    exact decide_eq_true (fun same => clear (same ▸ mem_reverse.mp member))
  rw [afterLast,List.rtakeWhile]
  simp only [reverse_append,reverse_cons,append_assoc,singleton_append]
  rw [takeWhile_append_of_pos all,takeWhile_cons_of_neg (by simp),append_nil,reverse_reverse]

theorem afterLast_self (clear : separator ∉ name) : afterLast separator name = name :=
  rtakeWhile_eq_self_iff.mpr (fun _ member => decide_eq_true (fun same => clear (same ▸ member)))

theorem afterLast_clear : separator ∉ afterLast separator text := by
  intro member
  have other := mem_rtakeWhile_imp member
  exact of_decide_eq_true other rfl

theorem afterLast_split (separator : Char) (text : Line) :
    (text = afterLast separator text ∧ separator ∉ text) ∨ ∃ lead, text = lead ++ separator :: afterLast separator text := by
  by_cases clear : separator ∈ text
  · obtain ⟨name,lead,same,absent⟩ := eq_append_cons_of_mem (mem_reverse.mpr clear)
    have whole : text = lead.reverse ++ separator :: name.reverse := by
      have back := congrArg List.reverse same
      simpa using back
    rw [whole,afterLast_append (fun member => absent (mem_reverse.mp member))]
    exact .inr ⟨lead.reverse,rfl⟩
  · exact .inl ⟨(afterLast_self clear).symm,clear⟩

theorem rsplitOnce_append (clear : separator ∉ name) :
    rsplitOnce separator (lead ++ separator :: name) = some (lead,name) := by
  rw [rsplitOnce,if_pos (by simp),afterLast_append clear]
  have length : (lead ++ separator :: name).length - name.length - 1 = lead.length := by
    rw [length_append,length_cons]
    omega
  rw [length,take_left]

theorem trim_ends (first : ∀ c ∈ text.head?, isWhitespace c = false) (last : ∀ c ∈ text.getLast?, isWhitespace c = false) :
    trim text = text := by
  have front : text.dropWhile isWhitespace = text := by
    cases text with
    | nil => rfl
    | cons c rest => exact dropWhile_cons_of_neg (by rw [first c rfl]; exact Bool.false_ne_true)
  rw [trim,front,rdropWhile_eq_self_iff]
  intro some
  rw [last _ (getLast?_eq_some_getLast some)]
  exact Bool.false_ne_true

theorem trim_last (c : Char) (member : c ∈ (trim text).getLast?) : isWhitespace c = false := by
  unfold trim at member
  have some : (text.dropWhile isWhitespace).rdropWhile isWhitespace ≠ [] := by
    intro none
    rw [none] at member
    cases member
  rw [getLast?_eq_some_getLast some] at member
  cases member
  exact Bool.eq_false_iff.mpr (rdropWhile_last_not _ _ some)

theorem trim_first (c : Char) (member : c ∈ (trim text).head?) : isWhitespace c = false := by
  obtain ⟨tail,whole⟩ := rdropWhile_prefix isWhitespace (text.dropWhile isWhitespace)
  change trim text ++ tail = text.dropWhile isWhitespace at whole
  cases trimmed : trim text with
  | nil => rw [trimmed] at member; cases member
  | cons first rest =>
    rw [trimmed] at member whole
    cases member
    have some : text.dropWhile isWhitespace ≠ [] := by rw [← whole]; exact cons_ne_nil _ _
    have head : (text.dropWhile isWhitespace).head some = c := by simp only [← whole,cons_append,head_cons]
    have kept := head_dropWhile_not isWhitespace some
    rwa [head] at kept

theorem trim_trim : trim (trim text) = trim text := trim_ends trim_first trim_last

theorem stripSuffix_some (stripped : stripSuffix tail text = some rest) : text = rest ++ tail := by
  unfold stripSuffix at stripped
  split at stripped
  · rename_i ends
    cases stripped
    obtain ⟨front,rfl⟩ := ends
    simp
  · cases stripped

end lemmas

example : lines "a\r\nb\n".toList = ["a".toList,"b".toList] := by decide

example : parseUnsigned 9 "+007".toList = some 7 := by decide

end Text
