import Ownly.Lib.JsString

-- frontend/src/lib/rtf/sentence-range.ts: the range of a text that is locked for the one who
-- types at a caret.
namespace Ownly.Rtf
open JsString

def maxLockChars : Nat := 160

def boundaryAt (text : Str) (i : Nat) : Bool := (text[i]?).any (fun ch => decide (ch ∈ [0x2E,0x21,0x3F,0xA,0xD]))

-- `/\s/.test(text[i])`
def blankAt (text : Str) (i : Nat) : Bool := (text[i]?).any (fun ch => decide (Blank ch))

-- `while (i > 0 && keep(i - 1)) i -= 1`
def backWhile (keep : Nat → Bool) : Nat → Nat
  | 0 => 0
  | i + 1 => if keep i then backWhile keep i else i + 1

-- `while (i < i + left && keep(i)) i += 1`
def forwardWhile (keep : Nat → Bool) : Nat → Nat → Nat
  | 0,i => i
  | left + 1,i => if keep i then forwardWhile keep left (i + 1) else i

def clampCaret (text : Str) (caret : Int) : Nat := (max 0 (min caret text.length)).toNat

def sentenceStart (text : Str) (caret : Nat) : Nat :=
  let start := backWhile (fun i => !boundaryAt text i) caret
  forwardWhile (blankAt text) (text.length - start) start

def sentenceEnd (text : Str) (caret : Nat) : Nat :=
  let stop := forwardWhile (fun i => !boundaryAt text i) (text.length - caret) caret
  if stop < text.length then stop + 1 else stop

def sentenceRangeAround (text : Str) (caretStart caretEnd : Int) : Nat × Nat :=
  let len := text.length
  if len = 0 then (0,0)
  else
    let center := clampCaret text caretStart
    let start := sentenceStart text center
    let stop := sentenceEnd text (max center (clampCaret text caretEnd))
    -- the fallback of an empty range: a single unit, of which there is none at the end of the text
    let stop := if stop ≤ start then min len (start + 1) else stop
    if maxLockChars < stop - start then
      let start := center - maxLockChars / 2
      let stop := min len (start + maxLockChars)
      (if stop - start < maxLockChars then stop - maxLockChars else start,stop)
    else (start,stop)

-- A lock that holds the caret and is neither empty nor too long.
def LockCovers (text : Str) (caretStart : Nat) (range : Nat × Nat) : Prop :=
  range.1 < range.2 ∧ range.2 ≤ text.length ∧ range.2 - range.1 ≤ maxLockChars ∧ range.1 ≤ caretStart ∧ caretStart ≤ range.2

-- The sentence has begun by the caret.
def Begun (text : Str) (caret : Nat) : Prop :=
  ∃ i, i ≤ caret ∧ i < text.length ∧ blankAt text i = false ∧ ∀ j, i ≤ j → j < caret → boundaryAt text j = false

-- It begins behind the caret, and is too long to be locked whole.
def LongAhead (text : Str) (caretStart caretEnd : Nat) : Prop :=
  ∃ i, caretStart ≤ i ∧ i + maxLockChars < text.length ∧ (∀ j, caretStart ≤ j → j < i → blankAt text j = true) ∧
    blankAt text i = false ∧ ∀ j, caretEnd ≤ j → j < i + maxLockChars → boundaryAt text j = false

section
variable {text : Str} {keep : Nat → Bool} {i left caret : Nat}

theorem backWhile_spec (keep : Nat → Bool) (i : Nat) : backWhile keep i ≤ i ∧ (∀ j, backWhile keep i ≤ j → j < i → keep j = true) ∧
    (0 < backWhile keep i → keep (backWhile keep i - 1) = false) := by
  induction i with
  | zero => simp [backWhile]
  | succ i ih =>
    rw [backWhile]
    split
    · refine ⟨by omega,?_,ih.2.2⟩
      intro j low high
      rcases Nat.lt_succ_iff_lt_or_eq.mp high with below | rfl
      · exact ih.2.1 j low below
      · assumption
    · simp_all

theorem forwardWhile_spec (keep : Nat → Bool) (left i : Nat) : i ≤ forwardWhile keep left i ∧ forwardWhile keep left i ≤ i + left ∧
    (∀ j, i ≤ j → j < forwardWhile keep left i → keep j = true) ∧
    (forwardWhile keep left i < i + left → keep (forwardWhile keep left i) = false) := by
  induction left generalizing i with
  | zero =>
    simp [forwardWhile]
    omega
  | succ left ih =>
    rw [forwardWhile]
    split
    · have next := ih (i + 1)
      refine ⟨by omega,by omega,?_,fun low => next.2.2.2 (by omega)⟩
      intro j low high
      rcases Nat.eq_or_lt_of_le low with rfl | above
      · assumption
      · exact next.2.2.1 j above high
    · simp_all

theorem sentenceStart_begun :
    sentenceStart text caret ≤ caret ∧ sentenceStart text caret < text.length ↔ Begun text caret := by
  obtain ⟨behind,clear,stopped⟩ := backWhile_spec (fun i => !boundaryAt text i) caret
  simp only [sentenceStart]
  generalize backWhile (fun i => !boundaryAt text i) caret = start at *
  obtain ⟨ahead,within,skipped,halted⟩ := forwardWhile_spec (blankAt text) (text.length - start) start
  generalize forwardWhile (blankAt text) (text.length - start) start = first at *
  constructor
  · rintro ⟨under,inner⟩
    refine ⟨first,under,inner,halted (by omega),?_⟩
    intro j low high
    simpa using clear j (by omega) high
  · rintro ⟨i,under,inner,solid,open'⟩
    have reached : start ≤ i := by
      by_contra outside
      have bounded := open' (start - 1) (by omega) (by omega)
      simp_all
    have seen : first ≤ i := by
      by_contra beyond
      simp_all
    omega

theorem sentenceStart_blanks (inside : caret ≤ text.length) : sentenceStart text caret ≤ text.length ∧
    (∀ j, caret ≤ j → j < sentenceStart text caret → blankAt text j = true) ∧
    (sentenceStart text caret < text.length → blankAt text (sentenceStart text caret) = false) := by
  obtain ⟨behind,-,-⟩ := backWhile_spec (fun i => !boundaryAt text i) caret
  simp only [sentenceStart]
  generalize backWhile (fun i => !boundaryAt text i) caret = start at *
  obtain ⟨-,within,skipped,halted⟩ := forwardWhile_spec (blankAt text) (text.length - start) start
  exact ⟨by omega,fun j low high => skipped j (by omega) high,fun low => halted (by omega)⟩

theorem lt_sentenceEnd (inside : caret ≤ text.length) :
    i < sentenceEnd text caret ↔ i < text.length ∧ ∀ j, caret ≤ j → j < i → boundaryAt text j = false := by
  obtain ⟨ahead,within,skipped,halted⟩ := forwardWhile_spec (fun i => !boundaryAt text i) (text.length - caret) caret
  simp only [sentenceEnd]
  generalize forwardWhile (fun i => !boundaryAt text i) (text.length - caret) caret = stop at *
  constructor
  · intro below
    refine ⟨by grind,fun j low high => ?_⟩
    simpa using skipped j low (by grind)
  · rintro ⟨inner,clear⟩
    by_contra beyond
    have bounded := halted (by grind)
    have free := clear stop ahead (by grind)
    simp_all

theorem sentenceRangeAround_covers {a b : Nat} (nonempty : text ≠ []) (ordered : a ≤ b) (inside : b ≤ text.length) :
    LockCovers text a (sentenceRangeAround text a b) ↔
      sentenceStart text a ≤ a ∧ sentenceStart text a < text.length ∨ sentenceStart text a + maxLockChars < sentenceEnd text b := by
  have size : text.length ≠ 0 := by simpa using nonempty
  have left : clampCaret text a = a := by simp only [clampCaret]; omega
  have right : max a (clampCaret text b) = b := by simp only [clampCaret]; omega
  have bounded : sentenceEnd text b ≤ text.length := not_lt.mp (fun beyond => absurd ((lt_sentenceEnd inside).mp beyond).1 (lt_irrefl _))
  have past : b < text.length → b < sentenceEnd text b := fun inner => (lt_sentenceEnd inside).mpr ⟨inner,by omega⟩
  have whole : 0 < b → b - 1 < sentenceEnd text b := fun positive => (lt_sentenceEnd inside).mpr ⟨by omega,by omega⟩
  have start := (sentenceStart_blanks (ordered.trans inside)).1
  simp only [sentenceRangeAround,LockCovers,size,left,right,if_false,maxLockChars]
  generalize sentenceStart text a = first at *
  generalize sentenceEnd text b = stop at *
  split_ifs <;> simp only [] <;> omega

theorem lock_covers_iff (nonempty : text ≠ []) (a b : Nat) (ordered : a ≤ b) (inside : b ≤ text.length) :
    LockCovers text a (sentenceRangeAround text a b) ↔ Begun text a ∨ LongAhead text a b := by
  obtain ⟨-,blanks,solid⟩ := sentenceStart_blanks (ordered.trans inside)
  rw [sentenceRangeAround_covers nonempty ordered inside,sentenceStart_begun,lt_sentenceEnd inside]
  by_cases begun : Begun text a
  · simp [begun]
  · have late := mt sentenceStart_begun.mp begun
    simp only [begun,false_or]
    constructor
    · rintro ⟨long,clear⟩
      exact ⟨sentenceStart text a,by omega,long,blanks,solid (by omega),clear⟩
    · rintro ⟨i,low,long,skipped,first,clear⟩
      have same : sentenceStart text a = i := by
        rcases lt_trichotomy (sentenceStart text a) i with before | same | behind
        · have unskipped := skipped _ (by omega) before
          rw [solid (by omega)] at unskipped
          cases unskipped
        · exact same
        · rw [blanks i low behind] at first
          cases first
      exact same ▸ ⟨long,clear⟩

end

theorem lock_covers_word : LockCovers (str "One. Two.") 7 (sentenceRangeAround (str "One. Two.") (7 : Nat) (7 : Nat)) :=
  (lock_covers_iff (by decide) 7 7 le_rfl (by decide)).mpr (.inl ⟨5,by decide,by decide,by decide,by decide⟩)

theorem lock_empty_at_end : ¬LockCovers (str "One.") 4 (sentenceRangeAround (str "One.") (4 : Nat) (4 : Nat)) := by
  simp only [LockCovers]
  decide

end Ownly.Rtf
