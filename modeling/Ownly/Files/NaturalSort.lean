import Mathlib.Algebra.Group.Nat.Defs
import Mathlib.Data.Char
import Mathlib.Data.List.Lex
import Mathlib.Data.List.Infix
import Mathlib.Data.Prod.Lex

-- natural_sort_key of migration 008 and the orders of files/listing.rs that are made with it.
namespace Ownly.Files.NaturalSort
open List

abbrev Text := List Char

-- `lower`: by the locale, character by character; it leaves the digits, and makes no other one.
structure Lowering where
  char : Char → Char
  digit : ∀ c, c.isDigit = true → char c = c
  other : ∀ c, c.isDigit = false → (char c).isDigit = false

def Lowering.lower (lowering : Lowering) (text : Text) : Text := text.map lowering.char

-- `regexp_split_to_table(input, '(\d+)')`: what stands between the runs of digits.
def parts : Bool → Text → List Text
  | _,[] => [[]]
  | inRun,c :: rest =>
    if c.isDigit then (if inRun then parts true rest else [] :: parts true rest)
    else match parts false rest with
      | [] => [[c]]
      | part :: more => (c :: part) :: more

def lpad (text : Text) (width : Nat) (fill : Char) : Text := List.replicate (width - text.length) fill ++ text.take width

def segment (lowering : Lowering) (part : Text) : Text :=
  if part ≠ [] ∧ part.all Char.isDigit then lpad part 20 '0' else lowering.lower part

def naturalSortKey (lowering : Lowering) (input : Text) : Text := (parts false input).flatMap (segment lowering)

inductive FileListSort where
  | nameAsc
  | nameDesc
  | uploadedDesc
  | uploadedAsc

structure FileEntry where
  name : Text
  createdAt : Int
  id : Text

-- Texts are compared by their code points.
def fileListOrderClause (lowering : Lowering) (a b : FileEntry) : FileListSort → Prop
  | .nameAsc => toLex (naturalSortKey lowering a.name,lowering.lower a.name) < toLex (naturalSortKey lowering b.name,lowering.lower b.name)
  | .nameDesc => toLex (naturalSortKey lowering b.name,lowering.lower b.name) < toLex (naturalSortKey lowering a.name,lowering.lower a.name)
  | .uploadedDesc => toLex (b.createdAt,b.id) < toLex (a.createdAt,a.id)
  | .uploadedAsc => toLex (a.createdAt,a.id) < toLex (b.createdAt,b.id)

def numbered (p s : Text) (n : Nat) : Text := p ++ Nat.toDigits 10 n ++ s

variable {lowering : Lowering} {text a b x : Text}

theorem parts_flatten (inRun : Bool) (text : Text) : (parts inRun text).flatten = text.filter (fun c => !c.isDigit) := by
  induction text generalizing inRun with
  | nil => rfl
  | cons c rest ih =>
    rw [parts]
    by_cases digit : c.isDigit = true
    · cases inRun <;> simp [digit,ih]
    · simp only [digit,Bool.false_eq_true,if_false]
      split <;> simp_all

theorem naturalSortKey_eq : naturalSortKey lowering text = lowering.lower (text.filter (fun c => !c.isDigit)) := by
  have plain : ∀ part ∈ parts false text, segment lowering part = part.map lowering.char := by
    intro part member
    apply if_neg
    rintro ⟨full,digits⟩
    obtain ⟨c,rest,rfl⟩ := exists_cons_of_ne_nil full
    have inside : c ∈ (parts false text).flatten := mem_flatten_of_mem member mem_cons_self
    simp_all [parts_flatten]
  rw [naturalSortKey,Lowering.lower,← parts_flatten false,map_flatten,flatMap_def,map_congr_left plain]

theorem digits_isDigit (n : Nat) : ∀ c ∈ Nat.toDigits 10 n, c.isDigit = true :=
  fun _ member => Nat.isDigit_of_mem_toDigits (by decide) (by decide) member

theorem lower_numbered (p s : Text) (n : Nat) :
    lowering.lower (numbered p s n) = lowering.lower p ++ (Nat.toDigits 10 n ++ lowering.lower s) := by
  have digits : (Nat.toDigits 10 n).map lowering.char = Nat.toDigits 10 n := by
    rw [map_congr_left (fun c member => lowering.digit c (digits_isDigit n c member)),map_id']
  simp [Lowering.lower,numbered,digits]

theorem naturalSortKey_numbered (p s : Text) (n : Nat) : naturalSortKey lowering (numbered p s n) = naturalSortKey lowering (p ++ s) := by
  have gone : (Nat.toDigits 10 n).filter (fun c => !c.isDigit) = [] := by
    simpa using digits_isDigit n
  simp [naturalSortKey_eq,numbered,gone]

theorem digits_length {m n : Nat} (less : m ≤ n) : (Nat.toDigits 10 m).length ≤ (Nat.toDigits 10 n).length :=
  (Nat.length_toDigits_le_iff (by decide) Nat.length_toDigits_pos).mpr
    (less.trans_lt ((Nat.length_toDigits_le_iff (by decide) Nat.length_toDigits_pos).mp le_rfl))

theorem append_lt_iff (ofDigits : ∀ c ∈ b, c.isDigit = true) (stops : ∀ c ∈ x.head?, c.isDigit = false) (short : a.length ≤ b.length) :
    a ++ x < b ++ x ↔ a < b ∧ (a <+: b → ∀ c ∈ x.head?, c < '0') := by
  induction a generalizing b with
  | nil =>
    cases b with
    | nil => simp
    | cons d rest =>
      have digit := ofDigits d mem_cons_self
      cases x with
      | nil => simp
      | cons c x =>
        have stop := stops c rfl
        have below : c < d ↔ c < '0' := by
          simp only [Char.lt_def,UInt32.lt_iff_toNat_lt,Char.isDigit,ge_iff_le,UInt32.le_iff_toNat_le] at *
          simp at *
          omega
        have apart : c ≠ d := by
          rintro rfl
          simp [stop] at digit
        simpa [cons_lt_cons_iff,apart] using below
  | cons e a ih =>
    cases b with
    | nil => simp at short
    | cons d b =>
      have rest := ih (fun c member => ofDigits c (mem_cons_of_mem _ member)) (by simpa using short)
      simp only [cons_append,cons_lt_cons_iff,cons_prefix_cons,rest]
      grind

theorem fileListOrderClause_numbered (p s : Text) (m n : Nat) (a b : FileEntry) (first : a.name = numbered p s m) (second : b.name = numbered p s n) :
    fileListOrderClause lowering a b .nameAsc ∧ fileListOrderClause lowering b a .nameDesc ↔
      Nat.toDigits 10 m ++ lowering.lower s < Nat.toDigits 10 n ++ lowering.lower s := by
  simp only [fileListOrderClause,first,second,Prod.Lex.toLex_lt_toLex,naturalSortKey_numbered,lower_numbered,lt_irrefl,false_or,true_and,
    and_self]
  have mono : StrictMono (lowering.lower p ++ ·) := fun _ _ under => append_left_lt under
  exact mono.lt_iff_lt

-- The files stand in the order of their numbers exactly when the decimal texts of the numbers do,
-- and what comes behind a number that begins the other one is below the digits.
theorem natural_order_iff (lowering : Lowering) (p s : Text) (m n : Nat) (a b : FileEntry) (less : m < n)
    (stops : ∀ c ∈ s.head?, c.isDigit = false) (first : a.name = numbered p s m) (second : b.name = numbered p s n) :
    fileListOrderClause lowering a b .nameAsc ∧ fileListOrderClause lowering b a .nameDesc ↔
      Nat.toDigits 10 m < Nat.toDigits 10 n ∧ (Nat.toDigits 10 m <+: Nat.toDigits 10 n → ∀ c ∈ s.head?, lowering.char c < '0') := by
  have stopped : ∀ c ∈ (lowering.lower s).head?, c.isDigit = false := by
    intro c member
    simp only [Lowering.lower,head?_map,Option.mem_def,Option.map_eq_some_iff] at member
    obtain ⟨d,found,rfl⟩ := member
    exact lowering.other d (stops d found)
  rw [fileListOrderClause_numbered p s m n a b first second,append_lt_iff (digits_isDigit n) stopped (digits_length less.le)]
  simp [Lowering.lower,head?_map]

def plainLowering : Lowering := ⟨id,fun _ _ => rfl,fun _ other => other⟩

def photo (n : Nat) : FileEntry := ⟨numbered "photo".toList ".jpg".toList n,0,[]⟩

theorem photos_in_order : fileListOrderClause plainLowering (photo 1) (photo 10) .nameAsc ∧ fileListOrderClause plainLowering (photo 10) (photo 1) .nameDesc :=
  (natural_order_iff plainLowering "photo".toList ".jpg".toList 1 10 (photo 1) (photo 10) (by decide) (by simp) rfl rfl).mpr
    (by simp [Nat.toDigits_of_lt_base]; decide)

theorem photos_out_of_order : ¬∀ (lowering : Lowering) (p s : Text) (m n : Nat) (a b : FileEntry), m < n → n < 10 ^ 20 →
    (∀ c ∈ p.getLast?, c.isDigit = false) → (∀ c ∈ s.head?, c.isDigit = false) → a.name = numbered p s m → b.name = numbered p s n →
    fileListOrderClause lowering a b .nameAsc ∧ fileListOrderClause lowering b a .nameDesc := by
  intro ordered
  have both := ordered plainLowering "photo".toList ".jpg".toList 9 10 (photo 9) (photo 10) (by decide) (by decide) (by simp) (by simp) rfl rfl
  rw [fileListOrderClause_numbered _ _ 9 10 _ _ rfl rfl] at both
  exact absurd both (by decide)

end Ownly.Files.NaturalSort
